import Coforge.Lib.Run
import Coforge.Unread.Badges
import Mathlib

/-!
# What a badge counts

One conversation that the sidebar lists and that is not open, while the person's cursor and marker
in it stay where they are. The server commits messages and counts the unread ones; a list read or a
read-cursor event brings a count that the server made at some moment, and the events of messages
come late, twice, or not at all.

An event counts its message unless the high-water mark has passed it, and a count from the server
leaves that mark where it is. So a message is counted twice when its event comes after a count that
has it. Where no event does so, the badge stays within what is unread.
-/

namespace Coforge.Unread

open Transition

/-! ### The server -/

inductive Author where
  | viewer
  | other
  /-- A system notice has no member as its sender. -/
  | notice
deriving DecidableEq

structure Message where
  sequence : Nat
  threadRootId : Option String
  author : Author
deriving DecidableEq

/-- The row of the person in the conversation. -/
structure Standing where
  readThroughSequence : Nat
  unreadFromSequence : Option Nat
deriving DecidableEq

/-- `LEAST(readThroughSequence, unreadFromSequence - 1)`. -/
def Standing.bound (standing : Standing) : Nat :=
  match standing.unreadFromSequence with
  | some unreadFrom => min standing.readThroughSequence (unreadFrom - 1)
  | none => standing.readThroughSequence

/-- `HUMAN_UNREAD_MESSAGE_SQL`, of a top-level message. -/
def isUnread (standing : Standing) (m : Message) : Bool :=
  m.threadRootId.isNone && standing.bound < m.sequence && m.author = .other

/-- The server's own count. -/
def unreadCount (standing : Standing) (messages : List Message) : Nat :=
  (messages.filter (isUnread standing)).length

/-- The newest sequence of messages. -/
def newest (messages : List Message) : Nat := (messages.map Message.sequence).foldr max 0

/-! ### The page, and what it hears -/

structure World where
  /-- The messages of the conversation, oldest first. -/
  messages : List Message
  counts : UnreadCounts
  lastSeed : Option (List SeededList)
  /-- The newest message that was counted in the count that the badge last took. -/
  included : Nat

def World.start : World where
  messages := []
  counts _ := none
  lastSeed := none
  included := 0

inductive Happening where
  | commit (m : Message)
  /-- An event, with what is open and which channels are listed as it comes. -/
  | event (e : UnreadEventInput) (openConversationId : Option String) (conversations : List String)
  /-- A read-cursor event; where it is of this conversation, its count is of the first `moment`
  messages. -/
  | marked (e : MarkedEvent) (openConversationId : Option String) (moment : Nat)
  /-- A list read reached the page; the count of this conversation is of the first `moment`
  messages. -/
  | seed (lists : List SeededList) (openConversationId : Option String) (moment : Nat)
  | clear (key : String) (readThroughSequence : Option Nat)

/-- The event announces the message, naming its writer or nobody. -/
def Announces (viewer : String) (e : UnreadEventInput) (m : Message) : Prop :=
  e.sequence = m.sequence ∧ (e.inThread = m.threadRootId.isSome) ∧
    (e.senderUserId = none ∨ (e.senderUserId = some viewer ↔ m.author = .viewer))

instance {viewer : String} {e : UnreadEventInput} {m : Message} :
    Decidable (Announces viewer e m) :=
  inferInstanceAs (Decidable (_ ∧ _))

section Steps

variable (c viewer : String) (standing : Standing)

def rowsOf (lists : List SeededList) : List UnreadChannel := lists.flatMap SeededList.rows

def step (w : World) : Happening → Option World
  | .commit m =>
    if ∀ m' ∈ w.messages, m'.sequence < m.sequence then
      some { w with messages := w.messages ++ [m] }
    else none
  | .event e openConversationId conversations =>
    if openConversationId ≠ some c ∧
        (e.conversationId = c → ∃ m ∈ w.messages, Announces viewer e m) then
      some { w with
        counts := applyUnreadEvent w.counts e
          { openConversationId, conversations, viewerId := some viewer } }
    else none
  | .marked e openConversationId moment =>
    if openConversationId ≠ some c ∧
        (e.conversationId = c → e.unreadCount = unreadCount standing (w.messages.take moment)) then
      some { w with
        counts := applyMarked w.counts e openConversationId
        included :=
          if e.conversationId = c then newest (w.messages.take moment) else w.included }
    else none
  | .seed lists openConversationId moment =>
    let keepIds := unreadIdsToKeep lists w.lastSeed
    if openConversationId ≠ some c ∧ c ∈ (rowsOf lists).map UnreadChannel.id ∧
        (c ∉ keepIds → ∀ entry ∈ rowsOf lists, entry.id = c →
          entry.unreadCount.getD 0 = unreadCount standing (w.messages.take moment)) then
      some { w with
        counts := replaceUnreadCounts w.counts (rowsOf lists) openConversationId.toList keepIds
        lastSeed := some lists
        included := if c ∈ keepIds then w.included else newest (w.messages.take moment) }
    else none
  | .clear key readThroughSequence =>
    if key ≠ c then some { w with counts := clearUnread w.counts key readThroughSequence } else none

/-- An event that counts is of a message that is unread on the server, and that was not yet there
when the count that the badge last took was made. -/
def Fresh (w : World) : Happening → Prop
  | .event e openConversationId conversations =>
    e.conversationId = c →
      applies w.counts e { openConversationId, conversations, viewerId := some viewer } →
      isOwnMessage e (some viewer) = false →
        (∃ m ∈ w.messages, isUnread standing m ∧ m.sequence = e.sequence) ∧
          w.included < e.sequence
  | _ => True

instance {w : World} : ∀ h, Decidable (Fresh c viewer standing w h)
  | .event _ _ _ => inferInstanceAs (Decidable (_ → _ → _ → _))
  | .commit _ => isTrue trivial
  | .marked _ _ _ => isTrue trivial
  | .seed _ _ _ => isTrue trivial
  | .clear _ _ => isTrue trivial

end Steps

/-! ### The badge stays within what is unread -/

section Counting

variable {c viewer : String} {standing : Standing} {w w' : World}

/-- The unread messages up to a sequence. -/
def unreadThrough (standing : Standing) (messages : List Message) (sequence : Nat) : List Message :=
  (messages.filter (isUnread standing)).filter (·.sequence ≤ sequence)

/-- The badge counts messages that it, or the count that it took, has passed. -/
def Bounded (c : String) (standing : Standing) (w : World) : Prop :=
  badge w.counts c ≤
    (unreadThrough standing w.messages (max w.included (highWater w.counts c))).length

variable {messages : List Message} {m : Message}

lemma sequence_le_newest (h : m ∈ messages) : m.sequence ≤ newest messages := by
  induction messages with
  | nil => cases h
  | cons x xs ih =>
    rw [newest, List.map_cons, List.foldr_cons]
    rcases List.mem_cons.mp h with rfl | hmem
    · exact le_max_left _ _
    · exact (ih hmem).trans (le_max_right _ _)

variable {sequence : Nat}

lemma unreadThrough_mono {messages' : List Message} {sequence' : Nat}
    (hsub : messages.Sublist messages') (hle : sequence ≤ sequence') :
    (unreadThrough standing messages sequence).length ≤
      (unreadThrough standing messages' sequence').length := by
  have hfilter := (hsub.filter (isUnread standing)).filter (·.sequence ≤ sequence)
  refine hfilter.length_le.trans ?_
  refine (List.monotone_filter_right _ ?_).length_le
  intro m hm
  simp only [decide_eq_true_eq] at hm ⊢
  exact hm.trans hle

lemma unreadThrough_lt
    (hm : m ∈ messages) (hunread : isUnread standing m) (hlt : sequence < m.sequence) :
    (unreadThrough standing messages sequence).length <
      (unreadThrough standing messages m.sequence).length := by
  have hthrough : unreadThrough standing messages sequence =
      (unreadThrough standing messages m.sequence).filter (·.sequence ≤ sequence) := by
    rw [unreadThrough, unreadThrough]
    generalize messages.filter (isUnread standing) = unread
    rw [List.filter_filter]
    refine List.filter_congr fun x _ => ?_
    simp only [← Bool.decide_and, decide_eq_decide]
    exact ⟨fun h => ⟨h, h.trans hlt.le⟩, fun h => h.1⟩
  have hmem : m ∈ unreadThrough standing messages m.sequence := by
    simp [unreadThrough, hm, hunread]
  rw [hthrough, List.length_filter_lt_length_iff_exists]
  exact ⟨m, hmem, by simpa using hlt⟩

lemma unreadCount_take_le (messages : List Message) (moment : Nat)
    (hle : newest (messages.take moment) ≤ sequence) : unreadCount standing (messages.take moment) ≤
      (unreadThrough standing messages sequence).length := by
  have hall : unreadThrough standing (messages.take moment) sequence =
      (messages.take moment).filter (isUnread standing) := by
    rw [unreadThrough, List.filter_eq_self]
    intro m hm
    simp only [decide_eq_true_eq]
    exact (sequence_le_newest (List.mem_of_mem_filter hm)).trans hle
  rw [unreadCount, ← hall]
  exact unreadThrough_mono (List.take_sublist _ _) le_rfl

lemma bounded_commit (h : Bounded c standing w) :
    Bounded c standing { w with messages := w.messages ++ [m] } :=
  h.trans (unreadThrough_mono (List.sublist_append_left _ _) le_rfl)

lemma bounded_event {e : UnreadEventInput} {openConversationId : Option String}
    {conversations : List String} (hw : Bounded c standing w)
    (hfresh : Fresh c viewer standing w (.event e openConversationId conversations)) :
    Bounded c standing { w with
      counts := applyUnreadEvent w.counts e
        { openConversationId, conversations, viewerId := some viewer } } := by
  rw [Bounded, badge_applyUnreadEvent, highWater_applyUnreadEvent]
  by_cases hc : e.conversationId = c
  · cases happlies : applies w.counts e
      { openConversationId, conversations, viewerId := some viewer } with
    | false => simpa [hc, happlies, Bounded] using hw
    | true =>
      have hpassed : highWater w.counts c < e.sequence := by
        have hlast := happlies
        simp only [applies, Bool.and_eq_true, decide_eq_true_eq, hc] at hlast
        exact hlast.2
      cases hown : isOwnMessage e (some viewer) with
      | true =>
        have hraised : max w.included (highWater w.counts c) ≤ max w.included e.sequence :=
          max_le_max le_rfl hpassed.le
        simpa [hc] using hw.trans (unreadThrough_mono (List.Sublist.refl _) hraised)
      | false =>
        -- Its message is past all that the badge counted, so it is one more.
        obtain ⟨⟨m, hm, hunread, hseq⟩, hincluded⟩ := hfresh hc happlies hown
        rw [← hseq] at hincluded hpassed
        have hmore := unreadThrough_lt hm hunread (max_lt hincluded hpassed)
        have hbound := Nat.succ_le_of_lt (lt_of_le_of_lt hw hmore)
        simpa [hc, ← hseq, max_eq_right hincluded.le] using hbound
  · simpa [hc, Bounded] using hw

lemma bounded_step {h : Happening} (hw : Bounded c standing w)
    (hfresh : Fresh c viewer standing w h) (hstep : step c viewer standing w h = some w') :
    Bounded c standing w' := by
  cases h with
  | commit m =>
    obtain ⟨-, hw'⟩ := Option.ite_none_right_eq_some.mp hstep
    cases hw'
    exact bounded_commit hw
  | event e openConversationId conversations =>
    obtain ⟨-, hw'⟩ := Option.ite_none_right_eq_some.mp hstep
    cases hw'
    exact bounded_event hw hfresh
  | marked e openConversationId moment =>
    obtain ⟨⟨hopen, hcount⟩, hw'⟩ := Option.ite_none_right_eq_some.mp hstep
    cases hw'
    rw [Bounded, badge_applyMarked hopen, highWater_applyMarked]
    by_cases hc : e.conversationId = c
    · rw [if_pos hc, if_pos hc, hcount hc]
      exact unreadCount_take_le w.messages moment (le_max_left _ _)
    · rw [if_neg hc, if_neg hc]
      exact hw
  | seed lists openConversationId moment =>
    obtain ⟨⟨hopen, hlisted, hrows⟩, hw'⟩ := Option.ite_none_right_eq_some.mp hstep
    cases hw'
    have hshown : c ∉ openConversationId.toList := by
      rw [Option.mem_toList]
      exact hopen
    rw [Bounded, badge_replaceUnreadCounts hlisted hshown hrows,
      highWater_replaceUnreadCounts hlisted]
    by_cases hkeep : c ∈ unreadIdsToKeep lists w.lastSeed
    · rw [if_pos hkeep, if_pos hkeep]
      exact hw
    · rw [if_neg hkeep, if_neg hkeep]
      exact unreadCount_take_le w.messages moment (le_max_left _ _)
  | clear key through =>
    obtain ⟨hkey, ⟨⟩⟩ := Option.ite_none_right_eq_some.mp hstep
    rw [Bounded, badge_clearUnread hkey, highWater_clearUnread hkey]
    exact hw

/-- In a run whose every counted event is of an unread message that no adopted count has, the badge
stays within the unread messages. -/
theorem badge_within_unread {happenings : List Happening}
    (hrun : run (step c viewer standing) World.start happenings = some w)
    (hfresh : Permitted (step c viewer standing) (Fresh c viewer standing) World.start happenings) :
    badge w.counts c ≤ unreadCount standing w.messages := by
  have hstart : Bounded c standing World.start := Nat.zero_le _
  have hbounded : Bounded c standing w :=
    invariant (fun _ _ _ hw hok hstep => bounded_step hw hok hstep) hstart hfresh hrun
  exact hbounded.trans (List.length_filter_le _ _)

end Counting

/-! ### A count that has the message of an event -/

/-- A channel, of which nothing was read. -/
def channel : String := "channel"

def unreadAll : Standing where
  readThroughSequence := 0
  unreadFromSequence := none

def firstMessage : Message where
  sequence := 1
  threadRootId := none
  author := .other

def firstEvent : UnreadEventInput where
  conversationId := channel
  sequence := 1
  threadRootId := none
  agentId := none
  peerUserId := none
  senderUserId := some "author"

/-- A list read whose count is of the first `moment` messages. -/
def readList (count moment : Nat) : Happening :=
  .seed [{ readAt := 1, rows := [{ id := channel, unreadCount := some count }] }] none moment

/-- A list read before the message, and then its event, which comes twice. -/
def inOrder : List Happening :=
  [readList 0 0, .commit firstMessage, .event firstEvent none [channel],
    .event firstEvent none [channel]]

/-- The message, a list read that has it, and then its event. -/
def readFirst : List Happening :=
  [.commit firstMessage, readList 1 1, .event firstEvent none [channel]]

/-- Where the event follows the list read, and the message too, the badge is within the count. -/
theorem badge_of_event_after_read :
    ∃ w, run (step channel "viewer" unreadAll) World.start inOrder = some w ∧
      badge w.counts channel ≤ unreadCount unreadAll w.messages := by
  have hrun : (run (step channel "viewer" unreadAll) World.start inOrder).isSome := by decide
  obtain ⟨w, hw⟩ := Option.isSome_iff_exists.mp hrun
  exact ⟨w, hw, badge_within_unread hw (by decide)⟩

/-- A message that the list read counted is counted again as its event comes. -/
theorem read_message_is_counted_again :
    (run (step channel "viewer" unreadAll) World.start readFirst).map
      (fun w => (badge w.counts channel, unreadCount unreadAll w.messages)) = some (2, 1) := by
  decide

end Coforge.Unread
