import Coforge.AttentionRule.HandedOver

/-!
# A page of history

`readMessagesPage` from its call to its return: the member, the boundary and the anchor are found,
a page of the target is read, and the boundary is moved where the page joins what was read.
`marksWhatItShows_readMessagesPage` is about every page request: nothing between the stored boundary
and the reported one is left out of the page, and the stored one never goes back.
-/

namespace Coforge.AttentionRule

/-- The page a read returns, and the tables it leaves; nothing where the Agent is no member of the
conversation, or where the anchor is not a message of the target. -/
def readMessagesPage (t : Tables) (agentId : Uuid) (target : Target) (options : PageOptions) :
    Option (HistoryPage × Tables) :=
  (openRead t agentId target options).map fun r =>
    (readPage t agentId r, finishRead t agentId r (readPage t agentId r))

/-- The target lies in a channel. -/
def InChannel (t : Tables) (target : Target) : Prop :=
  ∃ c ∈ t.conversations, c.id = target.conversationId ∧ c.channelName.isSome

/-- What a read shows of its target, and where it leaves the boundaries. -/
structure MarksWhatItShows (t t' : Tables) (agentId : Uuid) (target : Target)
    (options : PageOptions) (page : HistoryPage) : Prop where
  shows : ∀ b, page.modelSeenUpToSeq = some b → ∀ m ∈ t.messages, m.target = target →
    boundaryAt t agentId target < m.sequence → m.sequence ≤ b →
    (InChannel t target → options.throughSequence.isSome → t.delivered agentId m) →
      m ∈ page.messages
  advances : ∀ b, page.modelSeenUpToSeq = some b →
    boundaryAt t' agentId target = max (boundaryAt t agentId target) b
  unchanged : page.modelSeenUpToSeq = none → t' = t
  others : ∀ other, other ≠ target → boundaryAt t' agentId other = boundaryAt t agentId other
  rises : ∀ any, boundaryAt t agentId any ≤ boundaryAt t' agentId any

section Read

variable {t : Tables} {agentId : Uuid} {r : OpenedRead}

lemma boundaryAt_finishRead (h : t.Constraints) (hr : Opened t agentId r) (page : HistoryPage)
    (hread : r.readThrough = boundaryAt t agentId r.target) (other : Target) :
    boundaryAt (finishRead t agentId r page) agentId other =
      if other = r.target then max (boundaryAt t agentId other) (page.modelSeenUpToSeq.getD 0)
      else boundaryAt t agentId other := by
  obtain ⟨member, hmember, hid⟩ := Option.map_eq_some_iff.mp hr.member
  rw [finishRead]
  cases hseen : page.modelSeenUpToSeq.filter fun sequence => decide (r.readThrough < sequence) with
  | none =>
    -- the boundary is there already
    have hbelow : page.modelSeenUpToSeq.getD 0 ≤ r.readThrough := by
      cases hpage : page.modelSeenUpToSeq with
      | none => exact Nat.zero_le _
      | some s =>
        rw [hpage, Option.filter_eq_none_iff] at hseen
        exact not_lt.mp fun hlt => hseen s rfl (decide_eq_true hlt)
    split_ifs with htarget
    · rw [htarget, max_eq_left (hread ▸ hbelow)]
    · rfl
  | some s =>
    obtain ⟨hpage, -⟩ := Option.filter_eq_some_iff.mp hseen
    rw [hpage, Option.getD_some]
    cases hroot : r.target.threadRootId with
    | none =>
      have htarget : r.target = ⟨r.target.conversationId, none⟩ := by rw [← hroot]
      have hin : (t.agentMember agentId r.target.conversationId).isSome = true := by
        rw [hmember]
        rfl
      simp only [boundaryAt_advanceTopLevel, hin, and_true, ← htarget]
    | some rootId =>
      have htarget : r.target = ⟨r.target.conversationId, some rootId⟩ := by rw [← hroot]
      simp only [← hid, boundaryAt_advanceThreadRead h hmember, ← htarget]

end Read

/-- A read shows every message of its target between the stored boundary and the one it reports
(every delivered one, where a channel is read up to a sequence), moves the stored one there and
never back, and moves it nowhere where it reports none. -/
theorem marksWhatItShows_readMessagesPage (db : Database) {agentId : Uuid} {target : Target}
    {options : PageOptions} {page : HistoryPage} {t' : Tables}
    (h : readMessagesPage db.toTables agentId target options = some (page, t')) :
    MarksWhatItShows db.toTables t' agentId target options page := by
  obtain ⟨r, hopen, heq⟩ := Option.map_eq_some_iff.mp h
  obtain ⟨rfl, rfl⟩ := Prod.mk.inj heq
  have hr := opened_openRead hopen
  obtain ⟨c, own, hc, hown, rfl, rfl, -, hchannel, hread⟩ := openRead_spec hopen
  have hread : r.readThrough = boundaryAt db.toTables agentId r.target := by
    rw [hread, boundaryAt, readThrough, hown]
  have hmoves := boundaryAt_finishRead db.constraints hr (readPage db.toTables agentId r) hread
  refine ⟨?_, ?_, ?_, ?_, ?_⟩
  · intro b hb m hm htarget habove hle hdelivered
    refine mem_page_of_scope db.constraints hb (List.mem_filter.mpr ⟨hm, decide_eq_true ⟨?_, ?_⟩⟩)
      (hread ▸ habove) hle
    · exact decide_eq_true ⟨congrArg Target.conversationId htarget,
        congrArg Target.threadRootId htarget⟩
    · rintro ⟨hin, hbounded⟩
      obtain ⟨hmem, hid⟩ := mem_of_conversation hc
      exact hdelivered ⟨c, hmem, hid, hchannel ▸ hin⟩ hbounded
  · intro b hb
    rw [hmoves, if_pos rfl, hb, Option.getD_some]
  · intro hnone
    rw [finishRead, hnone]
    rfl
  · intro other hother
    rw [hmoves, if_neg hother]
  · intro any
    rw [hmoves]
    split_ifs
    · exact le_max_left _ _
    · exact le_refl _

/-- The page of an Agent that reads its direct message for the first time. -/
theorem marksWhatItShows_oneUnread : ∃ page t',
    readMessagesPage oneUnread.toTables 7 ⟨1, none⟩ {} = some (page, t') ∧
      page.modelSeenUpToSeq = some 1 ∧
        MarksWhatItShows oneUnread.toTables t' 7 ⟨1, none⟩ {} page := by
  have hread : readMessagesPage oneUnread.toTables 7 ⟨1, none⟩ {} =
      some (⟨[⟨20, 1, 1, some 10, 1, none⟩], false, false, some 1⟩,
        advanceTopLevel oneUnread.toTables 7 1 1) := rfl
  exact ⟨_, _, hread, rfl, marksWhatItShows_readMessagesPage oneUnread hread⟩

end Coforge.AttentionRule
