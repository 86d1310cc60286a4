import Coforge.Mentions.SettledOnce

/-!
# What an acknowledgement rests on

An acknowledged mention was consumed, or a notice of it was accepted: while the Agent was idle, in
a turn that has ended and with no flag, or when it was delivered again. The invariant carries what
the ports and the calls that wait know of the trace. Two places settle a mention by a notice of a
turn that may still run, or that was reported lost: the loop over what was pending at the end of a
turn, and a repeat that finds the Agent idle.
-/

namespace Coforge.Mentions

open Transition Trace List

/-- A notice of the delivery was accepted, and the mention was not flagged since. -/
def ToldIn (trace : List Happening) (agentId deliveryId : String) (turn : Option Nat) : Prop :=
  ∃ later earlier, trace = later ++ .accepted agentId deliveryId turn :: earlier ∧
    .flagged agentId deliveryId ∉ later

/-- What stands behind the acknowledgement of a mention. -/
def Justified (past : List Happening) (message : TrackedMentionDelivery) : Prop :=
  .consumed message.agentId message.messageId ∈ past ∨
    .accepted message.agentId message.deliveryId none ∈ past ∨
    .redelivered message.agentId message.deliveryId ∈ past ∨
    ∃ turn, ToldIn past message.agentId message.deliveryId (some turn) ∧
      .turnEnded message.agentId turn ∈ past

def AcksSound (trace : List Happening) : Prop :=
  ∀ later past message, trace = later ++ .acknowledged message :: past → Justified past message

section Past

variable {past : List Happening} {event : Happening} {message : TrackedMentionDelivery}
  {agentId deliveryId : String} {turn : Option Nat}

lemma toldIn_accepted :
    ToldIn (.accepted agentId deliveryId turn :: past) agentId deliveryId turn :=
  ⟨[], past, rfl, not_mem_nil⟩

lemma toldIn_cons : ToldIn (event :: past) agentId deliveryId turn ↔
    event = .accepted agentId deliveryId turn ∨
      event ≠ .flagged agentId deliveryId ∧ ToldIn past agentId deliveryId turn := by
  constructor
  · rintro ⟨later, earlier, heq, hflag⟩
    rcases cons_eq_append_iff.mp heq with ⟨-, heq⟩ | ⟨later', rfl, heq⟩
    · cases heq
      exact .inl rfl
    · rw [mem_cons, not_or] at hflag
      exact .inr ⟨Ne.symm hflag.1, later', earlier, (cons.inj heq).2, hflag.2⟩
  · rintro (rfl | ⟨hevent, later, earlier, rfl, hflag⟩)
    · exact toldIn_accepted
    · exact ⟨event :: later, earlier, rfl, not_mem_cons_of_ne_of_not_mem (Ne.symm hevent) hflag⟩

lemma ToldIn.cons (h : ToldIn past agentId deliveryId turn)
    (hevent : event ≠ .flagged agentId deliveryId) :
    ToldIn (event :: past) agentId deliveryId turn :=
  toldIn_cons.mpr (.inr ⟨hevent, h⟩)

lemma Justified.cons (h : Justified past message)
    (hevent : event ≠ .flagged message.agentId message.deliveryId) :
    Justified (event :: past) message := by
  rcases h with h | h | h | ⟨turn, htold, hended⟩
  · exact .inl (mem_cons_of_mem _ h)
  · exact .inr (.inl (mem_cons_of_mem _ h))
  · exact .inr (.inr (.inl (mem_cons_of_mem _ h)))
  · exact .inr (.inr (.inr ⟨turn, htold.cons hevent, mem_cons_of_mem _ hended⟩))

end Past

namespace World

/-- A turn of the Agent is over, or is the one in progress. -/
def Over (w : World) (agentId : String) (turn : Option Nat) : Prop :=
  ∀ k, turn = some k →
    (w.agents agentId).During (some k) ∨ .turnEnded agentId k ∈ w.trace

/-- What the current session knows of a notice it accepted. -/
def Remembers (w : World) (agentId : String) (entry : Told) : Prop :=
  .accepted agentId entry.deliveryId entry.turn ∈ w.trace ∧ w.Over agentId entry.turn ∧
    (entry.lost = false → ToldIn w.trace agentId entry.deliveryId entry.turn)

/-- What a call that waits knows. -/
def Knows (w : World) : Waiting → Prop
  | .deliver message busy notice =>
    notice.generation ≤ (w.agents message.agentId).generation ∧
      (notice.generation = (w.agents message.agentId).generation →
        w.Over message.agentId notice.turn) ∧
      (busy = false → notice.turn = none)
  | .settleTurnEnd _ => True
  | .settleRedelivery agentId rest accepted =>
    accepted = true → ∀ id ∈ rest, .redelivered agentId id ∈ w.trace

/-- The acknowledgements rest on what they should, and what the ports read and the calls know is
in the trace. -/
structure Grounded (w : World) : Prop where
  sound : Each (fun past x => ∀ message, x = .acknowledged message → Justified past message) w.trace
  cursor : ∀ entry ∈ w.cursor, .consumed entry.1 entry.2 ∈ w.trace
  told : ∀ agentId, ∀ entry ∈ (w.agents agentId).told, w.Remembers agentId entry
  calls : ∀ call ∈ w.calls, w.Knows call
  drained : ∀ id t, w.tracker.get? id = some t → t.state = .drained → Justified w.trace t.message

lemma Grounded.acksSound {w : World} (h : w.Grounded) : AcksSound w.trace := by
  intro later past message heq
  exact each_iff.mp h.sound later _ past heq message rfl

/-! ### Parts of the operations -/

variable {w : World} {message : TrackedMentionDelivery} {agentId : String}

/-- No process starts and no turn starts or ends, and the trace goes on. -/
def Continues (w w' : World) : Prop :=
  w.trace ⊆ w'.trace ∧ ∀ agentId,
    (w'.agents agentId).generation = (w.agents agentId).generation ∧
      (w'.agents agentId).busy = (w.agents agentId).busy ∧
        (w'.agents agentId).turn = (w.agents agentId).turn

lemma continues_note {event : Happening} : w.Continues (w.note event) :=
  ⟨subset_cons_self _ _, fun _ => ⟨rfl, rfl, rfl⟩⟩

lemma continues_updateAgent {T : Tracker} {f : Session → List Told} {event : Happening} :
    w.Continues (({ w with tracker := T }.updateAgent agentId fun session =>
      { session with told := f session }).note event) := by
  refine ⟨subset_cons_self _ _, fun a => ?_⟩
  by_cases ha : a = agentId
  · subst ha
    simp [note, updateAgent]
  · simp [note, updateAgent, ha]

lemma Over.carry {w' : World} {turn : Option Nat} (h : w.Over agentId turn)
    (hw : w.Continues w') : w'.Over agentId turn := by
  intro k hk
  obtain ⟨-, hbusy, hturn⟩ := hw.2 agentId
  refine (h k hk).imp (fun hduring => ?_) (fun hended => hw.1 hended)
  rw [Session.During, hbusy, hturn]
  exact hduring

lemma Knows.carry {w' : World} {call : Waiting} (h : w.Knows call) (hw : w.Continues w') :
    w'.Knows call := by
  cases call with
  | deliver message busy notice =>
    obtain ⟨hgen, -⟩ := hw.2 message.agentId
    rw [Knows, hgen]
    exact ⟨h.1, fun heq => (h.2.1 heq).carry hw, h.2.2⟩
  | settleTurnEnd rest => trivial
  | settleRedelivery agentId rest accepted =>
    exact fun haccepted id hid => hw.1 (h haccepted id hid)

lemma Grounded.note {event : Happening} (h : w.Grounded)
    (hflag : ∀ agentId deliveryId, event ≠ .flagged agentId deliveryId)
    (hevent : ∀ message, event = .acknowledged message → Justified w.trace message) :
    (w.note event).Grounded where
  sound := ⟨hevent, h.sound⟩
  cursor entry he := mem_cons_of_mem _ (h.cursor entry he)
  told a entry he := by
    obtain ⟨haccepted, hover, hkept⟩ := h.told a entry he
    exact ⟨mem_cons_of_mem _ haccepted, hover.carry continues_note,
      fun hlost => (hkept hlost).cons (hflag _ _)⟩
  calls call hcall := (h.calls call hcall).carry continues_note
  drained id t hget hstate := (h.drained id t hget hstate).cons (hflag _ _)

lemma Grounded.note_issued {deliveryId : String} (h : w.Grounded) :
    (w.note (.issued deliveryId)).Grounded :=
  h.note (by simp) (by simp)

lemma Grounded.notes {events : List Happening} (h : w.Grounded)
    (hevents : ∀ e ∈ events, (∀ agentId deliveryId, e ≠ .flagged agentId deliveryId) ∧
      ∀ message, e ≠ .acknowledged message) :
    ({ w with trace := events ++ w.trace } : World).Grounded := by
  induction events with
  | nil => exact h
  | cons e events ih =>
    have hrest := ih fun e' he' => hevents e' (mem_cons_of_mem e he')
    obtain ⟨hflag, hack⟩ := hevents e mem_cons_self
    exact hrest.note hflag fun m he => absurd he (hack m)

lemma Grounded.track {T : Tracker} (h : w.Grounded)
    (hdrained : ∀ id t, T.get? id = some t → t.state = .drained → Justified w.trace t.message) :
    ({ w with tracker := T } : World).Grounded :=
  ⟨h.sound, h.cursor, h.told, h.calls, hdrained⟩

lemma Grounded.await {call : Waiting} (h : w.Grounded) (hcall : w.Knows call) :
    (w.await call).Grounded where
  sound := h.sound
  cursor := h.cursor
  told := h.told
  calls c hc := by
    rcases mem_append.mp hc with hc | hc
    · exact h.calls c hc
    · exact mem_singleton.mp hc ▸ hcall
  drained := h.drained

lemma Grounded.resume {call : Nat} (h : w.Grounded) :
    ({ w with calls := w.calls.eraseIdx call } : World).Grounded :=
  ⟨h.sound, h.cursor, h.told, fun c hc => h.calls c (mem_of_mem_eraseIdx hc), h.drained⟩

lemma Grounded.refuse {code : MentionDeliveryTerminalCode} (h : w.Grounded) :
    (w.refuse message code).Grounded := by
  refine Grounded.note (h.track fun id t hget => ?_) nofun nofun
  exact h.drained id t (Tracker.get?_of_forget hget).2

lemma Grounded.set {state : TrackedState} (h : w.Grounded)
    (hdrained : state = .drained → Justified w.trace message) : (w.set message state).Grounded := by
  refine h.track fun id t hget hstate => ?_
  rcases Tracker.get?_of_set hget with ⟨-, rfl⟩ | ⟨-, hget⟩
  · obtain rfl : state = .drained := hstate
    exact hdrained rfl
  · exact h.drained id t hget hstate

lemma Grounded.markPending (h : w.Grounded) : (w.markPending message).Grounded := by
  have hset : (w.set message .pending).Grounded := h.set nofun
  exact hset.note nofun nofun

lemma Grounded.drain (h : w.Grounded) (hjust : Justified w.trace message) :
    (w.drain message).Grounded := by
  simp only [World.drain]
  split_ifs
  · refine h.note (by simp) fun m heq => ?_
    cases heq
    exact hjust
  · have hset : ((w.set message .drained).transition message .daemonDrained .accepted).Grounded :=
      (h.set fun _ => hjust).note (by simp) (by simp)
    refine hset.note (by simp) fun m heq => ?_
    cases heq
    exact hjust.cons (by simp)

lemma Grounded.amend {existing : Tracked} (h : w.Grounded)
    (hget : w.tracker.get? message.deliveryId = some existing)
    (hagent : existing.message.agentId = message.agentId)
    (hmessage : existing.message.messageId = message.messageId) :
    ({ w with tracker := w.tracker.amend existing message } : World).Grounded := by
  refine h.track fun id t ht hstate => ?_
  rw [Tracker.get?_amend] at ht
  split_ifs at ht with hid
  · cases ht
    have hjust := h.drained _ existing hget hstate
    have hdelivery : existing.message.deliveryId = message.deliveryId :=
      Tracker.deliveryId_of_get? hget
    rw [Justified, hagent, hmessage, hdelivery] at hjust
    exact hjust
  · exact h.drained id t ht hstate

/-! ### Delivering -/

/-- A notice that settles the mention was accepted: its turn does not run any more, and it was not
lost. -/
def heard (w : World) (message : TrackedMentionDelivery) : Bool :=
  let session := w.agents message.agentId
  session.told.any fun entry =>
    entry.deliveryId = message.deliveryId ∧ ¬ session.During entry.turn ∧
      (entry.turn = none ∨ entry.lost = false)

lemma Grounded.justified_of_heard (h : w.Grounded) (hheard : w.heard message = true) :
    Justified w.trace message := by
  obtain ⟨entry, hentry, hwhen⟩ := any_eq_true.mp hheard
  simp only [decide_eq_true_eq] at hwhen
  obtain ⟨hid, hover, hlost⟩ := hwhen
  obtain ⟨haccepted, hturn, hkept⟩ := h.told _ entry hentry
  rw [hid] at haccepted hkept
  cases hentry' : entry.turn with
  | none => exact .inr (.inl (hentry' ▸ haccepted))
  | some k =>
    rw [hentry'] at hover hlost hkept
    have hended := (hturn k hentry').resolve_left hover
    exact .inr (.inr (.inr ⟨k, hkept (hlost.resolve_left nofun), hended⟩))

lemma justified_of_consumed (h : w.Grounded) (hconsumed : w.consumed message = true) :
    Justified w.trace message :=
  .inl (h.cursor _ (of_decide_eq_true hconsumed))

/-- `deliver` comes to where the mention is received: the envelope names what runs, and no record
of the same launch answers for the mention. -/
def tells (w : World) (message : TrackedMentionDelivery) : Bool :=
  !w.consumed message &&
    (w.agents message.agentId).running.any (namesLaunch · message.mentionDelivery) &&
    (w.tracker.get? message.deliveryId).all fun existing =>
      existing.message.agentId = message.agentId ∧
        existing.message.messageId = message.messageId ∧ existing.state ≠ .drained ∧
        namesLaunch existing.message.mentionDelivery.identity message.mentionDelivery = false

/-- A mention that is received while the Agent is idle, and that the session was told of, was told
by a notice that settles it. -/
def attends (w : World) (message : TrackedMentionDelivery) : Bool :=
  !w.tells message || !w.told message || (w.agents message.agentId).busy || w.heard message

lemma Grounded.settleTold (h : w.Grounded)
    (hheard : (w.agents message.agentId).busy = false → w.heard message = true) :
    (w.settleTold message).Grounded := by
  simp only [World.settleTold]
  split_ifs with hbusy
  · exact h.markPending
  · exact h.drain (h.justified_of_heard (hheard (by simpa using hbusy)))

lemma Grounded.tell (h : w.Grounded)
    (hheard : w.told message = true → (w.agents message.agentId).busy = false →
      w.heard message = true) : (w.tell message).Grounded := by
  have hreceived : (w.set message .received).Grounded := h.set nofun
  have hset : ((w.set message .received).transition message .daemonReceived .accepted).Grounded :=
    hreceived.note nofun nofun
  simp only [World.tell]
  split_ifs with htold
  · exact hset.settleTold (hheard htold)
  · split
    · exact hset.refuse
    · refine hset.await ⟨Nat.le_refl _, fun _ k hk => .inl ?_, fun hbusy => ?_⟩
      · simp only [Session.notice, Session.inTurn] at hk
        split_ifs at hk with hbusy
        exact ⟨hbusy, hk.symm⟩
      · simpa [Session.notice, Session.inTurn] using hbusy

lemma Grounded.deliver (h : w.Grounded) (hattends : w.attends message = true) :
    (w.deliver message).Grounded := by
  have htell (htells : w.tells message = true) : (w.tell message).Grounded := by
    refine h.tell fun htold hbusy => ?_
    simpa [attends, htells, htold, hbusy] using hattends
  simp only [World.deliver]
  split_ifs with hconsumed
  · exact h.drain (justified_of_consumed h hconsumed)
  · cases hrunning : (w.agents message.agentId).running with
    | none => exact h.refuse
    | some running =>
      simp only
      split_ifs with hdrift
      · exact h.refuse
      · have hnames : namesLaunch running message.mentionDelivery = true := by simpa using hdrift
        cases hget : w.tracker.get? message.deliveryId with
        | none => exact htell (by simp [tells, hconsumed, hrunning, hnames, hget])
        | some existing =>
          simp only
          split_ifs with hother hdrained hsame
          · exact h.refuse
          · rw [not_or, not_not, not_not] at hother
            have hamend := h.amend hget hother.1 hother.2
            refine hamend.note (by simp) fun m heq => ?_
            cases heq
            have hamended : Tracker.get? (w.tracker.amend existing message) message.deliveryId =
                some { existing with message := message } := by
              rw [Tracker.get?_amend, if_pos rfl]
            exact hamend.drained _ _ hamended hdrained
          · rw [not_or, not_not, not_not] at hother
            exact (h.amend hget hother.1 hother.2).note (by simp)
              (by simp)
          · rw [not_or, not_not, not_not] at hother
            refine htell ?_
            simp [tells, hconsumed, hrunning, hnames, hget, hother, hdrained, hsame]

lemma Grounded.announced {busy : Bool} {turn : Option Nat} {outcome : Announced}
    (h : w.Grounded) (hidle : busy = false → turn = none)
    (htold : outcome = .told → ∃ entry ∈ (w.agents message.agentId).told,
      entry.deliveryId = message.deliveryId ∧ entry.turn = turn) :
    (w.announced message busy outcome).Grounded := by
  cases outcome with
  | rejected => exact h.refuse
  | gone =>
    simp only [World.announced]
    split_ifs
    · exact h
    · split
      · exact h.refuse
      · exact h.refuse
  | told =>
    simp only [World.announced]
    split_ifs with hrec hbusy
    · exact h
    · exact h.markPending
    · obtain rfl := hidle (by simpa using hbusy)
      obtain ⟨entry, hentry, hid, hturn⟩ := htold rfl
      have haccepted := (h.told _ entry hentry).1
      rw [hid, hturn] at haccepted
      exact h.drain (.inr (.inl haccepted))

/-! ### Ends of turns and redeliveries -/

/-- The mention the end of a turn comes to next, if the session was told of it and the Agent did
not consume it, was told in a turn that does not run any more. -/
def settles (w : World) (pending : List String) : Bool :=
  (nextSettled w.tracker pending).all fun next =>
    !w.told next.1.message || w.consumed next.1.message || w.heard next.1.message

lemma Grounded.settleTurnEnd {pending : List String} (h : w.Grounded)
    (hsettles : w.settles pending = true) : (w.settleTurnEnd pending).Grounded := by
  simp only [World.settleTurnEnd]
  cases hfound : nextSettled w.tracker pending with
  | none => exact h
  | some next =>
    obtain ⟨t, rest⟩ := next
    obtain ⟨hget, hflag⟩ := nextSettled_spec hfound
    simp only
    split_ifs with hcond
    · refine (h.drain ?_).await trivial
      by_cases hconsumed : w.consumed t.message = true
      · exact justified_of_consumed h hconsumed
      · have htold : w.told t.message = true := by simpa [hconsumed] using hcond
        have hheard : w.heard t.message = true := by
          simpa [settles, hfound, hconsumed, htold] using hsettles
        exact h.justified_of_heard hheard
    · exact h.refuse.await trivial

lemma trace_subset_drain : w.trace ⊆ (w.drain message).trace := by
  intro e he
  simp only [World.drain]
  split_ifs
  · exact mem_cons_of_mem _ he
  · exact mem_cons_of_mem _ (mem_cons_of_mem _ he)

lemma Grounded.settleRedelivery {ids : List String} {accepted : Bool} (h : w.Grounded)
    (hids : accepted = true → ∀ id ∈ ids, .redelivered agentId id ∈ w.trace) :
    (w.settleRedelivery agentId ids accepted).Grounded := by
  simp only [World.settleRedelivery]
  cases hfound : nextRedelivered w.tracker agentId ids with
  | none => exact h
  | some next =>
    obtain ⟨t, rest⟩ := next
    obtain ⟨-, -, rfl, hmem, hrest⟩ := nextRedelivered_spec hfound
    simp only
    split_ifs with haccepted
    · have hdrained := h.drain (.inr (.inr (.inl (hids haccepted _ hmem))))
      exact hdrained.await fun _ id hid => trace_subset_drain (hids haccepted id (hrest hid))
    · exact h.refuse.await fun htrue => absurd htrue haccepted

/-! ### What the Agents do -/

/-- An Agent changes: its session knows of notices that were accepted, unless a new process runs,
and a turn that is left is over. -/
lemma Grounded.updateAgent {f : Session → Session} (h : w.Grounded)
    (hgen : (w.agents agentId).generation ≤ (f (w.agents agentId)).generation)
    (htold : ∀ entry ∈ (f (w.agents agentId)).told, w.Remembers agentId entry ∧
      (f (w.agents agentId)).generation = (w.agents agentId).generation)
    (hover : (f (w.agents agentId)).generation = (w.agents agentId).generation → ∀ k,
      (w.agents agentId).During (some k) →
        (f (w.agents agentId)).During (some k) ∨ .turnEnded agentId k ∈ w.trace) :
    (w.updateAgent agentId f).Grounded := by
  have hself : (w.updateAgent agentId f).agents agentId = f (w.agents agentId) :=
    Function.update_self _ _ _
  have hother {a : String} (ha : a ≠ agentId) : (w.updateAgent agentId f).agents a = w.agents a :=
    Function.update_of_ne ha _ _
  have hturn {a : String} {turn : Option Nat}
      (hsame : (w.updateAgent agentId f).agents a = w.agents a ∨
        a = agentId ∧ (f (w.agents agentId)).generation = (w.agents agentId).generation)
      (hw : w.Over a turn) : (w.updateAgent agentId f).Over a turn := by
    intro k hk
    rcases hsame with hsame | ⟨rfl, hgen⟩
    · rw [hsame]
      exact hw k hk
    · rw [hself]
      exact (hw k hk).elim (hover hgen k) .inr
  refine ⟨h.sound, h.cursor, fun a entry hentry => ?_, fun call hcall => ?_, h.drained⟩
  · by_cases ha : a = agentId
    · subst ha
      rw [hself] at hentry
      obtain ⟨⟨haccepted, hover', hkept⟩, hsame⟩ := htold entry hentry
      exact ⟨haccepted, hturn (.inr ⟨rfl, hsame⟩) hover', hkept⟩
    · rw [hother ha] at hentry
      obtain ⟨haccepted, hover', hkept⟩ := h.told a entry hentry
      exact ⟨haccepted, hturn (.inl (hother ha)) hover', hkept⟩
  · have hknows := h.calls call hcall
    cases call with
    | deliver message busy notice =>
      obtain ⟨hle, hnotice, hidle⟩ := hknows
      by_cases ha : message.agentId = agentId
      · refine ⟨?_, fun heq => ?_, hidle⟩
        · rw [ha, hself]
          exact Nat.le_trans (ha ▸ hle) hgen
        · rw [ha, hself] at heq
          rw [ha] at hle hnotice ⊢
          exact hturn (.inr ⟨rfl, by omega⟩) (hnotice (by omega))
      · refine ⟨?_, fun heq => ?_, hidle⟩
        · rw [hother ha]
          exact hle
        · rw [hother ha] at heq
          exact hturn (.inl (hother ha)) (hnotice heq)
    | settleTurnEnd rest => trivial
    | settleRedelivery a rest accepted => exact hknows

lemma agents_accept_self {deliveryId : String} {turn : Option Nat} :
    (w.accept agentId deliveryId turn).agents agentId =
      { w.agents agentId with told := ⟨deliveryId, turn, false⟩ :: (w.agents agentId).told } :=
  Function.update_self _ _ _

lemma agents_accept_of_ne {a deliveryId : String} {turn : Option Nat} (ha : a ≠ agentId) :
    (w.accept agentId deliveryId turn).agents a = w.agents a :=
  Function.update_of_ne ha _ _

lemma Grounded.accept {deliveryId : String} {turn : Option Nat} (h : w.Grounded)
    (hturn : w.Over agentId turn) : (w.accept agentId deliveryId turn).Grounded := by
  have hnoted : (w.note (.accepted agentId deliveryId turn)).Grounded := h.note nofun nofun
  refine ⟨hnoted.sound, hnoted.cursor, fun a entry hentry => ?_, fun call hcall => ?_,
    hnoted.drained⟩
  · have hbefore (hentry : entry ∈ (w.agents a).told) :
        (w.accept agentId deliveryId turn).Remembers a entry :=
      ⟨(hnoted.told a entry hentry).1, (h.told a entry hentry).2.1.carry continues_updateAgent,
        (hnoted.told a entry hentry).2.2⟩
    by_cases ha : a = agentId
    · subst ha
      rw [agents_accept_self] at hentry
      rcases mem_cons.mp hentry with rfl | hentry
      · exact ⟨mem_cons_self, hturn.carry continues_updateAgent, fun _ => toldIn_accepted⟩
      · exact hbefore hentry
    · rw [agents_accept_of_ne ha] at hentry
      exact hbefore hentry
  · exact (h.calls call hcall).carry continues_updateAgent

lemma Grounded.endTurn (h : w.Grounded) : (w.endTurn agentId).Grounded := by
  have hnoted : (w.note (.turnEnded agentId (w.agents agentId).turn)).Grounded :=
    h.note nofun nofun
  refine @Grounded.updateAgent _ agentId (fun session => { session with busy := false }) hnoted
    (Nat.le_refl _) (fun entry hentry => ⟨hnoted.told agentId entry hentry, rfl⟩)
    fun _ k hk => .inr ?_
  obtain rfl := Option.some.inj hk.2
  exact mem_cons_self

/-- A mention is flagged: its notices are lost, and no record that is drained is about it. -/
lemma Grounded.markUndelivered {deliveryId : String} (h : w.Grounded) :
    (w.markUndelivered agentId deliveryId).Grounded := by
  simp only [World.markUndelivered]
  split_ifs with hflags
  · set flagged : World := (({ w with tracker := w.tracker.markUndelivered agentId deliveryId } :
      World).updateAgent agentId (lose deliveryId)).note (.flagged agentId deliveryId)
    have hcont : w.Continues flagged :=
      continues_updateAgent (f := fun session => (lose deliveryId session).told)
    refine ⟨⟨by simp, h.sound⟩, fun entry he => mem_cons_of_mem _ (h.cursor entry he),
      fun a entry hentry => ?_, fun call hcall => (h.calls call hcall).carry hcont,
      fun id t hget hstate => ?_⟩
    · by_cases ha : a = agentId
      · subst ha
        have hself : flagged.agents a = lose deliveryId (w.agents a) := Function.update_self _ _ _
        rw [hself] at hentry
        obtain ⟨e, he, rfl⟩ := mem_map.mp hentry
        obtain ⟨haccepted, hover, hkept⟩ := h.told a e he
        split_ifs with hid
        · exact ⟨hcont.1 haccepted, hover.carry hcont, by simp⟩
        · refine ⟨hcont.1 haccepted, hover.carry hcont, fun hlost => (hkept hlost).cons ?_⟩
          intro heq
          cases heq
          exact hid rfl
      · have hother : flagged.agents a = w.agents a := Function.update_of_ne ha _ _
        rw [hother] at hentry
        obtain ⟨haccepted, hover, hkept⟩ := h.told a entry hentry
        refine ⟨hcont.1 haccepted, hover.carry hcont, fun hlost => (hkept hlost).cons ?_⟩
        intro heq
        cases heq
        exact ha rfl
    · rcases Tracker.get?_of_markUndelivered hget with hsame | ⟨hne, -⟩
      · refine (h.drained id t hsame hstate).cons fun heq => ?_
        have hid : t.message.deliveryId = id := Tracker.deliveryId_of_get? hsame
        obtain ⟨-, rfl⟩ := Happening.flagged.inj heq
        rw [hid] at hflags
        simp [Tracker.flags, hsame, hstate] at hflags
      · exact absurd hstate hne
  · exact h

end World

/-! ### Runs -/

/-- What is settled by a notice that the Agent was told before, is settled by one whose turn is
over and that was not lost. -/
def Heeded (w : World) : Label → Prop
  | .deliver message => w.attends message
  | .turnEnd agentId => (w.endTurn agentId).settles (w.tracker.pending agentId)
  | .reported call => (w.calls[call]?).all fun
    | .settleTurnEnd rest => w.settles rest
    | _ => true
  | _ => True

instance (w : World) : DecidablePred (Heeded w)
  | .deliver _ | .turnEnd _ | .reported _ => inferInstanceAs (Decidable (_ = true))
  | .drop _ _ | .admission _ | .accept _ | .announced _ _ | .markUndelivered _ _ | .redelivery _ _ _
  | .launch _ | .identify _ _ | .turnStart _ | .block _ _ | .notify _ _ | .consume _ _ =>
    isTrue trivial

lemma grounded_start (computerId : String) (cursor : List (String × String)) :
    (World.start computerId cursor).Grounded where
  sound := by
    have hread : ∀ e ∈ cursor.map fun e => Happening.consumed e.1 e.2, ∀ past message,
        e = .acknowledged message → Justified past message := by
      intro e he past message heq
      obtain ⟨entry, -, rfl⟩ := mem_map.mp he
      cases heq
    have hempty : Each (fun past x => ∀ message,
        x = .acknowledged message → Justified past message) [] := trivial
    have hnoted := hempty.append hread
    rw [append_nil] at hnoted
    exact hnoted
  cursor entry hentry := mem_map.mpr ⟨entry, hentry, rfl⟩
  told _ _ hentry := absurd hentry not_mem_nil
  calls _ hcall := absurd hcall not_mem_nil
  drained _ _ hget := (nomatch hget)

/-- One step. -/
theorem grounded_step {w w' : World} {l : Label} (h : w.Grounded) (hok : Heeded w l)
    (hstep : step w l = some w') : w'.Grounded := by
  cases l with
  | deliver message =>
    cases hstep
    have hissued : (w.note (.issued message.deliveryId)).Grounded := h.note_issued
    exact hissued.deliver hok
  | drop message code =>
    cases hstep
    have hissued : (w.note (.issued message.deliveryId)).Grounded := h.note_issued
    simp only [World.dropMention]
    split_ifs with hconsumed
    · exact hissued.drain (World.justified_of_consumed hissued hconsumed)
    · exact hissued.refuse
  | admission message =>
    obtain ⟨code, -, rfl⟩ := Option.map_eq_some_iff.mp hstep
    have hissued : (w.note (.issued message.deliveryId)).Grounded := h.note_issued
    exact hissued.refuse
  | accept call =>
    simp only [step] at hstep
    split at hstep
    next message busy notice hcall =>
      split_ifs at hstep with hgen
      cases hstep
      obtain ⟨-, hturn, -⟩ := h.calls _ (mem_of_getElem? hcall)
      exact h.accept (hturn hgen)
    next => cases hstep
  | announced call outcome =>
    simp only [step] at hstep
    split at hstep
    next message busy notice hcall =>
      split_ifs at hstep with htold
      cases hstep
      obtain ⟨-, -, hidle⟩ := h.calls _ (mem_of_getElem? hcall)
      have hresumed : ({ w with calls := w.calls.eraseIdx call } : World).Grounded := h.resume
      refine hresumed.announced hidle fun houtcome => ?_
      simpa using (htold houtcome).2
    next => cases hstep
  | reported call =>
    have hresumed : ({ w with calls := w.calls.eraseIdx call } : World).Grounded := h.resume
    simp only [step] at hstep
    split at hstep
    next rest hcall =>
      cases hstep
      have hsettles : w.settles rest = true := by simpa [Heeded, hcall] using hok
      exact hresumed.settleTurnEnd hsettles
    next agentId rest accepted hcall =>
      cases hstep
      have hknows := h.calls _ (mem_of_getElem? hcall)
      exact hresumed.settleRedelivery hknows
    next => cases hstep
  | turnEnd agentId =>
    cases hstep
    exact h.endTurn.settleTurnEnd hok
  | markUndelivered agentId ids =>
    cases hstep
    induction ids generalizing w with
    | nil => exact h
    | cons id ids ih => exact ih h.markUndelivered trivial
  | redelivery agentId ids accepted =>
    cases hstep
    have hnoted : ({ w with
        trace := (if accepted then ids.map (Happening.redelivered agentId) else []) ++ w.trace } :
          World).Grounded := by
      refine h.notes fun e he => ?_
      split_ifs at he
      · obtain ⟨id', -, rfl⟩ := mem_map.mp he
        exact ⟨by simp, by simp⟩
      · exact absurd he not_mem_nil
    refine hnoted.settleRedelivery fun haccepted id hid => ?_
    rw [haccepted]
    exact mem_append_left _ (mem_map.mpr ⟨id, hid, rfl⟩)
  | launch agentId =>
    cases hstep
    refine h.updateAgent (Nat.le_succ _) (fun entry hentry => absurd hentry not_mem_nil) ?_
    exact fun hgen => absurd hgen (Nat.succ_ne_self _)
  | identify agentId running | block agentId blocked =>
    cases hstep
    exact h.updateAgent (Nat.le_refl _) (fun entry hentry => ⟨h.told agentId entry hentry, rfl⟩)
      fun _ k hk => .inl hk
  | turnStart agentId =>
    simp only [step] at hstep
    split_ifs at hstep with hbusy
    cases hstep
    refine h.updateAgent (Nat.le_refl _)
      (fun entry hentry => ⟨h.told agentId entry hentry, rfl⟩) ?_
    exact fun _ k hk => absurd hk.1 hbusy
  | notify agentId deliveryId =>
    cases hstep
    refine h.accept fun k hk => .inl ?_
    simp only [Session.inTurn] at hk
    split_ifs at hk with hbusy
    exact ⟨hbusy, hk.symm⟩
  | consume agentId messageId =>
    cases hstep
    have hnoted : (w.note (.consumed agentId messageId)).Grounded :=
      h.note (by simp) (by simp)
    refine ⟨hnoted.sound, fun entry hentry => ?_, hnoted.told, hnoted.calls, hnoted.drained⟩
    rcases mem_cons.mp hentry with rfl | hentry
    · exact mem_cons_self
    · exact hnoted.cursor entry hentry

/-- As long as no mention is settled by a notice whose turn still runs or that was lost, every
acknowledgement rests on what it should. -/
theorem acksSound_of_heeded {computerId : String} {cursor : List (String × String)}
    {ls : List Label} {w : World} (hok : Permitted step Heeded (World.start computerId cursor) ls)
    (hrun : run step (World.start computerId cursor) ls = some w) : AcksSound w.trace :=
  (invariant (fun _ _ _ h hok hstep => grounded_step h hok hstep)
    (grounded_start computerId cursor) hok hrun).acksSound

/-! ### A repeat of a lost mention -/

private def issue (sessionId : String) : TrackedMentionDelivery where
  protocolMajor := 1
  workspaceId := "workspace"
  agentId := "agent"
  deliveryId := "delivery"
  messageId := "message"
  mentionDelivery := ⟨"message", "launch", sessionId, "computer"⟩

private def toldInTurn : List Label :=
  [.identify "agent" (some ⟨"launch", "session"⟩), .turnStart "agent", .deliver (issue "session"),
    .accept 0, .announced 0 .told]

/-- A mention told during a turn is acknowledged when the turn ends. -/
theorem acksSound_of_heeded_turnEnd : ∃ w,
    run step (World.start "computer" []) (toldInTurn ++ [.turnEnd "agent"]) = some w ∧
    .acknowledged (issue "session") ∈ w.trace ∧ AcksSound w.trace := by
  have hok : Permitted step Heeded (World.start "computer" [])
      (toldInTurn ++ [.turnEnd "agent"]) := by
    decide
  exact ⟨_, rfl, by decide, acksSound_of_heeded hok rfl⟩

/-- The notice of a mention is lost, and before it is delivered again the mention is issued for
another session of the process: the idle Agent counts as told. -/
theorem acknowledged_when_lost : ∃ w,
    run step (World.start "computer" []) (toldInTurn ++ [.markUndelivered "agent" ["delivery"],
      .turnEnd "agent", .identify "agent" (some ⟨"launch", "newer"⟩), .deliver (issue "newer")]) =
        some w ∧ ¬ AcksSound w.trace := by
  refine ⟨_, rfl, fun h => ?_⟩
  rcases h [] _ (issue "newer") rfl with hread | hidle | hagain | ⟨turn, htold, -⟩
  · exact absurd hread (by decide)
  · exact absurd hidle (by decide)
  · exact absurd hagain (by decide)
  · have hpast : ToldIn [.transition (issue "newer").scope .daemonDrained .accepted,
        .transition (issue "newer").scope .daemonReceived .accepted, .issued "delivery",
        .turnEnded "agent" 1, .flagged "agent" "delivery",
        .transition (issue "session").scope .daemonPending .accepted,
        .accepted "agent" "delivery" (some 1),
        .transition (issue "session").scope .daemonReceived .accepted, .issued "delivery"]
        "agent" "delivery" (some turn) := htold
    simp [toldIn_cons] at hpast

end Coforge.Mentions
