import Coforge.Mentions.System

/-!
# One settlement for each issue

A mention is settled by an acknowledgement or by a terminal error. The records that are not drained
are those of mentions that are open: not settled since they were issued last. Each operation
settles the mention of such a record, or one that was just issued. Two continuations do not look
at the record again: an announce that rejects, and the loop over what was pending at the end of a
turn.
-/

namespace Coforge.Mentions

open Transition Trace

def Happening.Settles (id : String) : Happening → Prop
  | .acknowledged message => message.deliveryId = id
  | .terminalError scope _ => scope.deliveryId = id
  | _ => False

instance (id : String) : DecidablePred (Happening.Settles id)
  | .acknowledged message => inferInstanceAs (Decidable (message.deliveryId = id))
  | .terminalError scope _ => inferInstanceAs (Decidable (scope.deliveryId = id))
  | .issued _ | .transition _ _ _ | .consumed _ _ | .accepted _ _ _ | .turnEnded _ _
  | .flagged _ _ | .redelivered _ _ => inferInstanceAs (Decidable False)

/-- Between two settlements of a mention it was issued again. -/
def SettledOnce (trace : List Happening) : Prop :=
  ∀ later between past x y id, trace = later ++ x :: (between ++ y :: past) →
    x.Settles id → y.Settles id → .issued id ∈ between

/-- Not settled since it was issued last. -/
def Open (id : String) (trace : List Happening) : Prop :=
  Since (fun x => x = .issued id) (Happening.Settles id) trace

lemma open_issued (id : String) (trace : List Happening) : Open id (.issued id :: trace) :=
  since_cons.mpr ⟨fun h => h, .inl rfl⟩

/-- The records of open mentions, and what was settled so far. -/
structure Settled (T : Tracker) (trace : List Happening) : Prop where
  isOpen : ∀ id t, T.get? id = some t → t.state ≠ .drained → Open id trace
  flagged : ∀ id t, T.get? id = some t → t.undelivered = true → t.state ≠ .drained
  once : Each (fun past x => ∀ id, x.Settles id → Open id past) trace

lemma Settled.settledOnce {T : Tracker} {trace : List Happening} (h : Settled T trace) :
    SettledOnce trace := by
  intro later between past x y id heq hx hy
  obtain ⟨z, hz, rfl⟩ := exists_open_between (h.once.mono fun past x h => h id) heq hx hy
  exact hz

/-- The record is one that is not drained. -/
def Tracker.Holds (T : Tracker) (id : String) : Prop :=
  (T.get? id).any fun tracked => tracked.state ≠ .drained

open Tracker

instance (T : Tracker) (id : String) : Decidable (T.Holds id) :=
  inferInstanceAs (Decidable (_ = true))

/-! ### The parts of the operations -/

section Parts

variable {T : Tracker} {trace : List Happening} {message : TrackedMentionDelivery}
  {state : TrackedState} {event : Happening} {id : String}

lemma Settled.note (h : Settled T trace) (hevent : ∀ id, ¬ event.Settles id) :
    Settled T (event :: trace) where
  isOpen id t hget hstate := (h.isOpen id t hget hstate).cons (hevent id)
  flagged := h.flagged
  once := ⟨fun id hsettles => absurd hsettles (hevent id), h.once⟩

lemma Settled.notes {events : List Happening} (hevents : ∀ e ∈ events, ∀ id, ¬ e.Settles id)
    (h : Settled T trace) : Settled T (events ++ trace) := by
  induction events with
  | nil => exact h
  | cons e events ih =>
    have hrest := ih fun e' he' => hevents e' (List.mem_cons_of_mem e he')
    exact hrest.note (hevents e List.mem_cons_self)

lemma Settled.settle (h : Settled T trace) (hopen : Open id trace)
    (hover : ∀ t, T.get? id = some t → t.state = .drained)
    (hevent : ∀ id', event.Settles id' → id' = id) : Settled T (event :: trace) where
  isOpen id' t hget hstate := by
    refine (h.isOpen id' t hget hstate).cons fun hsettles => ?_
    obtain rfl := hevent id' hsettles
    exact hstate (hover t hget)
  flagged := h.flagged
  once := ⟨fun id' hsettles => hevent id' hsettles ▸ hopen, h.once⟩

lemma Settled.set (h : Settled T trace) (hopen : Open message.deliveryId trace) :
    Settled (T.set message state) trace where
  isOpen id t hget hstate := by
    rcases get?_of_set hget with ⟨rfl, -⟩ | ⟨-, hget⟩
    · exact hopen
    · exact h.isOpen id t hget hstate
  flagged id t hget hflag := by
    rcases get?_of_set hget with ⟨rfl, rfl⟩ | ⟨-, hget⟩
    · simp only [Bool.and_eq_true, bne_iff_ne] at hflag
      exact hflag.2
    · exact h.flagged id t hget hflag
  once := h.once

lemma Settled.forget (h : Settled T trace) : Settled (T.forget id) trace where
  isOpen id t hget := h.isOpen id t (get?_of_forget hget).2
  flagged id t hget := h.flagged id t (get?_of_forget hget).2
  once := h.once

lemma Settled.amend {existing : Tracked} (h : Settled T trace)
    (hget : T.get? message.deliveryId = some existing) :
    Settled (T.amend existing message) trace where
  isOpen id t ht hstate := by
    rw [get?_amend] at ht
    split_ifs at ht with hid
    · subst hid
      cases ht
      exact h.isOpen _ existing hget hstate
    · exact h.isOpen id t ht hstate
  flagged id t ht hflag := by
    rw [get?_amend] at ht
    split_ifs at ht with hid
    · cases ht
      exact h.flagged _ existing hget hflag
    · exact h.flagged id t ht hflag
  once := h.once

lemma Settled.markUndelivered {agentId : String} (h : Settled T trace) :
    Settled (T.markUndelivered agentId id) trace where
  isOpen id' t ht hstate := by
    rcases get?_of_markUndelivered ht with hsame | ⟨-, t', hbefore, rfl⟩
    · exact h.isOpen id' t hsame hstate
    · exact h.isOpen id' t' hbefore hstate
  flagged id' t ht hflag := by
    rcases get?_of_markUndelivered ht with hsame | ⟨hstate, -⟩
    · exact h.flagged id' t hsame hflag
    · exact hstate
  once := h.once

end Parts

namespace World

variable {w : World} {message : TrackedMentionDelivery}

/-- What was settled so far, in the world. -/
abbrev Settled (w : World) : Prop := Mentions.Settled w.tracker w.trace

lemma settled_transition {stage : MentionDeliveryStage}
    {outcome : MentionDeliveryTransitionOutcome} (h : w.Settled) :
    (w.transition message stage outcome).Settled :=
  h.note fun _ => id

lemma settled_set {state : TrackedState} (h : w.Settled)
    (hopen : Open message.deliveryId w.trace) : (w.set message state).Settled :=
  Mentions.Settled.set h hopen

lemma settled_refuse {code : MentionDeliveryTerminalCode} (h : w.Settled)
    (hopen : Open message.deliveryId w.trace) : (w.refuse message code).Settled := by
  refine h.forget.settle hopen (fun t ht => ?_) fun id hid => hid.symm
  exact absurd rfl (get?_of_forget ht).1

lemma settled_markPending (h : w.Settled) (hopen : Open message.deliveryId w.trace) :
    (w.markPending message).Settled :=
  settled_transition (settled_set h hopen)

lemma settled_drain (h : w.Settled) (hopen : Open message.deliveryId w.trace) :
    (w.drain message).Settled := by
  have hevent : ∀ id, (Happening.acknowledged message).Settles id → id = message.deliveryId :=
    fun id hid => hid.symm
  simp only [drain]
  split_ifs with hdrained
  · refine h.settle hopen (fun t ht => ?_) hevent
    simpa [ht] using hdrained
  · have hset : ((w.set message .drained).transition message .daemonDrained .accepted).Settled :=
      settled_transition (settled_set h hopen)
    refine hset.settle (hopen.cons fun h => h) (fun t ht => ?_) hevent
    rcases get?_of_set ht with ⟨-, rfl⟩ | ⟨hne, -⟩
    · rfl
    · exact absurd rfl hne

lemma settled_settleTold (h : w.Settled) (hopen : Open message.deliveryId w.trace) :
    (w.settleTold message).Settled := by
  simp only [settleTold]
  split_ifs
  · exact settled_markPending h hopen
  · exact settled_drain h hopen

lemma settled_tell (h : w.Settled) (hopen : Open message.deliveryId w.trace) :
    (w.tell message).Settled := by
  have hset : ((w.set message .received).transition message .daemonReceived .accepted).Settled :=
    settled_transition (settled_set h hopen)
  have hstill : Open message.deliveryId
      ((w.set message .received).transition message .daemonReceived .accepted).trace :=
    hopen.cons fun h => h
  simp only [tell]
  split_ifs
  · exact settled_settleTold hset hstill
  · split
    · exact settled_refuse hset hstill
    · exact hset

lemma settled_deliver (h : w.Settled) (hopen : Open message.deliveryId w.trace) :
    (w.deliver message).Settled := by
  simp only [deliver]
  split_ifs
  · exact settled_drain h hopen
  · cases (w.agents message.agentId).running with
    | none => exact settled_refuse h hopen
    | some running =>
      simp only
      split_ifs
      · exact settled_refuse h hopen
      · cases hget : w.tracker.get? message.deliveryId with
        | none => exact settled_tell h hopen
        | some existing =>
          simp only
          split_ifs with hother hdrained
          · exact settled_refuse h hopen
          · refine (h.amend hget).settle hopen (fun t ht => ?_) fun id hid => hid.symm
            rw [get?_amend, if_pos rfl] at ht
            cases ht
            exact hdrained
          · exact settled_transition (h.amend hget)
          · exact settled_tell h hopen

lemma open_of_receiving (h : w.Settled) (hrec : w.tracker.receiving message = true) :
    Open message.deliveryId w.trace := by
  cases hget : w.tracker.get? message.deliveryId with
  | none => simp [receiving, hget] at hrec
  | some t =>
    have hstate : t.state = .received := by simpa [receiving, hget] using hrec
    exact h.isOpen _ t hget (by rw [hstate]; exact nofun)

lemma open_of_holds {id : String} (h : w.Settled) (hholds : w.tracker.Holds id) :
    Open id w.trace := by
  cases hget : w.tracker.get? id with
  | none => simp [Tracker.Holds, hget] at hholds
  | some t => exact h.isOpen _ t hget (by simpa [Tracker.Holds, hget] using hholds)

lemma settled_announced {busy : Bool} {outcome : Announced} (h : w.Settled)
    (hrejected : outcome = .rejected → w.tracker.Holds message.deliveryId) :
    (w.announced message busy outcome).Settled := by
  cases outcome with
  | rejected => exact settled_refuse h (open_of_holds h (hrejected rfl))
  | gone =>
    simp only [announced]
    split_ifs with hrec
    · exact h
    · have hopen := open_of_receiving h (by simpa using hrec)
      split
      · exact settled_refuse h hopen
      · exact settled_refuse h hopen
  | told =>
    simp only [announced]
    split_ifs with hrec
    · exact h
    · exact settled_markPending h (open_of_receiving h (by simpa using hrec))
    · exact settled_drain h (open_of_receiving h (by simpa using hrec))

lemma nextSettled_spec {T : Tracker} {ids rest : List String} {t : Tracked}
    (h : nextSettled T ids = some (t, rest)) :
    T.get? t.message.deliveryId = some t ∧ t.undelivered = false := by
  induction ids with
  | nil => cases h
  | cons id ids ih =>
    rw [nextSettled] at h
    cases hget : T.get? id with
    | none =>
      rw [hget] at h
      exact ih h
    | some t' =>
      simp only [hget] at h
      split_ifs at h with hflag
      · exact ih h
      · cases h
        have hid : t.message.deliveryId = id := deliveryId_of_get? hget
        exact ⟨hid ▸ hget, by simpa using hflag⟩

lemma nextRedelivered_spec {T : Tracker} {agentId : String} {ids rest : List String} {t : Tracked}
    (h : nextRedelivered T agentId ids = some (t, rest)) :
    T.get? t.message.deliveryId = some t ∧ t.undelivered = true ∧ t.message.agentId = agentId ∧
      t.message.deliveryId ∈ ids ∧ rest ⊆ ids := by
  induction ids with
  | nil => cases h
  | cons id ids ih =>
    rw [nextRedelivered] at h
    have hrec (h : nextRedelivered T agentId ids = some (t, rest)) :
        T.get? t.message.deliveryId = some t ∧ t.undelivered = true ∧
          t.message.agentId = agentId ∧ t.message.deliveryId ∈ id :: ids ∧ rest ⊆ id :: ids := by
      obtain ⟨hget, hflag, hagent, hmem, hrest⟩ := ih h
      exact ⟨hget, hflag, hagent, List.mem_cons_of_mem _ hmem, List.subset_cons_of_subset _ hrest⟩
    cases hget : T.get? id with
    | none =>
      rw [hget] at h
      exact hrec h
    | some t' =>
      simp only [hget] at h
      split_ifs at h with hcond
      · exact hrec h
      · cases h
        have hid : t.message.deliveryId = id := deliveryId_of_get? hget
        rw [not_or, not_not, Bool.not_eq_true', Bool.not_eq_false] at hcond
        exact ⟨hid ▸ hget, hcond.2, hcond.1, hid ▸ List.mem_cons_self,
          List.subset_cons_self id rest⟩

/-- The mention the end of a turn comes to next is not drained. -/
def Unsettled (w : World) (pending : List String) : Prop :=
  (nextSettled w.tracker pending).all fun next => next.1.state ≠ .drained

instance (w : World) (pending : List String) : Decidable (w.Unsettled pending) :=
  inferInstanceAs (Decidable (_ = true))

lemma settled_settleTurnEnd {pending : List String} (h : w.Settled)
    (hnext : w.Unsettled pending) : (w.settleTurnEnd pending).Settled := by
  simp only [settleTurnEnd]
  cases hfound : nextSettled w.tracker pending with
  | none => exact h
  | some next =>
    obtain ⟨t, rest⟩ := next
    have hstate : t.state ≠ .drained := by simpa [Unsettled, hfound] using hnext
    have hopen := h.isOpen _ t (nextSettled_spec hfound).1 hstate
    simp only
    split_ifs
    · exact settled_drain h hopen
    · exact settled_refuse h hopen

lemma settled_settleRedelivery {agentId : String} {ids : List String} {accepted : Bool}
    (h : w.Settled) : (w.settleRedelivery agentId ids accepted).Settled := by
  simp only [settleRedelivery]
  cases hfound : nextRedelivered w.tracker agentId ids with
  | none => exact h
  | some next =>
    obtain ⟨t, rest⟩ := next
    obtain ⟨hget, hflag, -⟩ := nextRedelivered_spec hfound
    have hopen := h.isOpen _ t hget (h.flagged _ t hget hflag)
    simp only
    split_ifs
    · exact settled_drain h hopen
    · exact settled_refuse h hopen

lemma settled_markUndelivered {agentId deliveryId : String} (h : w.Settled) :
    (w.markUndelivered agentId deliveryId).Settled := by
  simp only [World.markUndelivered]
  split_ifs
  · exact (Mentions.Settled.markUndelivered h).note fun _ => id
  · exact h

end World

/-! ### Runs -/

/-- What a call captured is still there: the record is not drained. -/
def World.finds (w : World) : Waiting → Bool
  | .deliver message _ _    => w.tracker.Holds message.deliveryId
  | .settleTurnEnd rest     => w.Unsettled rest
  | .settleRedelivery _ _ _ => true

/-- A rejection finds a record that is not drained, and the end of a turn does not come to a
mention that was drained meanwhile. -/
def Rechecked (w : World) : Label → Prop
  | .announced call .rejected | .reported call => (w.calls[call]?).all w.finds
  | .turnEnd agentId => (w.endTurn agentId).Unsettled (w.tracker.pending agentId)
  | _ => True

instance (w : World) : DecidablePred (Rechecked w)
  | .announced _ .rejected | .reported _ => inferInstanceAs (Decidable (_ = true))
  | .turnEnd agentId =>
    inferInstanceAs (Decidable ((w.endTurn agentId).Unsettled (w.tracker.pending agentId)))
  | .announced _ .told | .announced _ .gone | .deliver _ | .drop _ _ | .admission _ | .accept _
  | .markUndelivered _ _ | .redelivery _ _ _ | .launch _ | .identify _ _ | .turnStart _
  | .block _ _ | .notify _ _ | .consume _ _ => isTrue trivial

lemma settled_start (computerId : String) (cursor : List (String × String)) :
    (World.start computerId cursor).Settled where
  isOpen _ _ hget := (nomatch hget)
  flagged _ _ hget := (nomatch hget)
  once := by
    have hempty : Settled .empty [] := ⟨nofun, nofun, trivial⟩
    have hread : ∀ e ∈ cursor.map fun e => Happening.consumed e.1 e.2, ∀ id, ¬ e.Settles id := by
      intro e he id
      obtain ⟨entry, -, rfl⟩ := List.mem_map.mp he
      exact fun h => h
    have hnoted := (hempty.notes hread).once
    rw [List.append_nil] at hnoted
    exact hnoted

/-- One step. -/
theorem settled_step {w w' : World} {l : Label} (h : w.Settled) (hok : Rechecked w l)
    (hstep : step w l = some w') : w'.Settled := by
  cases l with
  | deliver message =>
    cases hstep
    exact World.settled_deliver (h.note fun _ => id) (open_issued _ _)
  | drop message code =>
    cases hstep
    have hissued : (w.note (.issued message.deliveryId)).Settled := h.note fun _ => id
    simp only [World.dropMention]
    split_ifs
    · exact World.settled_drain hissued (open_issued _ _)
    · exact World.settled_refuse hissued (open_issued _ _)
  | admission message =>
    obtain ⟨code, -, rfl⟩ := Option.map_eq_some_iff.mp hstep
    exact World.settled_refuse (w := w.note _) (h.note fun _ => id) (open_issued _ _)
  | accept call =>
    simp only [step] at hstep
    split at hstep
    · split_ifs at hstep
      cases hstep
      exact h.note fun _ => id
    · cases hstep
  | announced call outcome =>
    simp only [step] at hstep
    split at hstep
    next message busy notice hcall =>
      split_ifs at hstep
      cases hstep
      refine World.settled_announced (w := { w with calls := w.calls.eraseIdx call }) h ?_
      rintro rfl
      simpa [Rechecked, hcall, World.finds] using hok
    next => cases hstep
  | reported call =>
    simp only [step] at hstep
    split at hstep
    next rest hcall =>
      cases hstep
      have hnext : w.Unsettled rest := by simpa [Rechecked, hcall, World.finds] using hok
      exact World.settled_settleTurnEnd (w := { w with calls := w.calls.eraseIdx call }) h hnext
    next =>
      cases hstep
      exact World.settled_settleRedelivery (w := { w with calls := w.calls.eraseIdx call }) h
    next => cases hstep
  | turnEnd agentId =>
    cases hstep
    exact World.settled_settleTurnEnd (w := w.endTurn agentId) (h.note fun _ => id) hok
  | markUndelivered agentId ids =>
    cases hstep
    induction ids generalizing w with
    | nil => exact h
    | cons id ids ih => exact ih (World.settled_markUndelivered h) trivial
  | redelivery agentId ids accepted =>
    cases hstep
    have hnoted : ({ w with
        trace := (if accepted then ids.map (Happening.redelivered agentId) else []) ++ w.trace } :
          World).Settled := by
      refine Settled.notes (fun e he id => ?_) h
      split_ifs at he
      · obtain ⟨id', -, rfl⟩ := List.mem_map.mp he
        exact fun h => h
      · exact absurd he List.not_mem_nil
    exact World.settled_settleRedelivery hnoted
  | turnStart agentId =>
    simp only [step] at hstep
    split_ifs at hstep
    cases hstep
    exact h
  | launch agentId | identify agentId running | block agentId blocked =>
    cases hstep
    exact h
  | notify agentId deliveryId | consume agentId messageId =>
    cases hstep
    exact h.note fun _ => id

/-- As long as the two continuations find what they captured, each issue is settled once. -/
theorem settledOnce_of_rechecked {computerId : String} {cursor : List (String × String)}
    {ls : List Label} {w : World}
    (hok : Permitted step Rechecked (World.start computerId cursor) ls)
    (hrun : run step (World.start computerId cursor) ls = some w) : SettledOnce w.trace :=
  (invariant (fun _ _ _ h hok hstep => settled_step h hok hstep)
    (settled_start computerId cursor) hok hrun).settledOnce

/-! ### A rejection after the redelivery -/

private def mention : TrackedMentionDelivery where
  protocolMajor := 1
  workspaceId := "workspace"
  agentId := "agent"
  deliveryId := "delivery"
  messageId := "message"
  mentionDelivery := ⟨"message", "launch", "session", "computer"⟩

private def redelivered : List Label :=
  [.identify "agent" (some ⟨"launch", "session"⟩), .deliver mention, .accept 0,
    .markUndelivered "agent" ["delivery"], .redelivery "agent" ["delivery"] true,
    .announced 0 .told]

/-- A mention whose notice is delivered again. -/
theorem settledOnce_of_rechecked_redelivered : ∃ w,
    run step (World.start "computer" []) redelivered = some w ∧ SettledOnce w.trace := by
  have hok : Permitted step Rechecked (World.start "computer" []) redelivered := by
    decide
  exact ⟨_, rfl, settledOnce_of_rechecked hok rfl⟩

/-- The redelivery of a notice is accepted, and the announce that still waits rejects: the mention
is acknowledged and then refused. -/
theorem refused_after_acknowledged : ∃ w,
    run step (World.start "computer" []) [.identify "agent" (some ⟨"launch", "session"⟩),
      .deliver mention, .markUndelivered "agent" ["delivery"],
      .redelivery "agent" ["delivery"] true, .announced 0 .rejected] = some w ∧
    ¬ SettledOnce w.trace := by
  refine ⟨_, rfl, fun h => ?_⟩
  have hissued := h [] [] _ (.terminalError mention.scope .deliveryRejected)
    (.acknowledged mention) "delivery" rfl rfl rfl
  exact List.not_mem_nil hissued

end Coforge.Mentions
