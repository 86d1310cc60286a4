import Coforge.ServerControl.Chain

/-!
# What the row is known to hold

The invariant of the shared state, and that the writes of the two repositories keep it. The part
about sessions is about resets: once the Start of a reset is due, the current session is a new one,
and the native id it gets later comes from the daemon's answers to that Start, or was drawn or
selected for it.
-/

namespace Coforge.ServerControl

open Option
open Control (SessionIdentity AgentControlScope AgentControlResult AgentSessionSnapshot ResultPhase
  truthy)

/-- The reset actions. -/
def AgentControlAction.isReset : AgentControlAction → Bool
  | .resetSession | .fullReset => true
  | _ => false

/-- Where the session id of a Start comes from, other than from the session before it. -/
inductive Sourced (past : List Happening) (requestId : String) (epoch : Nat)
    (sessionId : String) : Prop where
  | drawn (h : .drew requestId (some epoch) sessionId ∈ past)
  | subject (h : .subject requestId sessionId ∈ past)
  | reported (h : .reported requestId (some epoch) sessionId ∈ past)
  | result (r : AgentControlResult) (before after : ControlState)
      (h : .wrote (.result r) (some before) after ∈ past) (hphase : before.phase = .starting)
      (hrequest : r.requestId = requestId) (hepoch : r.epoch = epoch)
      (hid : r.identity.map (·.sessionId) = some sessionId)
  | snapshot (x : AgentSessionSnapshot) (before : Option ControlState) (after : ControlState)
      (h : .wrote (.snapshot x) before after ∈ past) (hrequest : x.requestId = requestId)
      (hepoch : x.epoch = epoch) (hid : x.identity.sessionId = sessionId)

/-- A new session of the Start of a reset. -/
def SourcedFor (past : List Happening) (c : ControlState) (sessionId : String) : Prop :=
  c.action.isReset → Sourced past c.requestId c.epoch sessionId

/-- An operation that a call has read. -/
structure Known (past : List Happening) (state : AgentControlState) : Prop where
  earned : Earned past state.toControlState
  session : state.phase.launches → ∀ i ∈ state.identity,
    SourcedFor past state.toControlState i.sessionId

def KnownAgent (past : List Happening) (agent : AgentControlAgent) : Prop :=
  ∀ state ∈ agent.state, Known past state

/-- A published Start is that of its operation. For a reset it comes after what the reset waits
for, and it brings no session but a new one. -/
structure StartKnown (past : List Happening) (state : ControlState) (intent : AgentStartIntent) :
    Prop where
  earned : Earned past state
  launches : state.action.isReset → state.phase.launches
  requestId : intent.requestId = state.requestId
  epoch : intent.controlEpoch = some state.epoch
  session : ∀ sessionId ∈ intent.sessionId, SourcedFor past state sessionId

/-- A view that says an operation is completed is of an operation that is. -/
def ViewKnown (past : List Happening) (v : AgentControlView) : Prop :=
  v.phase = .completed → ∃ c : ControlState, c.requestId = v.requestId ∧ c.action = v.action ∧
    c.phase = .completed ∧ Earned past c

structure Inv (s : Server) : Prop where
  fenced : Fenced s.trace
  last : s.row.controlState = lastWritten s.trace
  earned : ∀ c ∈ s.row.controlState, Earned s.trace c
  session : ∀ c ∈ s.row.controlState, c.phase.launches → ∀ sessionId ∈ s.row.nativeSessionId,
    SourcedFor s.trace c sessionId
  published : Trace.Each (fun past event => ∀ state intent,
    event = .published state (.start intent) → StartKnown past state intent) s.trace
  viewed : Trace.Each (fun past event => ∀ v, event = .viewed v → ViewKnown past v) s.trace

section Past

variable {past : List Happening} {event : Happening}

variable {sessionId : String}

lemma Sourced.cons {requestId : String} {epoch : Nat} (h : Sourced past requestId epoch sessionId) :
    Sourced (event :: past) requestId epoch sessionId := by
  cases h with
  | drawn h => exact .drawn (List.mem_cons_of_mem _ h)
  | subject h => exact .subject (List.mem_cons_of_mem _ h)
  | reported h => exact .reported (List.mem_cons_of_mem _ h)
  | result r before after h hphase hrequest hepoch hid =>
    exact .result r before after (List.mem_cons_of_mem _ h) hphase hrequest hepoch hid
  | snapshot x before after h hrequest hepoch hid =>
    exact .snapshot x before after (List.mem_cons_of_mem _ h) hrequest hepoch hid

lemma SourcedFor.cons {c : ControlState} (h : SourcedFor past c sessionId) :
    SourcedFor (event :: past) c sessionId := fun hreset => (h hreset).cons

lemma SourcedFor.same {c d : ControlState} (h : SourcedFor past c sessionId)
    (hsame : SameOperation c d) : SourcedFor past d sessionId := by
  intro hreset
  rw [hsame.requestId, hsame.epoch]
  exact h (hsame.action ▸ hreset)

lemma Known.cons {state : AgentControlState} (h : Known past state) : Known (event :: past) state :=
  ⟨h.earned.cons, fun hlaunches i hi => (h.session hlaunches i hi).cons⟩

lemma KnownAgent.cons {agent : AgentControlAgent} (h : KnownAgent past agent) :
    KnownAgent (event :: past) agent := fun state hstate => (h state hstate).cons

end Past

/-! ### Writes that follow from what was read -/

/-- The write is what its cause makes of what its caller had read. -/
def Write.Legit [Digest] (w : Write) : Prop :=
  match w.cause with
  | .begin => w.clearSession = false ∧ ∃ action requestId launchId,
      w.state = begun w.before action requestId launchId ∧
        (∀ old ∈ w.before.state, old.requestId ≠ requestId) ∧
        ((∃ id ∈ launchId, id ≠ "") ↔ action = .start)
  | .result r => w.clearSession = false ∧ ∃ state ∈ w.before.state,
      sameScope state.toAgentControlScope r.toAgentControlScope ∧
        applyResult state r = .ok (some w.state)
  | .advance => ∃ state ∈ w.before.state, ∃ completed ∈ completedStep state.phase, ∃ launchId,
      ((∃ id ∈ launchId, id ≠ "") ↔ (nextStep state.action completed).2 = some .start) ∧
        w.clearSession = (nextStep state.action completed).1 ∧
        w.state = advanced state (nextStep state.action completed).1
          (nextStep state.action completed).2 launchId
  | .snapshot x => w.clearSession = false ∧ ∃ state ∈ w.before.state,
      sameScope state.toAgentControlScope x.toAgentControlScope ∧
        applySnapshot state x = .ok (some w.state)
  | .invalidate => w.clearSession = true ∧ ∃ state ∈ w.before.state,
      w.state = { state with identity := none }
  | .launchId => False

/-- The decisions of `applyResult` that lead to a write. -/
lemma applyResult_some {state next : AgentControlState} {r : AgentControlResult}
    (h : applyResult state r = .ok (some next)) : state.controlSequence < r.sequence ∧
      (∀ command ∈ commandFor r.phase, state.phase = command.pending) ∧
      (r.phase = .started → state.launchId = r.launchId ∧ (truthy r.launchId).isSome) ∧
      ¬ terminal state.toControlState ∧ next = resulted state r := by
  unfold applyResult at h
  split_ifs at h with hsequence hcommand hlaunch hterminal hreset hchanged
  · cases h
  · cases h
    refine ⟨Nat.not_le.mp hsequence, fun command hc => ?_, fun hstarted => ?_, hterminal, rfl⟩
    · by_contra hne
      exact hcommand ⟨command, hc, hne⟩
    · simp only [hstarted, true_and, not_or, not_not] at hlaunch
      exact ⟨hlaunch.2, isSome_iff_ne_none.mpr hlaunch.1⟩

lemma applySnapshot_some {state next : AgentControlState} {x : AgentSessionSnapshot}
    (h : applySnapshot state x = .ok (some next)) :
    Stays state.toControlState next.toControlState ∧ next.identity = some x.identity := by
  simp only [applySnapshot] at h
  split_ifs at h
  · cases h
  · cases h
    exact ⟨⟨⟨rfl, rfl⟩, rfl, rfl, rfl⟩, rfl⟩

/-- The phase after a result. -/
abbrev takenPhase (phase : ResultPhase) : ControlPhase :=
  ((commandFor phase).map (·.completed)).getD .failed

/-- The phase after a completed step. -/
abbrev advancedPhase (action : AgentControlAction) (step : AgentControlStep) : ControlPhase :=
  (((nextStep action step).2.bind commands).map (·.pending)).getD .completed

variable {action : AgentControlAction} {p : ControlPhase}

lemma forward_result {phase : ResultPhase}
    (hvalid : p = .failed ∨ p ∈ path action) (hterminal : ¬ (p = .completed ∨ p = .failed))
    (hcommand : ∀ command ∈ commandFor phase, p = command.pending) :
    Forward action p (takenPhase phase) := by
  revert hvalid hterminal hcommand
  cases action <;> cases p <;> cases phase <;> decide

lemma forward_advance {step : AgentControlStep}
    (hvalid : p = .failed ∨ p ∈ path action) (hstep : step ∈ completedStep p) :
    Forward action p (advancedPhase action step) ∧
      (advancedPhase action step = .starting ↔ (nextStep action step).2 = some .start) := by
  revert hvalid hstep
  cases action <;> cases p <;> cases step <;> decide

lemma clears_reset {step : AgentControlStep}
    (hreset : action.isReset) (hstep : step ∈ completedStep p)
    (hlaunches : (advancedPhase action step).launches) : (nextStep action step).1 = true := by
  revert hreset hstep hlaunches
  cases action <;> cases p <;> cases step <;> decide

/-- The result that an operation in a launching phase has just taken answers its Start. -/
lemma starting_of_result {phase : ResultPhase}
    (hcommand : ∀ command ∈ commandFor phase, p = command.pending)
    (hlaunches : (takenPhase phase).launches) : p = .starting := by
  revert hcommand hlaunches
  cases p <;> cases phase <;> decide

section Legit

variable [Digest] {w : Write} {past : List Happening}

lemma Write.Legit.move (h : w.Legit) (hknown : KnownAgent past w.before) :
    Move w.cause (w.before.state.map (·.toControlState)) w.state.toControlState := by
  cases hcause : w.cause with
  | begin =>
    rw [Write.Legit, hcause] at h
    obtain ⟨-, action, requestId, launchId, heq, hrequest, hlaunch⟩ := h
    rw [heq]
    refine ⟨?_, ?_, rfl, hlaunch, rfl⟩
    · cases hstate : w.before.state with
      | none => simp [begun, hstate]
      | some old => simp [begun, hstate]
    · intro c hc
      obtain ⟨old, hold, rfl⟩ := map_eq_some_iff.mp hc
      exact hrequest old hold
  | result r =>
    rw [Write.Legit, hcause] at h
    obtain ⟨-, state, hstate, hscope, happly⟩ := h
    obtain ⟨hsequence, hcommand, hstarted, hterminal, heq⟩ := applyResult_some happly
    have hvalid := (hknown state hstate).earned.valid
    rw [hstate, heq]
    refine ⟨⟨rfl, rfl⟩, hscope, hsequence, rfl, rfl, forward_result hvalid hterminal hcommand, ?_,
      fun hp => ⟨(hstarted hp).1.symm, (hstarted hp).2⟩⟩
    cases hfor : commandFor r.phase with
    | none => exact .inl (by simp [resulted, hfor])
    | some command =>
      exact .inr ⟨command, rfl, hcommand command hfor, by simp [resulted, hfor]⟩
  | advance =>
    rw [Write.Legit, hcause] at h
    obtain ⟨state, hstate, completed, hcompleted, launchId, hlaunch, -, heq⟩ := h
    have hvalid := (hknown state hstate).earned.valid
    obtain ⟨hforward, hstart⟩ := forward_advance hvalid hcompleted
    rw [hstate, heq]
    refine ⟨⟨rfl, rfl⟩, isSome_iff_exists.mpr ⟨completed, hcompleted⟩, rfl, hforward, ?_,
      hlaunch.trans hstart.symm⟩
    simp only [advanced]
    cases (nextStep state.action completed).2 with
    | none => nofun
    | some step => cases step <;> nofun
  | snapshot x =>
    rw [Write.Legit, hcause] at h
    obtain ⟨-, state, hstate, -, happly⟩ := h
    rw [hstate]
    exact (applySnapshot_some happly).1
  | invalidate =>
    rw [Write.Legit, hcause] at h
    obtain ⟨-, state, hstate, heq⟩ := h
    rw [hstate, heq]
    exact ⟨⟨rfl, rfl⟩, rfl, rfl, rfl⟩
  | launchId =>
    rw [Write.Legit, hcause] at h
    exact h.elim

lemma Write.Legit.known (h : w.Legit) (hknown : KnownAgent past w.before) :
    Known (.wrote w.cause (w.before.state.map (·.toControlState)) w.state.toControlState :: past)
      w.state where
  earned := by
    refine (h.move hknown).earned fun c hc => ?_
    obtain ⟨old, hold, rfl⟩ := map_eq_some_iff.mp hc
    exact (hknown old hold).earned
  session := by
    intro hlaunches i hi hreset
    cases hcause : w.cause with
    | begin =>
      rw [Write.Legit, hcause] at h
      obtain ⟨-, action, requestId, launchId, heq, -, -⟩ := h
      rw [heq] at hlaunches hreset
      revert hlaunches hreset
      cases action <;> nofun
    | result r =>
      rw [Write.Legit, hcause] at h
      obtain ⟨-, state, hstate, hscope, happly⟩ := h
      obtain ⟨-, hcommand, -, -, heq⟩ := applyResult_some happly
      rw [heq] at hlaunches hi hreset ⊢
      have hstarting : state.phase = .starting :=
        starting_of_result hcommand hlaunches
      have hold : ∀ i ∈ state.identity, SourcedFor past state.toControlState i.sessionId :=
        (hknown state hstate).session (by rw [hstarting]; rfl)
      obtain ⟨-, -, -, -, hepoch, hrequest⟩ := hscope
      have hcases : i ∈ state.identity ∨ i ∈ r.identity := by
        simp only [resulted] at hi
        split_ifs at hi with hlate
        · exact .inl hi
        · cases hr : r.identity with
          | none => exact .inl (by simpa [hr] using hi)
          | some i' => exact .inr (by simpa [hr] using hi)
      rcases hcases with hi | hi
      · exact (hold i hi hreset).cons
      · rw [hstate]
        refine .result r state.toControlState _ List.mem_cons_self hstarting hrequest.symm
          hepoch.symm ?_
        rw [hi]
        rfl
    | advance =>
      rw [Write.Legit, hcause] at h
      obtain ⟨state, -, completed, hcompleted, launchId, -, -, heq⟩ := h
      rw [heq] at hlaunches hi hreset
      have hclear : (nextStep state.action completed).1 = true :=
        clears_reset hreset hcompleted hlaunches
      simp [advanced, hclear] at hi
    | snapshot x =>
      rw [Write.Legit, hcause] at h
      obtain ⟨-, state, hstate, hscope, happly⟩ := h
      obtain ⟨hstays, hidentity⟩ := applySnapshot_some happly
      obtain ⟨-, -, -, -, hepoch, hrequest⟩ := hscope
      obtain rfl : x.identity = i := by simpa [hidentity] using hi
      refine .snapshot x _ _ List.mem_cons_self ?_ ?_ rfl
      · exact hrequest.symm.trans hstays.same.requestId.symm
      · exact hepoch.symm.trans hstays.same.epoch.symm
    | invalidate =>
      rw [Write.Legit, hcause] at h
      obtain ⟨-, state, -, heq⟩ := h
      rw [heq] at hi
      cases hi
    | launchId =>
      rw [Write.Legit, hcause] at h
      exact h.elim

lemma Write.Legit.kept (h : w.Legit) (hclear : w.clearSession = false)
    (hlaunches : w.state.phase.launches) (hreset : w.state.action.isReset) :
    ∃ old ∈ w.before.state, old.phase.launches ∧
      SameOperation old.toControlState w.state.toControlState := by
  cases hcause : w.cause with
  | begin =>
    rw [Write.Legit, hcause] at h
    obtain ⟨-, action, requestId, launchId, heq, -, -⟩ := h
    rw [heq] at hlaunches hreset
    revert hlaunches hreset
    cases action <;> nofun
  | result r =>
    rw [Write.Legit, hcause] at h
    obtain ⟨-, state, hstate, -, happly⟩ := h
    obtain ⟨-, hcommand, -, -, heq⟩ := applyResult_some happly
    rw [heq] at hlaunches ⊢
    refine ⟨state, hstate, ?_, rfl, rfl⟩
    rw [starting_of_result hcommand hlaunches]
    rfl
  | advance =>
    rw [Write.Legit, hcause] at h
    obtain ⟨state, -, completed, hcompleted, launchId, -, hcleared, heq⟩ := h
    rw [heq] at hlaunches hreset
    have hdropped : (nextStep state.action completed).1 = true :=
      clears_reset hreset hcompleted hlaunches
    rw [hcleared, hdropped] at hclear
    cases hclear
  | snapshot x =>
    rw [Write.Legit, hcause] at h
    obtain ⟨-, state, hstate, -, happly⟩ := h
    obtain ⟨hstays, -⟩ := applySnapshot_some happly
    exact ⟨state, hstate, hstays.phase ▸ hlaunches, hstays.same⟩
  | invalidate =>
    rw [Write.Legit, hcause] at h
    rw [h.1] at hclear
    cases hclear
  | launchId =>
    rw [Write.Legit, hcause] at h
    exact h.elim

end Legit

/-! ### Writes of operations -/

namespace Agent

variable {row row' : Agent} {fresh : Nat} {before : AgentControlAgent} {state : AgentControlState}
  {clearSession : Bool} {stoppedAt : Option (Option Nat)}

lemma sessionFor_native {session : AgentSession} {sessionId : String}
    (h : row.sessionFor fresh before state clearSession = some session)
    (hid : session.nativeSessionId = some sessionId) :
    clearSession = false ∧ row.nativeSessionId = some sessionId := by
  simp only [sessionFor] at h
  split at h
  next old hold =>
    cases h
    split_ifs at hold with hdropped
    obtain ⟨hkept, -⟩ := not_or.mp hdropped
    exact ⟨Bool.not_eq_true _ ▸ hkept, by simp [nativeSessionId, hold, hid]⟩
  next hnone =>
    split_ifs at h
    cases h
    cases hid

lemma bindIdentity_native {session bound : AgentSession} {identity : SessionIdentity}
    (h : bindIdentity session fresh before state identity = some bound) :
    bound.nativeSessionId = some identity.sessionId := by
  unfold bindIdentity at h
  split_ifs at h
  · cases h
    rfl
  · cases h
    rfl

/-- A write changes the row only if the row was as its caller had read it. The native session is
then the one that was written, or the one there was. -/
lemma replace_some (h : row.replace fresh before state clearSession stoppedAt = .ok (some row')) :
    row.controlState = before.state.map (·.toControlState) ∧
      row'.controlState = some state.toControlState ∧
      ∀ sessionId ∈ row'.nativeSessionId, state.identity.map (·.sessionId) = some sessionId ∨
        (clearSession = false ∧ sessionId ∈ row.nativeSessionId) := by
  have hstorable : storable state := by
    by_contra hno
    simp [replace, hno] at h
  have hunchanged : row.unchanged before := by
    by_contra hno
    simp [replace, hstorable, hno] at h
  simp only [replace, hstorable, hunchanged, not_true_eq_false, if_false] at h
  refine ⟨hunchanged.2.2.2.2.2.2.2.2, ?_⟩
  split at h
  · next session identity hsession hidentity =>
    split at h
    · next bound hbound =>
      cases h
      refine ⟨rfl, fun sessionId hid => .inl ?_⟩
      rw [hidentity]
      exact (bindIdentity_native hbound).symm.trans hid
    · cases h
  · next session identity hsession =>
    cases h
    refine ⟨rfl, fun sessionId hid => .inr ?_⟩
    obtain ⟨kept, hkept, hnative⟩ := bind_eq_some_iff.mp hid
    exact sessionFor_native hkept hnative

lemma identity_native {computerId : String} {i : SessionIdentity}
    (h : row.identity computerId = some i) : row.nativeSessionId = some i.sessionId := by
  simp only [identity] at h
  split at h
  · next session sessionId hsession hnative =>
    split_ifs at h
    cases h
    exact (filter_eq_some_iff.mp hnative).1
  · cases h

end Agent

section Inv

variable {s t : Server}

lemma Inv.get (h : Inv s) {agent : AgentControlAgent} (hget : s.row.get = some agent) :
    KnownAgent s.trace agent := by
  intro state hstate
  unfold Agent.get at hget
  split at hget
  · cases hget
  next computerId hcomputer =>
    split_ifs at hget
    cases hget
    obtain ⟨control, hcontrol, rfl⟩ := map_eq_some_iff.mp hstate
    refine ⟨h.earned control hcontrol, fun hlaunches i hi => ?_⟩
    exact h.session control hcontrol hlaunches i.sessionId (Agent.identity_native hi)

lemma Inv.note (h : Inv s) {event : Happening}
    (hwrote : ∀ cause before after, event ≠ .wrote cause before after)
    (hpublished : ∀ state intent, event = .published state (.start intent) →
      StartKnown s.trace state intent)
    (hviewed : ∀ v, event = .viewed v → ViewKnown s.trace v) : Inv (s.note event) where
  fenced := ⟨fun cause before after heq => absurd heq (hwrote cause before after), h.fenced⟩
  last := by
    rw [Server.note, h.last]
    cases event with
    | wrote cause before after => exact absurd rfl (hwrote cause before after)
    | drew | subject | reported | published | viewed => rfl
  earned c hc := (h.earned c hc).cons
  session c hc hlaunches id hid := (h.session c hc hlaunches id hid).cons
  published := ⟨hpublished, h.published⟩
  viewed := ⟨hviewed, h.viewed⟩

lemma Inv.of_row (h : Inv s) (hcontrol : t.row.controlState = s.row.controlState)
    (hnative : t.row.nativeSessionId = s.row.nativeSessionId) (ht : t.trace = s.trace) : Inv t where
  fenced := ht ▸ h.fenced
  last := by rw [ht, hcontrol, h.last]
  earned c hc := ht ▸ h.earned c (hcontrol ▸ hc)
  session c hc hlaunches id hid :=
    ht ▸ h.session c (hcontrol ▸ hc) hlaunches id (hnative ▸ hid)
  published := ht ▸ h.published
  viewed := ht ▸ h.viewed

/-- A write of an operation keeps the invariant. If it was made, the operation is known. -/
theorem Inv.replace [Digest] {w : Write} {r : Except ControlFailure Bool} (h : Inv s)
    (hlegit : w.Legit) (hknown : KnownAgent s.trace w.before) (heq : s.replace w = (r, t)) :
    Inv t ∧ s.trace <:+ t.trace ∧ (r = .ok true → Known t.trace w.state) := by
  unfold Server.replace at heq
  split at heq
  · cases heq
    exact ⟨h, List.suffix_refl _, nofun⟩
  · cases heq
    exact ⟨h, List.suffix_refl _, nofun⟩
  next row hrow =>
    obtain ⟨-, rfl⟩ := Prod.mk.inj heq
    obtain ⟨hbefore, hafter, hnative⟩ := Agent.replace_some hrow
    have hmove := hlegit.move hknown
    have hwritten := hlegit.known hknown
    rw [← hbefore] at hmove hwritten
    refine ⟨⟨⟨?_, h.fenced⟩, hafter, ?_, ?_, ⟨?_, h.published⟩, ⟨?_, h.viewed⟩⟩,
      List.suffix_cons _ _, fun _ => hwritten⟩
    · intro cause before after hevent
      obtain ⟨rfl, rfl, rfl⟩ := Happening.wrote.inj hevent
      exact ⟨h.last, hmove⟩
    · intro c hc
      have heq : w.state.toControlState = c := some.inj (hafter.symm.trans hc)
      exact heq ▸ hwritten.earned
    · intro c hc hlaunches id hid
      have heq : w.state.toControlState = c := some.inj (hafter.symm.trans hc)
      subst heq
      rcases hnative id hid with hidentity | ⟨hkept, hold⟩
      · obtain ⟨i, hi, rfl⟩ := map_eq_some_iff.mp hidentity
        exact hwritten.session hlaunches i hi
      · intro hreset
        obtain ⟨old, hstate, holdLaunches, hsame⟩ := hlegit.kept hkept hlaunches hreset
        have hcontrol : s.row.controlState = some old.toControlState := by rw [hbefore, hstate]; rfl
        exact ((h.session _ hcontrol holdLaunches id hold).same hsame).cons hreset
    · intro state intent hevent
      exact Happening.noConfusion hevent
    · intro v hevent
      exact Happening.noConfusion hevent

end Inv

/-! ### Writes of launch fences -/

/-- A session id that may be brought to the launch of a scope. -/
def OriginFor (past : List Happening) (scope : AgentSessionWriteScope) (sessionId : String) :
    Prop :=
  ∃ c : ControlState, Written past c ∧ scope.requestId = c.requestId ∧
    scope.controlEpoch = some c.epoch ∧ SourcedFor past c sessionId

/-- The session id that a fence brings is the daemon's, the one there was, or one with an origin
for the launch. -/
def FenceWrite.Legit (past : List Happening) (w : FenceWrite) : Prop :=
  w.reports = true ∨ ∀ sessionId ∈ w.next.sessionId,
    (∃ p ∈ w.previous, p.sessionId = some sessionId) ∨ OriginFor past w.scope sessionId

namespace Agent

variable {row row' : Agent} {fresh : Nat} {previous : Option RuntimeSessionReference}
  {next : RuntimeSessionReference} {scope : AgentSessionWriteScope}

lemma sessionOf_native {session : AgentSession} {sessionId : String}
    (h : row.sessionOf fresh next = some session) (hid : session.nativeSessionId = some sessionId) :
    next.sessionId = some sessionId ∨ row.nativeSessionId = some sessionId := by
  simp only [sessionOf] at h
  split at h
  · cases h
    exact .inl hid
  next old hold =>
    split_ifs at h
    · cases h
      exact .inl hid
    · split at h
      next new hnew =>
        cases h
        exact .inl ((filter_eq_some_iff.mp hnew).1.trans hid)
      · cases h
        exact .inr (by rw [nativeSessionId, hold]; exact hid)

/-- A fence is written only for the launch that is current, over the session its caller read. -/
lemma replaceSession_some (h : row.replaceSession fresh previous next scope = some row') :
    row.admits scope ∧ row'.controlState = row.controlState ∧
      (∀ p ∈ previous, ∀ sessionId ∈ p.sessionId, sessionId ∈ row.nativeSessionId) ∧
      ∀ sessionId ∈ row'.nativeSessionId,
        next.sessionId = some sessionId ∨ sessionId ∈ row.nativeSessionId := by
  unfold replaceSession at h
  split_ifs at h with hok
  cases h
  obtain ⟨hadmits, hprevious, -⟩ := hok
  refine ⟨hadmits, rfl, fun p hp sessionId hid => ?_, fun sessionId hid => ?_⟩
  · obtain ⟨session, hsession, hnative, -⟩ := hprevious p hp
    have hrow : row.currentSession = some session := hsession
    rw [nativeSessionId, hrow]
    exact hnative.trans hid
  · obtain ⟨session, hsession, hnative⟩ := bind_eq_some_iff.mp hid
    exact sessionOf_native hsession hnative

lemma admits_some {c : ControlState} (h : row.admits scope) (hc : row.controlState = some c) :
    c.requestId = scope.requestId ∧ scope.controlEpoch = some c.epoch ∧ c.phase.launches := by
  unfold admits at h
  split at h
  · rw [hc] at h
    cases h
  · exact h.elim
  next epoch control hepoch hcontrol =>
    obtain rfl : control = c := some.inj (hcontrol.symm.trans hc)
    exact ⟨h.1, by rw [hepoch, h.2.1], h.2.2.1⟩

end Agent

section Fence

variable {s t : Server}

lemma OriginFor.sourced (h : Inv s) {scope : AgentSessionWriteScope} {sessionId : String}
    {c : ControlState} (horigin : OriginFor s.trace scope sessionId)
    (hc : s.row.controlState = some c) (hepoch : scope.controlEpoch = some c.epoch) :
    SourcedFor s.trace c sessionId := by
  obtain ⟨d, hwritten, -, hd, hsourced⟩ := horigin
  have hsame : d.epoch = c.epoch := some.inj (hd.symm.trans hepoch)
  exact hsourced.same (h.fenced.same_of_epoch hwritten (h.last.symm.trans hc) hsame)

/-- A write of a fence keeps the invariant. If it was made, the session it started from is one of
the launch. -/
theorem Inv.replaceSession {w : FenceWrite} {r : Except Unit Bool} (h : Inv s)
    (hlegit : w.Legit s.trace) (heq : s.replaceSession w = (r, t)) :
    Inv t ∧ s.trace <:+ t.trace ∧ (r = .ok true → ∀ c : ControlState, Written s.trace c →
      w.scope.controlEpoch = some c.epoch → ∀ p ∈ w.previous, ∀ sessionId ∈ p.sessionId,
        SourcedFor t.trace c sessionId) := by
  unfold Server.replaceSession at heq
  split at heq
  · cases heq
    exact ⟨h, List.suffix_refl _, nofun⟩
  next row hrow =>
    obtain ⟨hadmits, hcontrol, hprevious, hnative⟩ := Agent.replaceSession_some hrow
    -- what the row holds of the session it had
    have hkept : ∀ c, s.row.controlState = some c → ∀ sessionId ∈ s.row.nativeSessionId,
        SourcedFor s.trace c sessionId :=
      fun c hc sessionId hid => h.session c hc (Agent.admits_some hadmits hc).2.2 sessionId hid
    have hstart : ∀ c, Written s.trace c → w.scope.controlEpoch = some c.epoch →
        ∀ p ∈ w.previous, ∀ sessionId ∈ p.sessionId, SourcedFor s.trace c sessionId := by
      intro c hwritten hepoch p hp sessionId hid
      have hold := hprevious p hp sessionId hid
      cases hc : s.row.controlState with
      | none =>
        have hnone : lastWritten s.trace = none := h.last.symm.trans hc
        obtain ⟨cause, before, after, hmem, -⟩ := hwritten
        obtain ⟨last, hlast, -⟩ := h.fenced.behind hmem
        rw [hnone] at hlast
        cases hlast
      | some d =>
        obtain ⟨-, hd, -⟩ := Agent.admits_some hadmits hc
        have hsame : c.epoch = d.epoch := some.inj (hepoch.symm.trans hd)
        exact (hkept d hc sessionId hold).same
          (h.fenced.same_of_epoch hwritten (h.last.symm.trans hc) hsame).symm
    cases hreports : w.reports with
    | false =>
      simp only [hreports, Bool.false_eq_true, if_false, Prod.mk.injEq] at heq
      obtain ⟨-, rfl⟩ := heq
      refine ⟨⟨h.fenced, hcontrol.trans h.last, fun c hc => h.earned c (hcontrol ▸ hc), ?_,
        h.published, h.viewed⟩, List.suffix_refl _, fun _ => hstart⟩
      intro c hc hlaunches sessionId hid
      have hc : s.row.controlState = some c := hcontrol.symm.trans hc
      rcases hnative sessionId hid with hnew | hold
      · rcases hlegit.resolve_left (by simp [hreports]) sessionId hnew with ⟨p, hp, hfrom⟩ | horigin
        · exact hkept c hc sessionId (hprevious p hp sessionId hfrom)
        · exact horigin.sourced h hc (Agent.admits_some hadmits hc).2.1
      · exact hkept c hc sessionId hold
    | true =>
      simp only [hreports, if_true, Prod.mk.injEq] at heq
      obtain ⟨-, rfl⟩ := heq
      refine ⟨⟨⟨fun _ _ _ hevent => Happening.noConfusion hevent, h.fenced⟩,
        hcontrol.trans h.last, fun c hc => (h.earned c (hcontrol ▸ hc)).cons, ?_,
        ⟨fun _ _ hevent => Happening.noConfusion hevent, h.published⟩,
        ⟨fun _ hevent => Happening.noConfusion hevent, h.viewed⟩⟩, List.suffix_cons _ _,
        fun _ c hw he p hp sessionId hid => (hstart c hw he p hp sessionId hid).cons⟩
      intro c hc hlaunches sessionId hid
      have hc : s.row.controlState = some c := hcontrol.symm.trans hc
      rcases hnative sessionId hid with hnew | hold
      · intro hreset
        obtain ⟨hrequest, hepoch, -⟩ := Agent.admits_some hadmits hc
        refine .reported ?_
        rw [hrequest, ← hepoch, hnew]
        exact List.mem_cons_self
      · exact (hkept c hc sessionId hold).cons

end Fence

end Coforge.ServerControl
