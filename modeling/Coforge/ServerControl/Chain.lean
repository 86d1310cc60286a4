import Coforge.ServerControl.System
import Coforge.Lib.Trace

/-!
# The chain of an operation

What may be written of an operation, by the reason for the write, and what an operation in a given
phase has behind it. Both are about the records alone: a write that follows from what its caller
had read is a move from the row, because it changes nothing unless the row is still so.
-/

namespace Coforge.ServerControl

open Control (AgentControlScope AgentControlResult AgentSessionSnapshot ResultPhase truthy)

/-! ### Moves -/

/-- The phases of an operation that goes well, in order. -/
def path (action : AgentControlAction) : List ControlPhase :=
  ((chains action).filterMap commands).flatMap (fun c =>
    if c.completed = .completed then [c.pending] else [c.pending, c.completed]) ++ [.completed]

/-- One step forward: to the next phase of the chain, or to failure. -/
def Forward (action : AgentControlAction) (p q : ControlPhase) : Prop :=
  (p, q) ∈ (path action).zip (path action).tail ∨
    (q = .failed ∧ p ∈ path action ∧ p ≠ .completed)

instance (action : AgentControlAction) (p q : ControlPhase) : Decidable (Forward action p q) :=
  inferInstanceAs (Decidable (_ ∨ _))

/-- The results of the commands that an operation in a phase has behind it. -/
def passed (action : AgentControlAction) (phase : ControlPhase) : List ResultPhase :=
  (((chains action).filterMap commands).filter fun c =>
    (path action).idxOf c.completed ≤ (path action).idxOf phase).map (·.result)

/-- The records are of one operation. -/
structure SameOperation (c d : ControlState) : Prop where
  scope : d.toAgentControlScope = c.toAgentControlScope
  action : d.action = c.action

lemma SameOperation.refl (c : ControlState) : SameOperation c c := ⟨rfl, rfl⟩

lemma SameOperation.trans {c d e : ControlState} (hcd : SameOperation c d)
    (hde : SameOperation d e) : SameOperation c e :=
  ⟨hde.scope.trans hcd.scope, hde.action.trans hcd.action⟩

lemma SameOperation.symm {c d : ControlState} (h : SameOperation c d) : SameOperation d c :=
  ⟨h.scope.symm, h.action.symm⟩

lemma SameOperation.requestId {c d : ControlState} (h : SameOperation c d) :
    d.requestId = c.requestId := congrArg AgentControlScope.requestId h.scope

lemma SameOperation.epoch {c d : ControlState} (h : SameOperation c d) : d.epoch = c.epoch :=
  congrArg AgentControlScope.epoch h.scope

/-- An operation begins: at the next epoch, under another request id. -/
structure Begins (before : Option ControlState) (after : ControlState) : Prop where
  epoch : after.epoch = (before.map (·.epoch)).getD 0 + 1
  request : ∀ c ∈ before, c.requestId ≠ after.requestId
  phase : after.phase = if after.action = .start then .starting else .stopping
  launch : (∃ id ∈ after.launchId, id ≠ "") ↔ after.action = .start
  sequence : after.controlSequence = 0

/-- An operation takes a result: one of its own scope, and later than those it took. -/
structure Takes (r : AgentControlResult) (c after : ControlState) : Prop where
  same : SameOperation c after
  scope : sameScope c.toAgentControlScope r.toAgentControlScope
  later : c.controlSequence < r.sequence
  sequence : after.controlSequence = r.sequence
  launch : after.launchId = c.launchId
  forward : Forward c.action c.phase after.phase
  answers : after.phase = .failed ∨ ∃ command ∈ commandFor r.phase,
    c.phase = command.pending ∧ after.phase = command.completed
  started : r.phase = .started → r.launchId = c.launchId ∧ (truthy r.launchId).isSome

/-- An operation goes from one command to the next. A Start gets its launch id. -/
structure Advances (c after : ControlState) : Prop where
  same : SameOperation c after
  between : (completedStep c.phase).isSome
  sequence : after.controlSequence = c.controlSequence
  forward : Forward c.action c.phase after.phase
  command : after.phase ≠ .failed
  launch : (∃ id ∈ after.launchId, id ≠ "") ↔ after.phase = .starting

/-- A write about the session of an operation leaves the operation where it is. -/
structure Stays (c after : ControlState) : Prop where
  same : SameOperation c after
  phase : after.phase = c.phase
  sequence : after.controlSequence = c.controlSequence
  launch : after.launchId = c.launchId

/-- What may be written, by the reason for the write. -/
def Move : Cause → Option ControlState → ControlState → Prop
  | .begin, before, after        => Begins before after
  | .result r, some c, after     => Takes r c after
  | .advance, some c, after      => Advances c after
  | .snapshot _, some c, after   => Stays c after
  | .invalidate, some c, after   => Stays c after
  | _, _, _                      => False

variable {cause : Cause}

lemma Move.same {c after : ControlState} (h : Move cause (some c) after)
    (hcause : cause ≠ .begin) : SameOperation c after := by
  cases cause with
  | begin => exact absurd rfl hcause
  | result r => exact Takes.same h
  | advance => exact Advances.same h
  | snapshot x => exact Stays.same h
  | invalidate => exact Stays.same h
  | launchId => exact h.elim

/-! ### What an operation has behind it -/

/-- What the row was last written to. -/
def lastWritten : List Happening → Option ControlState
  | []                        => none
  | .wrote _ _ after :: _     => some after
  | _ :: past                 => lastWritten past

/-- The operation was written so or in an earlier phase. -/
def Written (past : List Happening) (c : ControlState) : Prop :=
  ∃ cause before after, .wrote cause before after ∈ past ∧ SameOperation after c

/-- A result was taken for the operation. One that says it started names its launch. -/
def Applied (past : List Happening) (c : ControlState) (phase : ResultPhase) : Prop :=
  ∃ r before after, .wrote (.result r) before after ∈ past ∧
    sameScope c.toAgentControlScope r.toAgentControlScope ∧ r.phase = phase ∧
    (phase = .started → r.launchId = c.launchId ∧ (truthy r.launchId).isSome)

/-- The launch id was drawn for the operation, when it began or came to its Start. -/
def Minted (past : List Happening) (c : ControlState) (launchId : String) : Prop :=
  ∃ cause before after, .wrote cause before after ∈ past ∧ (cause = .begin ∨ cause = .advance) ∧
    SameOperation after c ∧ after.launchId = some launchId

/-- An operation is in a phase of its chain, it has the results of the commands behind it, and
from its Start on it has a launch id, minted for it. -/
structure Earned (past : List Happening) (c : ControlState) : Prop where
  written : Written past c
  valid : c.phase = .failed ∨ c.phase ∈ path c.action
  results : c.phase ≠ .failed → ∀ phase ∈ passed c.action c.phase, Applied past c phase
  minted : ∀ id ∈ c.launchId, id ≠ "" → Minted past c id
  launch : c.phase = .starting ∨ (c.phase = .completed ∧ c.action ≠ .stop) →
    ∃ id ∈ c.launchId, id ≠ ""

section Past

variable {past : List Happening} {event : Happening} {c d : ControlState} {phase : ResultPhase}

lemma Written.cons (h : Written past c) : Written (event :: past) c := by
  obtain ⟨cause, before, after, hmem, hsame⟩ := h
  exact ⟨cause, before, after, List.mem_cons_of_mem _ hmem, hsame⟩

lemma Applied.cons (h : Applied past c phase) : Applied (event :: past) c phase := by
  obtain ⟨r, before, after, hmem, hrest⟩ := h
  exact ⟨r, before, after, List.mem_cons_of_mem _ hmem, hrest⟩

lemma Minted.cons {id : String} (h : Minted past c id) : Minted (event :: past) c id := by
  obtain ⟨cause, before, after, hmem, hrest⟩ := h
  exact ⟨cause, before, after, List.mem_cons_of_mem _ hmem, hrest⟩

lemma Earned.cons (h : Earned past c) : Earned (event :: past) c where
  written := h.written.cons
  valid := h.valid
  results hphase p hp := (h.results hphase p hp).cons
  minted id hid hne := (h.minted id hid hne).cons
  launch := h.launch

lemma Applied.same (h : Applied past c phase) (hsame : SameOperation c d)
    (hlaunch : phase = .started → d.launchId = c.launchId) : Applied past d phase := by
  obtain ⟨r, before, after, hmem, hscope, hphase, hstarted⟩ := h
  refine ⟨r, before, after, hmem, by rw [hsame.scope]; exact hscope, hphase, fun hp => ?_⟩
  rw [hlaunch hp]
  exact hstarted hp

lemma Minted.same {id : String} (h : Minted past c id) (hsame : SameOperation c d) :
    Minted past d id := by
  obtain ⟨cause, before, after, hmem, hcause, hafter, hid⟩ := h
  exact ⟨cause, before, after, hmem, hcause, hafter.trans hsame, hid⟩

end Past

/-! ### Moves keep it -/

variable {action : AgentControlAction}

lemma passed_forward {p q : ControlPhase}
    (h : Forward action p q) (hq : q ≠ .failed) {phase : ResultPhase}
    (hphase : phase ∈ passed action q) : phase ∈ passed action p ∨
      ∃ command ∈ commandFor phase, p = command.pending ∧ q = command.completed := by
  have hsteps : ∀ step ∈ (path action).zip (path action).tail, ∀ phase ∈ passed action step.2,
      phase ∈ passed action step.1 ∨
        ∃ command ∈ commandFor phase, step.1 = command.pending ∧ step.2 = command.completed := by
    cases action <;> decide
  rcases h with hstep | ⟨hfailed, -⟩
  · exact hsteps _ hstep phase hphase
  · exact absurd hfailed hq

lemma completed_of_started {phase : ControlPhase}
    (hphase : phase ∈ path action) (h : .started ∈ passed action phase) : phase = .completed := by
  revert hphase h
  cases action <;> cases phase <;> decide

lemma path_forward {p q : ControlPhase} (h : Forward action p q) :
    q = .failed ∨ q ∈ path action := by
  rcases h with hstep | ⟨hfailed, -⟩
  · exact .inr (List.mem_of_mem_tail (List.of_mem_zip hstep).2)
  · exact .inl hfailed

lemma path_begins (action : AgentControlAction) :
    (if action = .start then .starting else .stopping) ∈ path action := by
  cases action <;> decide

lemma passed_begins (action : AgentControlAction) :
    passed action (if action = .start then .starting else .stopping) = [] := by
  cases action <;> decide

lemma commandFor_pending {p q : ResultPhase} {c d : CommandPhases} (hc : c ∈ commandFor p)
    (hd : d ∈ commandFor q) (h : c.pending = d.pending) : p = q := by
  revert hc hd h
  cases p <;> cases q <;> simp [commandFor, commands]
  all_goals rintro rfl rfl h; cases h

lemma commandFor_between {p : ResultPhase} {c : CommandPhases} (hc : c ∈ commandFor p) :
    completedStep c.pending = none := by
  revert hc
  cases p <;> simp [commandFor, commands] <;> rintro rfl <;> rfl

lemma stop_of_completed {phase : ControlPhase}
    (hbetween : (completedStep phase).isSome) (h : Forward action phase .completed) :
    action = .stop := by
  revert hbetween h
  cases action <;> cases phase <;> decide

section Moves

variable {past : List Happening} {c after : ControlState}

lemma Begins.earned {before : Option ControlState} (h : Begins before after) :
    Earned (.wrote .begin before after :: past) after where
  written := ⟨_, _, _, List.mem_cons_self, .refl after⟩
  valid := .inr (h.phase ▸ path_begins after.action)
  results _ phase hphase := by
    rw [h.phase, passed_begins] at hphase
    cases hphase
  minted id hid _ := ⟨_, _, _, List.mem_cons_self, .inl rfl, .refl after, hid⟩
  launch hphase := by
    refine h.launch.mpr ?_
    rw [h.phase] at hphase
    by_cases hstart : after.action = .start
    · exact hstart
    · simp [hstart] at hphase

lemma Takes.earned {r : AgentControlResult} (h : Takes r c after) (hc : Earned past c) :
    Earned (.wrote (.result r) (some c) after :: past) after where
  written := ⟨_, _, _, List.mem_cons_self, .refl after⟩
  valid := h.same.action ▸ path_forward h.forward
  results hfailed phase hphase := by
    rw [h.same.action] at hphase
    have hrunning : c.phase ≠ .failed := by
      intro hc
      have hforward := h.forward
      rw [hc] at hforward
      revert hforward
      cases c.action <;> cases after.phase <;> decide
    rcases passed_forward h.forward hfailed hphase with hpassed | ⟨command, hcommand, hpending, -⟩
    · exact ((hc.results hrunning phase hpassed).same h.same fun _ => h.launch).cons
    · obtain ⟨answered, hanswered, hp, -⟩ := h.answers.resolve_left hfailed
      have heq : r.phase = phase := commandFor_pending hanswered hcommand (hp.symm.trans hpending)
      refine ⟨r, _, _, List.mem_cons_self, by rw [h.same.scope]; exact h.scope, heq, fun hp => ?_⟩
      rw [h.launch]
      exact h.started (heq.trans hp)
  minted id hid hne := ((hc.minted id (h.launch ▸ hid) hne).same h.same).cons
  launch hphase := by
    rw [h.launch]
    refine hc.launch ?_
    have hforward := h.forward
    rw [h.same.action] at hphase
    rcases h.answers with hfailed | ⟨command, hcommand, hpending, hcompleted⟩
    · rw [hfailed] at hphase
      rcases hphase with hstarting | ⟨hcompleted, -⟩
      · cases hstarting
      · cases hcompleted
    · rw [hcompleted] at hphase hforward
      rw [hpending] at hforward ⊢
      revert hforward hphase
      cases hresult : r.phase <;> rw [hresult] at hcommand <;> cases hcommand <;>
        cases c.action <;> decide

lemma Advances.earned (h : Advances c after) (hc : Earned past c) :
    Earned (.wrote .advance (some c) after :: past) after where
  written := ⟨_, _, _, List.mem_cons_self, .refl after⟩
  valid := h.same.action ▸ path_forward h.forward
  results hfailed phase hphase := by
    rw [h.same.action] at hphase
    have hbetween := h.between
    have hrunning : c.phase ≠ .failed := by
      intro hc
      rw [hc] at hbetween
      cases hbetween
    rcases passed_forward h.forward hfailed hphase with hpassed | ⟨command, hcommand, hpending, -⟩
    · refine ((hc.results hrunning phase hpassed).same h.same fun hstarted => ?_).cons
      subst hstarted
      have hcompleted := completed_of_started (hc.valid.resolve_left hrunning) hpassed
      rw [hcompleted] at hbetween
      cases hbetween
    · rw [hpending, commandFor_between hcommand] at hbetween
      cases hbetween
  minted id hid _ := ⟨_, _, _, List.mem_cons_self, .inr rfl, .refl after, hid⟩
  launch hphase := by
    refine h.launch.mpr ?_
    rcases hphase with hstarting | ⟨hcompleted, hstop⟩
    · exact hstarting
    · have hforward := h.forward
      rw [hcompleted] at hforward
      exact absurd (h.same.action.trans (stop_of_completed h.between hforward)) hstop

lemma Stays.earned {cause : Cause} (h : Stays c after) (hc : Earned past c) :
    Earned (.wrote cause (some c) after :: past) after where
  written := ⟨_, _, _, List.mem_cons_self, .refl after⟩
  valid := by
    rw [h.phase, h.same.action]
    exact hc.valid
  results hfailed phase hphase := by
    rw [h.phase, h.same.action] at hphase
    exact ((hc.results (h.phase ▸ hfailed) phase hphase).same h.same fun _ => h.launch).cons
  minted id hid hne := ((hc.minted id (h.launch ▸ hid) hne).same h.same).cons
  launch hphase := by
    rw [h.launch]
    rw [h.phase, h.same.action] at hphase
    exact hc.launch hphase

/-- Every move earns the phase it goes to. -/
theorem Move.earned {cause : Cause} {before : Option ControlState} (h : Move cause before after)
    (hbefore : ∀ c ∈ before, Earned past c) : Earned (.wrote cause before after :: past) after := by
  cases cause with
  | begin => exact Begins.earned h
  | result r =>
    cases before with
    | none => exact h.elim
    | some c => exact Takes.earned h (hbefore c rfl)
  | advance =>
    cases before with
    | none => exact h.elim
    | some c => exact Advances.earned h (hbefore c rfl)
  | snapshot x =>
    cases before with
    | none => exact h.elim
    | some c => exact Stays.earned h (hbefore c rfl)
  | invalidate =>
    cases before with
    | none => exact h.elim
    | some c => exact Stays.earned h (hbefore c rfl)
  | launchId => cases before <;> exact h.elim

end Moves

/-! ### The writes of a run -/

/-- Every write of the trace was a move from the write before it. -/
def Fenced (trace : List Happening) : Prop :=
  Trace.Each (fun past event => ∀ cause before after, event = .wrote cause before after →
    before = lastWritten past ∧ Move cause before after) trace

/-- What was written earlier belongs to an earlier epoch, or to the same operation, which has
then come further. -/
structure Behind (c last : ControlState) : Prop where
  epoch : c.epoch ≤ last.epoch
  same : c.epoch = last.epoch →
    SameOperation c last ∧ c.controlSequence ≤ last.controlSequence

lemma Behind.move {c last after : ControlState} (h : Behind c last)
    (hmove : Move cause (some last) after) : Behind c after := by
  by_cases hcause : cause = .begin
  · subst hcause
    have hepoch : after.epoch = last.epoch + 1 := Begins.epoch hmove
    have hle := h.epoch
    exact ⟨by omega, fun heq => by omega⟩
  · have hsame := hmove.same hcause
    have hsequence : last.controlSequence ≤ after.controlSequence := by
      cases cause with
      | begin => exact absurd rfl hcause
      | result r => exact (Takes.sequence hmove) ▸ Nat.le_of_lt (Takes.later hmove)
      | advance => exact Nat.le_of_eq (Advances.sequence hmove).symm
      | snapshot x => exact Nat.le_of_eq (Stays.sequence hmove).symm
      | invalidate => exact Nat.le_of_eq (Stays.sequence hmove).symm
      | launchId => exact hmove.elim
    refine ⟨hsame.epoch ▸ h.epoch, fun heq => ?_⟩
    obtain ⟨hop, hle⟩ := h.same (heq.trans hsame.epoch)
    exact ⟨hop.trans hsame, Nat.le_trans hle hsequence⟩

lemma Fenced.behind {trace : List Happening} (h : Fenced trace)
    {before : Option ControlState} {c : ControlState} (hmem : .wrote cause before c ∈ trace) :
    ∃ last, lastWritten trace = some last ∧ Behind c last := by
  induction trace with
  | nil => cases hmem
  | cons event past ih =>
    obtain ⟨hevent, hpast⟩ := h
    have hself (d : ControlState) : Behind d d := ⟨Nat.le_refl _, fun _ => ⟨.refl d, Nat.le_refl _⟩⟩
    rcases List.mem_cons.mp hmem with rfl | hold
    · exact ⟨c, rfl, hself c⟩
    · obtain ⟨last, hlast, hbehind⟩ := ih hpast hold
      cases event with
      | wrote cause' before' after' =>
        obtain ⟨hbefore, hmove⟩ := hevent cause' before' after' rfl
        rw [hlast] at hbefore
        subst hbefore
        exact ⟨after', rfl, hbehind.move hmove⟩
      | drew | subject | reported | published | viewed => exact ⟨last, hlast, hbehind⟩

lemma Fenced.same_of_epoch {trace : List Happening} (h : Fenced trace) {c d : ControlState}
    (hc : Written trace c) (hd : lastWritten trace = some d) (hepoch : c.epoch = d.epoch) :
    SameOperation c d := by
  obtain ⟨cause, before, after, hmem, hsame⟩ := hc
  obtain ⟨last, hlast, hbehind⟩ := h.behind hmem
  obtain rfl : last = d := Option.some.inj (hlast.symm.trans hd)
  exact hsame.symm.trans (hbehind.same (hsame.epoch.symm.trans hepoch)).1

end Coforge.ServerControl
