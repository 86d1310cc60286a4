import Coforge.ServerControl.Reach

/-!
# Control fencing on the server

An operation begins at the next epoch, and while its request is the current one the epoch stays
and the phase goes forward only. Results are taken in the order of their sequences. A Start that
is reported complete was answered by the daemon, under the launch id minted for it.

A request id counts as new whenever it is not that of the current operation. One that was
superseded begins another operation when it comes again.
-/

namespace Coforge.ServerControl

open Transition
open Control (AgentControlScope AgentControlResult ResultPhase truthy)

/-- The daemon answered the Start of an operation, under the launch id minted for it. -/
def Started (past : List Happening) (c : ControlState) : Prop :=
  ∃ r before after id, .wrote (.result r) before after ∈ past ∧
    sameScope c.toAgentControlScope r.toAgentControlScope ∧ r.phase = .started ∧
    r.launchId = some id ∧ id ≠ "" ∧ Minted past c id

/-- A write of an operation, with everything that was written before. -/
structure FencedWrite (past : List Happening) (cause : Cause) (before : Option ControlState)
    (after : ControlState) : Prop where
  current : before = lastWritten past
  fresh : (∀ c ∈ before, c.requestId ≠ after.requestId) →
    (before.map (·.epoch)).getD 0 < after.epoch
  repeated : ∀ c ∈ before, c.requestId = after.requestId → c.epoch = after.epoch ∧
    c.action = after.action ∧ (c.phase = after.phase ∨ Forward c.action c.phase after.phase)
  applied : ∀ r, cause = .result r → ∃ c ∈ before,
    sameScope c.toAgentControlScope r.toAgentControlScope ∧ c.controlSequence < r.sequence
  once : ∀ r, cause = .result r → ∀ earlier b a, .wrote (.result earlier) b a ∈ past →
    sameScope earlier.toAgentControlScope r.toAgentControlScope → earlier.sequence < r.sequence

section Writes

variable {past trace : List Happening} {cause : Cause} {before : Option ControlState}
  {c after : ControlState}

lemma Move.forward (h : Move cause (some c) after) (hcause : cause ≠ .begin) :
    c.phase = after.phase ∨ Forward c.action c.phase after.phase := by
  cases cause with
  | begin => exact absurd rfl hcause
  | result r => exact .inr (Takes.forward h)
  | advance => exact .inr (Advances.forward h)
  | snapshot x => exact .inl (Stays.phase h).symm
  | invalidate => exact .inl (Stays.phase h).symm
  | launchId => exact h.elim

lemma Fenced.taken_lt (h : Fenced past) {earlier r : AgentControlResult}
    {b : Option ControlState} {a : ControlState}
    (hmem : .wrote (.result earlier) b a ∈ past) (hlast : lastWritten past = some c)
    (hepoch : earlier.epoch = c.epoch) (hlater : c.controlSequence < r.sequence) :
    earlier.sequence < r.sequence := by
  obtain ⟨old, -, hmove⟩ := Trace.Each.of_mem h hmem
  obtain ⟨-, hmove⟩ := hmove _ _ _ rfl
  cases b with
  | none => exact hmove.elim
  | some d =>
    have htakes : Takes earlier d a := hmove
    obtain ⟨last, hl, hbehind⟩ := h.behind hmem
    obtain rfl : last = c := Option.some.inj (hl.symm.trans hlast)
    have ha : a.epoch = last.epoch := by
      rw [htakes.same.epoch, htakes.scope.2.2.2.2.1, hepoch]
    have hsequence := (hbehind.same ha).2
    rw [htakes.sequence] at hsequence
    exact Nat.lt_of_le_of_lt hsequence hlater

lemma Fenced.write (h : Fenced (.wrote cause before after :: past)) :
    FencedWrite past cause before after := by
  obtain ⟨hmove, hpast⟩ := h
  obtain ⟨hbefore, hmove⟩ := hmove cause before after rfl
  have hbegin (c : ControlState) (hc : before = some c) :
      cause = .begin ↔ c.requestId ≠ after.requestId := by
    subst hc
    constructor
    · rintro rfl
      exact Begins.request hmove c rfl
    · intro hne
      by_contra hcause
      exact hne (hmove.same hcause).requestId.symm
  refine ⟨hbefore, fun hfresh => ?_, fun c hc hrequest => ?_, ?_, ?_⟩
  · have hcause : cause = .begin := by
      cases hb : before with
      | none =>
        subst hb
        cases cause <;> first | rfl | exact hmove.elim
      | some c => exact (hbegin c hb).mpr (hfresh c hb)
    subst hcause
    rw [Begins.epoch hmove]
    exact Nat.lt_succ_self _
  · have hcause : cause ≠ .begin := fun heq => (hbegin c hc).mp heq hrequest
    rw [hc] at hmove
    have hsame := hmove.same hcause
    exact ⟨hsame.epoch.symm, hsame.action.symm, hmove.forward hcause⟩
  · rintro r rfl
    cases before with
    | none => exact hmove.elim
    | some c => exact ⟨c, rfl, Takes.scope hmove, Takes.later hmove⟩
  · rintro r rfl earlier b a hmem hscope
    cases before with
    | none => exact hmove.elim
    | some c =>
      have hc : sameScope c.toAgentControlScope r.toAgentControlScope := Takes.scope hmove
      exact Fenced.taken_lt hpast hmem hbefore.symm (hscope.2.2.2.2.1.trans hc.2.2.2.2.1.symm)
        (Takes.later hmove)

/-- A Start is among the commands behind a completed operation, unless it was a Stop. -/
lemma started_passed {action : AgentControlAction} (h : action ≠ .stop) :
    .started ∈ passed action .completed := by
  revert h
  cases action <;> decide

lemma Earned.started (h : Earned past c) (hcompleted : c.phase = .completed)
    (hstop : c.action ≠ .stop) : Started past c := by
  have hpassed : .started ∈ passed c.action c.phase := by
    rw [hcompleted]
    exact started_passed hstop
  obtain ⟨r, b, a, hmem, hscope, hphase, hlaunch⟩ :=
    h.results (by rw [hcompleted]; decide) .started hpassed
  obtain ⟨hlaunch, -⟩ := hlaunch rfl
  obtain ⟨id, hid, hne⟩ := h.launch (.inr ⟨hcompleted, hstop⟩)
  exact ⟨r, b, a, id, hmem, hscope, hphase, hlaunch.trans hid, hne, h.minted id hid hne⟩

end Writes

section Runs

variable [Digest] {row : Agent} {uuid : Nat → { id : String // id ≠ "" }} {daemon : Option String}
  {moves : List (Async.Move Event Task Outcome)} {t : System}

/-- Every write of a run is fenced, the row is what was written last, and what is complete or was
reported complete as a Start has started. -/
theorem control_fenced (hrun : run agentControl.step (System.init row uuid daemon) moves = some t) :
    (∀ later cause before after past, t.shared.trace = later ++ .wrote cause before after :: past →
        FencedWrite past cause before after) ∧
    t.shared.row.controlState = lastWritten t.shared.trace ∧
    (∀ c ∈ t.shared.row.controlState, c.phase = .completed → c.action ≠ .stop →
      Started t.shared.trace c) ∧ ∀ later v past, t.shared.trace = later ++ .viewed v :: past →
      v.phase = .completed → v.action ≠ .stop →
        ∃ c : ControlState, c.requestId = v.requestId ∧ c.action = v.action ∧ Written past c ∧
          Started past c := by
  have hinv := inv_run hrun
  refine ⟨fun later cause before after past heq => ?_, hinv.last, fun c hc => ?_,
    fun later v past heq hcompleted hstop => ?_⟩
  · have hfenced : Fenced (.wrote cause before after :: past) := by
      have hall := hinv.fenced
      rw [heq] at hall
      exact hall.right
    exact hfenced.write
  · exact (hinv.earned c hc).started
  · obtain ⟨c, hrequest, haction, hphase, hearned⟩ :=
      Trace.each_iff.mp hinv.viewed later (.viewed v) past heq v rfl hcompleted
    exact ⟨c, hrequest, haction, hearned.written, hearned.started hphase (haction ▸ hstop)⟩

end Runs

/-! ### A request that comes again -/

/-- An Agent that no operation was begun for. -/
def sampleAgent : Agent where
  id := "agent"
  ownerId := "owner"
  workspaceId := "workspace"
  computerId := some "computer"
  runtimeConfig := ⟨.claudeCode, "config"⟩
  runtimeSession := none
  controlState := none
  currentSession := none
  stoppedAt := none
  deletedAt := none
  assigned := true

def sampleUuid (n : Nat) : { id : String // id ≠ "" } := ⟨String.ofList (List.replicate (n + 1) 'u'),
  fun h => by simpa using congrArg String.length h⟩

/-- A digest that keeps a configuration as it is. -/
@[reducible]
def plainDigest : Digest := ⟨fun config => config.settings⟩

/-- A Stop is begun, and its caller waits for it. -/
def stopping (i : Nat) (requestId : String) : List (Async.Move Event Task Outcome) :=
  [.call (.execute "workspace" requestId .stop false 0 0), .reply i .done, .reply i .done,
    .reply i .done, .reply i .done]

/-- The request `one` is superseded by `two`, and comes again. -/
def repeatedRun : List (Async.Move Event Task Outcome) :=
  stopping 0 "one" ++ stopping 1 "two" ++ stopping 2 "one"

/-- The third write has the request of the first one, with another epoch. -/
def rebegun : List Happening → Bool
  | [.wrote _ _ c, .wrote _ _ _, .wrote _ _ a] => c.requestId = a.requestId ∧ c.epoch ≠ a.epoch
  | _ => false

theorem repeated_request_changes_epoch : ¬ ∀ (d : Digest) row uuid daemon moves t,
      run (@agentControl d).step (System.init row uuid daemon) moves = some t →
      ∀ later cause before after past, t.shared.trace = later ++ .wrote cause before after :: past →
        ∀ cause' before' earlier, .wrote cause' before' earlier ∈ past →
          earlier.requestId = after.requestId → earlier.epoch = after.epoch := by
  intro h
  obtain ⟨t, hrun, htrace⟩ := (Option.any_eq_true _ _).mp
    (show (run (@agentControl plainDigest).step (System.init sampleAgent sampleUuid none)
      repeatedRun).any (fun t => rebegun t.shared.trace) by decide)
  unfold rebegun at htrace
  split at htrace
  next cause b c cause₂ b₂ c₂ cause₁ b₁ a heq =>
    obtain ⟨hrequest, hepoch⟩ := of_decide_eq_true htrace
    have hmem : Happening.wrote cause₁ b₁ a ∈ [.wrote cause₂ b₂ c₂, .wrote cause₁ b₁ a] :=
      List.mem_cons_of_mem _ List.mem_cons_self
    exact hepoch (h _ _ _ _ _ t hrun [] cause b c _ heq _ _ a hmem hrequest.symm).symm
  · cases htrace

/-! ### A Start that completes -/

/-- The scope of the first operation of the Agent. -/
def sampleScope : AgentControlScope where
  protocolMajor := 1
  requestId := "one"
  workspaceId := "workspace"
  computerId := "computer"
  agentId := "agent"
  provider := .claudeCode
  epoch := 1

def sampleResult (phase : ResultPhase) (sequence : Nat) (launchId : Option String)
    (identity : Option Control.SessionIdentity) : AgentControlResult :=
  { sampleScope with phase, sequence, launchId, identity, errorCode := none }

/-- A Start is published, the daemon answers it, and the caller sees it complete. -/
def startedRun : List (Async.Move Event Task Outcome) :=
  [.call (.execute "workspace" "one" .start false 0 3), .reply 0 (.recovery none)] ++
    List.replicate 10 (.reply 0 .done) ++
    [.call (.result ⟨"workspace", "computer"⟩ (sampleResult .started 1 (some "u") none)),
      .reply 1 .done, .reply 1 .done, .reply 0 .done]

/-- The last view is of an operation that completed and is no stop. -/
def completes : List Happening → Bool
  | .viewed v :: _ => v.phase = .completed ∧ v.action ≠ .stop
  | _ => false

theorem control_fenced_started : ∃ t past, run (@agentControl plainDigest).step
        (System.init sampleAgent sampleUuid (some "daemon")) startedRun = some t ∧
      (∃ v, t.shared.trace = .viewed v :: past ∧ v.phase = .completed ∧
        ∃ c : ControlState, c.requestId = v.requestId ∧ c.action = v.action ∧ Written past c ∧
          Started past c) ∧
      ∀ later cause before after earlier, t.shared.trace = later ++ .wrote cause before after :: earlier →
        FencedWrite earlier cause before after := by
  obtain ⟨t, hrun, htrace⟩ := (Option.any_eq_true _ _).mp
    (show (run (@agentControl plainDigest).step
      (System.init sampleAgent sampleUuid (some "daemon")) startedRun).any
      (fun t => completes t.shared.trace) by decide)
  obtain ⟨hwrites, -, -, hviews⟩ := @control_fenced plainDigest _ _ _ _ _ hrun
  unfold completes at htrace
  split at htrace
  next v past heq =>
    obtain ⟨hcompleted, hstop⟩ := of_decide_eq_true htrace
    exact ⟨t, past, hrun, ⟨v, heq, hcompleted, hviews [] v past heq hcompleted hstop⟩, hwrites⟩
  · cases htrace

end Coforge.ServerControl
