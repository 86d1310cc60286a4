import Coforge.ServerControl.Fencing

/-!
# Resets and sessions

The Start that ends a reset is published after the daemon stopped the Agent, and for a full reset
after it emptied the workspace. It brings no session over from before the reset. What it may bring
was drawn for it, or the daemon named it in an answer to this very Start, or a caller had selected
it under the same request id. That the daemon does not name the old session again, and that a
request id is not used again, is not checked.
-/

namespace Coforge.ServerControl

open Transition
open Control (AgentControlScope AgentControlResult ResultPhase truthy)

section Past

variable {past trace : List Happening} {c d : ControlState}

lemma Fenced.same_of_written (h : Fenced trace) {b b' : Option ControlState} {cause cause' : Cause}
    (hc : .wrote cause b c ∈ trace) (hd : .wrote cause' b' d ∈ trace) (hepoch : c.epoch = d.epoch) :
    SameOperation c d := by
  induction trace with
  | nil => cases hc
  | cons event past ih =>
    have hlast {cause : Cause} {b : Option ControlState} {e : ControlState}
        (heq : Happening.wrote cause b e = event) : lastWritten (event :: past) = some e := by
      rw [← heq]
      rfl
    rcases List.mem_cons.mp hc with hc' | hc'
    · exact (h.same_of_epoch ⟨_, _, _, hd, .refl d⟩ (hlast hc') hepoch.symm).symm
    · rcases List.mem_cons.mp hd with hd' | hd'
      · exact h.same_of_epoch ⟨_, _, _, hc, .refl c⟩ (hlast hd') hepoch
      · exact ih h.2 hc' hd'

lemma passed_reset {action : AgentControlAction} {phase : ControlPhase} (hreset : action.isReset)
    (hlaunches : phase.launches) : .stopped ∈ passed action phase ∧
      (action = .fullReset → .workspaceReset ∈ passed action phase) := by
  revert hreset hlaunches
  cases action <;> cases phase <;> decide

end Past

section Runs

variable [Digest] {row : Agent} {uuid : Nat → { id : String // id ≠ "" }} {daemon : Option String}
  {moves : List (Async.Move Event Task Outcome)} {t : System}

/-- A Start that is published in the epoch of a reset is that of the reset, comes after what the
reset waits for, and brings no session from before. -/
theorem reset_starts_fresh
    (hrun : run agentControl.step (System.init row uuid daemon) moves = some t)
    {later past : List Happening} {state : ControlState} {intent : AgentStartIntent}
    (heq : t.shared.trace = later ++ .published state (.start intent) :: past)
    {cause : Cause} {before : Option ControlState} {c : ControlState}
    (hc : .wrote cause before c ∈ t.shared.trace) (hepoch : intent.controlEpoch = some c.epoch)
    (hreset : c.action.isReset) : intent.requestId = c.requestId ∧ Applied past c .stopped ∧
      (c.action = .fullReset → Applied past c .workspaceReset) ∧
      ∀ sessionId ∈ intent.sessionId, Sourced past c.requestId c.epoch sessionId := by
  have hinv := inv_run hrun
  have hknown : StartKnown past state intent :=
    Trace.each_iff.mp hinv.published later _ past heq state intent rfl
  have hsame : SameOperation state c := by
    obtain ⟨cause', before', after, hmem, hafter⟩ := hknown.earned.written
    have hmem' : .wrote cause' before' after ∈ t.shared.trace := by
      rw [heq]
      exact List.mem_append_right _ (List.mem_cons_of_mem _ hmem)
    have hstate : state.epoch = c.epoch := Option.some.inj (hknown.epoch.symm.trans hepoch)
    exact hafter.symm.trans
      (hinv.fenced.same_of_written hmem' hc (hafter.epoch.symm.trans hstate))
  have hreset' : state.action.isReset := hsame.action ▸ hreset
  have hlaunches := hknown.launches hreset'
  obtain ⟨hstopped, hworkspace⟩ := passed_reset hreset' hlaunches
  have hresults := hknown.earned.results fun hfailed => by
    rw [hfailed] at hlaunches
    cases hlaunches
  refine ⟨hknown.requestId.trans hsame.requestId.symm, ?_, fun hfull => ?_, fun sessionId hid => ?_⟩
  · exact (hresults _ hstopped).same hsame nofun
  · exact (hresults _ (hworkspace (hsame.action ▸ hfull))).same hsame nofun
  · exact (hknown.session sessionId hid).same hsame hreset

end Runs

/-! ### Sessions that come back -/

/-- An operation was begun, over what the row held. -/
def Happening.begun : Happening → Option (Option ControlState × ControlState)
  | .wrote .begin before after => some (before, after)
  | _ => none

def Happening.start : Happening → Option AgentStartIntent
  | .published _ (.start intent) => some intent
  | _ => none

/-- After `s`, where the Agent had a session, a reset was begun, and a Start of it brought the
session back. -/
def Resurrects (s t : Server) (sessionId : String) : Prop :=
  s.row.nativeSessionId = some sessionId ∧
    ∃ reset ∈ t.trace.filterMap Happening.begun, reset.1 = s.row.controlState ∧
      reset.2.action.isReset ∧ ∃ intent ∈ t.trace.filterMap Happening.start,
        intent.controlEpoch = some reset.2.epoch ∧ intent.sessionId = some sessionId

instance (s t : Server) (sessionId : String) : Decidable (Resurrects s t sessionId) :=
  inferInstanceAs (Decidable (_ ∧ ∃ _ ∈ _, _ ∧ _ ∧ ∃ _ ∈ _, _))

/-- An Agent with a session. -/
def sampleResumed : Agent :=
  { sampleAgent with currentSession := some ⟨0, .claudeCode, "computer", some "old", .resumable⟩ }

abbrev sampleSystem : System := System.init sampleResumed sampleUuid (some "daemon")

abbrev replies (i n : Nat) : List (Async.Move Event Task Outcome) := List.replicate n (.reply i .done)

abbrev sampleClaim : Claim := ⟨"workspace", "computer"⟩

/-- The session is reset. The daemon stops the Agent, and names the session it had in its answer
to the Start. The Start is published once more, with a message. -/
def renamedRun : List (Async.Move Event Task Outcome) :=
  [.call (.execute "workspace" "one" .resetSession false 0 0)] ++ replies 0 4 ++
    [.call (.result sampleClaim (sampleResult .stopped 1 none none))] ++ replies 1 5 ++
    [.reply 1 (.recovery none)] ++ replies 1 4 ++
    [.call (.result sampleClaim (sampleResult .started 2 (some "u") (some ⟨"old", .resumable⟩)))] ++
    replies 2 2 ++
    [.call (.publishStart "owner" "workspace" "two" ⟨some "message", [], []⟩)] ++ replies 3 6

/-- A Start on a selected session waits, and a Stop supersedes it. -/
def selectedRun : List (Async.Move Event Task Outcome) :=
  [.call (.startOnSession "owner" "workspace" ⟨"old", .resume⟩ 4)] ++ replies 0 10 ++
    [.reply 0 (.flag false), .reply 0 (.flag false),
      .call (.execute "workspace" "two" .stop false 0 0)] ++ replies 1 4

/-- The session is reset under the request id of that Start, and the call that waits for it
publishes the Start of the reset. -/
def reusedRun : List (Async.Move Event Task Outcome) :=
  [.call (.execute "workspace" "u" .resetSession false 0 0)] ++ replies 2 4 ++ replies 0 3 ++
    [.call (.result sampleClaim
      { sampleResult .stopped 1 none none with requestId := "u", epoch := 3 })] ++ replies 3 4 ++
    replies 0 2 ++ [.reply 0 (.recovery none)] ++ replies 0 4

theorem reset_resurrects :
    (∃ t, run (@agentControl plainDigest).step sampleSystem renamedRun = some t ∧
      Resurrects sampleSystem.shared t.shared "old") ∧
    ∃ s t, run (@agentControl plainDigest).step sampleSystem selectedRun = some s ∧
      run (@agentControl plainDigest).step s reusedRun = some t ∧
      Resurrects s.shared t.shared "old" := by
  constructor
  · obtain ⟨t, hrun, hold⟩ := (Option.any_eq_true _ _).mp
      (show (run (@agentControl plainDigest).step sampleSystem renamedRun).any (fun t =>
        Resurrects sampleSystem.shared t.shared "old") by decide)
    exact ⟨t, hrun, of_decide_eq_true hold⟩
  · obtain ⟨s, hs, hlater⟩ := (Option.any_eq_true _ _).mp
      (show (run (@agentControl plainDigest).step sampleSystem selectedRun).any (fun s =>
        (run (@agentControl plainDigest).step s reusedRun).any fun t =>
          Resurrects s.shared t.shared "old") by decide)
    obtain ⟨t, ht, hold⟩ := (Option.any_eq_true _ _).mp hlater
    exact ⟨s, t, hs, ht, of_decide_eq_true hold⟩

/-- The trace of a reset whose operation goes on to its start. -/
def startsAfterReset : List Happening → Bool
  | [.published _ (.start intent), .wrote _ _ _, .published _ _, .wrote _ _ _, .wrote _ _ _,
      .wrote .begin _ c] => intent.controlEpoch = some c.epoch ∧ c.action.isReset
  | _ => false

theorem reset_starts_fresh_renamed : ∃ t state intent past before c,
      run (@agentControl plainDigest).step sampleSystem renamedRun = some t ∧
      t.shared.trace = .published state (.start intent) :: past ∧
      .wrote .begin before c ∈ t.shared.trace ∧ c.action.isReset ∧ Applied past c .stopped ∧
      ∀ sessionId ∈ intent.sessionId, Sourced past c.requestId c.epoch sessionId := by
  obtain ⟨t, hrun, htrace⟩ := (Option.any_eq_true _ _).mp
    (show (run (@agentControl plainDigest).step sampleSystem renamedRun).any
      (fun t => startsAfterReset t.shared.trace) by decide)
  unfold startsAfterReset at htrace
  split at htrace
  next state intent _ _ _ _ _ _ _ _ _ _ _ before c heq =>
    obtain ⟨hepoch, hreset⟩ := of_decide_eq_true htrace
    have hmem : .wrote .begin before c ∈ t.shared.trace := by simp [heq]
    obtain ⟨-, hstopped, -, hsourced⟩ :=
      @reset_starts_fresh plainDigest _ _ _ _ _ hrun [] _ state intent heq _ before c hmem hepoch
        hreset
    exact ⟨t, state, intent, _, before, c, hrun, heq, hmem, hreset, hstopped, hsourced⟩
  · cases htrace

end Coforge.ServerControl
