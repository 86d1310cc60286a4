import Mathlib

/-!
# Control records of an Agent

The record `AgentControl` keeps for an Agent in the daemon's in-memory store, the requests that
change it, and the results it reports to the server.
-/

namespace Coforge.Control

inductive RuntimeProvider where
  | coforge | pi | codex | claudeCode | cursor | kiro | opencode | grok | antigravity
deriving DecidableEq

inductive SessionState where
  | empty | resumable | unknown
deriving DecidableEq

structure SessionIdentity where
  sessionId : String
  state : SessionState
deriving DecidableEq

inductive SessionMode where
  | create | resume
deriving DecidableEq

/-- The scope of one control operation. The server raises the epoch with each operation. -/
structure AgentControlScope where
  protocolMajor : Nat
  requestId : String
  workspaceId : String
  computerId : String
  agentId : String
  provider : RuntimeProvider
  epoch : Nat
deriving DecidableEq

/-- A Start, less the launch configuration it hands through. The wake message is kept by its
message id. -/
structure AgentStartIntent where
  requestId : String
  workspaceId : String
  computerId : String
  agentId : String
  provider : RuntimeProvider
  sessionId : Option String
  sessionMode : Option SessionMode
  controlEpoch : Option Nat
  launchId : Option String
  wakeMessage : Option String
  resumePrompt : Option String
deriving DecidableEq

inductive ResultPhase where
  | stopped | workspaceReset | started | failed
deriving DecidableEq

structure AgentControlResult extends AgentControlScope where
  phase : ResultPhase
  launchId : Option String
  sequence : Nat
  identity : Option SessionIdentity
  errorCode : Option String
deriving DecidableEq

structure AgentSessionSnapshot extends AgentControlScope where
  launchId : String
  sequence : Nat
  identity : SessionIdentity
  daemonInstanceId : String
deriving DecidableEq

/-- The codes of an `AgentSessionRecoveryError`. -/
inductive AgentSessionRecoveryCode where
  | sessionMissing | sessionInUse | providerReplayRejected
deriving DecidableEq

inductive AgentSessionInvalidateReason where
  | missing | providerReplayRejected
deriving DecidableEq

/-- Only the two codes that say the session itself is gone have a reason. -/
def AgentSessionRecoveryCode.invalidateReason :
    AgentSessionRecoveryCode → Option AgentSessionInvalidateReason
  | .sessionMissing         => some .missing
  | .providerReplayRejected => some .providerReplayRejected
  | .sessionInUse           => none

inductive Action where
  | start | stop | resetWorkspace
deriving DecidableEq

inductive Phase where
  | stopping | clearing | workspaceReset | starting | running | stopped | failed
deriving DecidableEq

/-- `LIVE_PHASES`. -/
def Phase.live : Phase → Bool
  | .running | .starting | .stopping => true
  | _ => false

structure AgentRuntimeRecord where
  scope : AgentControlScope
  action : Action
  phase : Phase
  daemonInstanceId : String
  sequence : Nat
  identity : Option SessionIdentity
  launchId : Option String
  stopResult : Option AgentControlResult
  workspaceResetResult : Option AgentControlResult
  startResult : Option AgentControlResult
  lastResult : Option AgentControlResult
  report : Option AgentSessionSnapshot
deriving DecidableEq

/-- The errors a control call rejects with. `runtime` stands for an error of the runtime itself,
passed on as it is. -/
inductive ControlError where
  | controlEpochRequired
  | controlRecordMissing
  | staleControlRequest
  | controlRequestMismatch
  | previousControlNotCompleted
  | agentLaunchIdRequired
  | agentAlreadyRunning
  | confirmedStopRequired
  | runtime
deriving DecidableEq

/-- The `errorCode` texts of a failed result. -/
def agentLaunchIdRequired : String := "agent_launch_id_required"
def agentAlreadyRunning : String := "agent_already_running"
def launchFailed : String := "launch_failed"
def stopFailed : String := "stop_failed"
def workspaceClearFailed : String := "workspace_clear_failed"

/-- A result of an operation under `scope`. -/
def AgentControlScope.result (scope : AgentControlScope) (phase : ResultPhase) (sequence : Nat)
    (launchId : Option String) (identity : Option SessionIdentity) (errorCode : Option String) :
    AgentControlResult :=
  { scope with
    phase := phase, launchId := launchId, sequence := sequence, identity := identity,
    errorCode := errorCode }

/-- A string that JavaScript counts as true. -/
def truthy (text : Option String) : Option String := text.filter (· ≠ "")

namespace AgentRuntimeRecord

/-- `AgentSessions.capture`: the identity is kept, and one that belongs to a launch is reported
under the next sequence. -/
def capture (record : AgentRuntimeRecord) (identity : Option SessionIdentity) :
    AgentRuntimeRecord :=
  match identity, truthy record.launchId with
  | some i, some launchId =>
    if record.phase = .running ∨ record.phase = .stopped then
      { record with
        identity := some i
        sequence := record.sequence + 1
        report := some
          { record.scope with
            launchId := launchId, sequence := record.sequence + 1, identity := i,
            daemonInstanceId := record.daemonInstanceId } }
    else { record with identity := some i }
  | i, _ => { record with identity := i }

lemma capture_eq (record : AgentRuntimeRecord) (i : Option SessionIdentity) :
    ∃ n r, record.capture i = { record with identity := i, sequence := n, report := r } := by
  unfold capture
  split
  · split_ifs
    · exact ⟨_, _, rfl⟩
    · exact ⟨_, _, rfl⟩
  · exact ⟨_, _, rfl⟩

@[simp] lemma capture_phase (record : AgentRuntimeRecord) (i : Option SessionIdentity) :
    (record.capture i).phase = record.phase := by
  obtain ⟨n, r, h⟩ := record.capture_eq i
  simp [h]

@[simp] lemma capture_scope (record : AgentRuntimeRecord) (i : Option SessionIdentity) :
    (record.capture i).scope = record.scope := by
  obtain ⟨n, r, h⟩ := record.capture_eq i
  simp [h]

end AgentRuntimeRecord

/-! ### Launch failure backoff -/

/-- `LAUNCH_FAILURE_BACKOFF_BASE_MS`. -/
def launchFailureBackoffBaseMs : Nat := 1000

/-- `LAUNCH_FAILURE_BACKOFF_CAP_MS`. -/
def launchFailureBackoffCapMs : Nat := 30000

/-- `LAUNCH_FAILURE_MAX_ATTEMPTS`. -/
def launchFailureMaxAttempts : Nat := 7

def launchFailureCooldownMs (attempts : Nat) : Nat :=
  if attempts < 1 then launchFailureBackoffBaseMs
  else min (launchFailureBackoffBaseMs * 2 ^ min (attempts - 1) 30) launchFailureBackoffCapMs

end Coforge.Control
