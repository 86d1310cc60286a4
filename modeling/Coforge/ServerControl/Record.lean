import Coforge.Control.Record

/-!
# Control records on the server

The server keeps the current control operation of an Agent in its row: which button it answers,
how far the chain of commands behind the button has come, and the fence that results and reports
of the daemon have to pass. This module has the record and the pure decisions about it.

The revision of a configuration is a digest of it. No result here rests on which one.
-/

namespace Coforge.ServerControl

open Control (RuntimeProvider SessionIdentity SessionMode AgentControlScope AgentControlResult
  AgentSessionSnapshot ResultPhase)

/-- The button, never sent as a command. -/
inductive AgentControlAction where
  | start | stop | restart | resetSession | fullReset
deriving DecidableEq

inductive AgentControlStep where
  | stop | resetWorkspace | clearSession | start
deriving DecidableEq

def chains : AgentControlAction → List AgentControlStep
  | .start        => [.start]
  | .stop         => [.stop]
  | .restart      => [.stop, .start]
  | .resetSession => [.stop, .clearSession, .start]
  | .fullReset    => [.stop, .resetWorkspace, .clearSession, .start]

inductive ControlPhase where
  | stopping | stopped | clearing | workspaceReset | starting | completed | failed
deriving DecidableEq

/-- What a command of the daemon waits for, and the phase its result brings. -/
structure CommandPhases where
  pending : ControlPhase
  result : ResultPhase
  completed : ControlPhase
deriving DecidableEq

/-- The three commands. Clearing the session is no command. -/
def commands : AgentControlStep → Option CommandPhases
  | .stop           => some ⟨.stopping, .stopped, .stopped⟩
  | .resetWorkspace => some ⟨.clearing, .workspaceReset, .workspaceReset⟩
  | .start          => some ⟨.starting, .started, .completed⟩
  | .clearSession   => none

/-- The command that a result answers. A failed result answers none in particular. -/
def commandFor (phase : ResultPhase) : Option CommandPhases :=
  ([.stop, .resetWorkspace, .start].filterMap commands).find? fun c => c.result = phase

/-- A runtime configuration: its runtime, and the rest as it is stored. -/
structure AgentRuntimeConfig where
  runtime : RuntimeProvider
  settings : String
deriving DecidableEq

class Digest where
  sha256 : AgentRuntimeConfig → String

def agentControlRevision [Digest] (config : AgentRuntimeConfig) : String := Digest.sha256 config

/-- What is stored of an operation. The identity of its session is kept with the session. -/
structure ControlState extends AgentControlScope where
  action : AgentControlAction
  phase : ControlPhase
  configRevision : String
  launchId : Option String
  launchIdentityBound : Bool
  recovered : Bool
  controlSequence : Nat
  sessionSequence : Nat
  errorCode : Option String
deriving DecidableEq

structure AgentControlState extends ControlState where
  identity : Option SessionIdentity
deriving DecidableEq

/-- The launch fence of an Agent, as it is stored. -/
structure RuntimeSession where
  provider : RuntimeProvider
  computerId : String
  sessionMode : Option SessionMode
  startRequestId : String
  daemonInstanceId : String
  launchId : Option String
deriving DecidableEq

/-- An Agent as a control operation reads it. -/
structure AgentControlAgent where
  id : String
  workspaceId : String
  computerId : String
  ownerId : String
  runtimeConfig : AgentRuntimeConfig
  storedRuntimeSession : Option RuntimeSession
  state : Option AgentControlState
  currentSessionId : Option Nat
  identity : Option SessionIdentity
  stoppedAt : Option Nat
  deletedAt : Option Nat
deriving DecidableEq

inductive ViewPhase where
  | pending | completed | failed | superseded
deriving DecidableEq

structure AgentControlView where
  requestId : String
  action : AgentControlAction
  phase : ViewPhase
  error : Option String
  recovered : Bool
deriving DecidableEq

/-- The errors of the control operations. `unavailable` stands for a failure of the database or
of the message bus. -/
inductive ControlFailure where
  | fullResetNotConfirmed
  | notAuthorized
  | agentDeleted
  | operationScopeChanged
  | configurationOrOperationChanged
  | beginAttempts
  | invalidChain
  | configurationChanged
  | launchIdMissing
  | stopSuperseded
  | stopNotCompleted
  | temporarilyUnavailable
  | staleScope
  | unexpectedCommandResult
  | unexpectedLaunchResult
  | operationFinished
  | resetRetainedSession
  | identityChanged
  | resultLostFence
  | launchNotCurrent
  | snapshotLostFence
  | sessionScopeNotAuthorized
  | daemonUnavailable
  | stopBeforeSelecting
  | sessionSelectionChanged
  | resumeRequiresSession
  | reportStale
  | sessionChanged
  | unavailable
deriving DecidableEq

/-! ### Decisions about a record -/

def terminal (state : ControlState) : Prop := state.phase = .completed ∨ state.phase = .failed

instance (state : ControlState) : Decidable (terminal state) :=
  inferInstanceAs (Decidable (_ ∨ _))

def view (state : AgentControlState) : AgentControlView where
  requestId := state.requestId
  action := state.action
  phase :=
    match state.phase with
    | .completed => .completed
    | .failed    => .failed
    | _          => .pending
  error := Control.truthy state.errorCode
  recovered := state.recovered

def supersededView (state : AgentControlState) : AgentControlView :=
  ⟨state.requestId, state.action, .superseded, none, false⟩

/-- The operation is about the Agent's Computer and configuration of now. -/
def current [Digest] (agent : AgentControlAgent) (state : AgentControlState) : Prop :=
  agent.workspaceId = state.workspaceId ∧ agent.computerId = state.computerId ∧
    agent.runtimeConfig.runtime = state.provider ∧
    agentControlRevision agent.runtimeConfig = state.configRevision

instance [Digest] (agent : AgentControlAgent) (state : AgentControlState) :
    Decidable (current agent state) :=
  inferInstanceAs (Decidable (_ ∧ _ ∧ _ ∧ _))

/-- The scopes are of one operation. -/
def sameScope (a b : AgentControlScope) : Prop :=
  a.workspaceId = b.workspaceId ∧ a.computerId = b.computerId ∧ a.agentId = b.agentId ∧
    a.provider = b.provider ∧ a.epoch = b.epoch ∧ a.requestId = b.requestId

instance (a b : AgentControlScope) : Decidable (sameScope a b) :=
  inferInstanceAs (Decidable (_ ∧ _ ∧ _ ∧ _ ∧ _ ∧ _))

/-- What of an operation may not change under a `begin` that lost its write. -/
def operationFence (state : Option AgentControlState) : Option ControlState :=
  state.map fun s =>
    { s.toControlState with sessionSequence := 0, launchIdentityBound := false, recovered := false }

/-! ### The states an operation goes through -/

/-- The operation a request begins. A `launchId` is minted for a Start. -/
def begun [Digest] (agent : AgentControlAgent) (action : AgentControlAction) (requestId : String)
    (launchId : Option String) : AgentControlState where
  protocolMajor := 1
  requestId := requestId
  workspaceId := agent.workspaceId
  computerId := agent.computerId
  agentId := agent.id
  provider := agent.runtimeConfig.runtime
  epoch := (agent.state.map (·.epoch)).getD 0 + 1
  action := action
  phase := if action = .start then .starting else .stopping
  configRevision := agentControlRevision agent.runtimeConfig
  launchId := launchId
  launchIdentityBound := false
  recovered := false
  controlSequence := 0
  sessionSequence := 0
  errorCode := none
  identity :=
    match agent.state with
    | none     => agent.identity
    | some old =>
      if old.computerId = agent.computerId ∧ old.provider = agent.runtimeConfig.runtime then
        old.identity
      else none

/-- The step that a phase between two commands has completed. -/
def completedStep : ControlPhase → Option AgentControlStep
  | .stopped        => some .stop
  | .workspaceReset => some .resetWorkspace
  | _               => none

/-- What follows a completed step: whether the session is cleared, and the next command. -/
def nextStep (action : AgentControlAction) (completed : AgentControlStep) :
    Bool × Option AgentControlStep :=
  let index := if completed ∈ chains action then (chains action).idxOf completed + 1 else 0
  if (chains action)[index]? = some .clearSession then (true, (chains action)[index + 1]?)
  else (false, (chains action)[index]?)

/-- The operation at its next command, or at its end. -/
def advanced (state : AgentControlState) (clearSession : Bool) (next : Option AgentControlStep)
    (launchId : Option String) : AgentControlState :=
  { state with
    phase := ((next.bind commands).map (·.pending)).getD .completed
    sessionSequence := 0
    identity := if clearSession then none else state.identity
    launchId := launchId }

/-- A result that names another native session than the one the operation knows. -/
def identityChanged (state : AgentControlState) (result : AgentControlResult) : Prop :=
  result.phase = .started ∧ (state.identity.any fun i => i.sessionId ≠ "") ∧
    (result.identity.any fun i => i.sessionId ≠ "") ∧
    state.identity.map (·.sessionId) ≠ result.identity.map (·.sessionId)

instance (state : AgentControlState) (result : AgentControlResult) :
    Decidable (identityChanged state result) :=
  inferInstanceAs (Decidable (_ ∧ _ ∧ _ ∧ _))

/-- The operation after a result that it takes. -/
def resulted (state : AgentControlState) (result : AgentControlResult) : AgentControlState :=
  { state with
    controlSequence := result.sequence
    phase := ((commandFor result.phase).map (·.completed)).getD .failed
    launchIdentityBound :=
      state.launchIdentityBound || (result.phase = .started && result.identity.isSome)
    recovered := state.recovered || (decide (identityChanged state result) &&
      state.identity.any fun i => i.state ≠ .empty)
    identity :=
      if result.phase = .started ∧ result.sequence < state.sessionSequence then state.identity
      else result.identity.or state.identity
    errorCode :=
      if (Control.truthy result.errorCode).isSome ∨ (Control.truthy state.errorCode).isSome then
        result.errorCode.or state.errorCode
      else none }

/-- What `result` does about the operation: nothing, for a sequence it had already, an error, or
the operation after the result. -/
def applyResult (state : AgentControlState) (result : AgentControlResult) :
    Except ControlFailure (Option AgentControlState) :=
  if result.sequence ≤ state.controlSequence then .ok none
  else if ∃ c ∈ commandFor result.phase, state.phase ≠ c.pending then
    .error .unexpectedCommandResult
  else if result.phase = .started ∧
      (Control.truthy result.launchId = none ∨ state.launchId ≠ result.launchId) then
    .error .unexpectedLaunchResult
  else if terminal state.toControlState then .error .operationFinished
  else if result.phase = .workspaceReset ∧ result.identity.isSome then
    .error .resetRetainedSession
  else if identityChanged state result ∧ state.launchIdentityBound then .error .identityChanged
  else .ok (some (resulted state result))

/-- The phases in which a launch may report its session. -/
def ControlPhase.launches : ControlPhase → Bool
  | .starting | .completed => true
  | _ => false

/-- What `AgentSessionReceiver.accept` does about the operation. -/
def applySnapshot (state : AgentControlState) (snapshot : AgentSessionSnapshot) :
    Except ControlFailure (Option AgentControlState) :=
  let changed := (state.identity.any fun i => i.sessionId ≠ "") ∧
    state.identity.map (·.sessionId) ≠ some snapshot.identity.sessionId
  if state.launchId ≠ some snapshot.launchId ∨ ¬ state.phase.launches then
    .error .launchNotCurrent
  else if snapshot.sequence ≤ state.sessionSequence then .ok none
  else if changed ∧ state.launchIdentityBound then .error .identityChanged
  else .ok (some { state with
    identity := some snapshot.identity
    sessionSequence := snapshot.sequence
    launchIdentityBound := true
    recovered := state.recovered || (decide changed && state.identity.any fun i => i.state ≠ .empty) })

end Coforge.ServerControl
