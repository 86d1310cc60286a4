import Coforge.ServerControl.Store
import Coforge.Lib.Pool

/-!
# The control operations of the server

The calls that begin an operation, carry it from command to command and take what the daemon
answers, for one Agent. They run side by side, in one process or in several: what they share is
the row of the Agent, and each read and each write of it is one await. The runtime lock is an
await like the others, and nothing here rests on what it excludes.

The trace records the writes, the published commands, where a session id came from, and the views
that callers got. It is kept for the statements only.
-/

namespace Coforge.ServerControl

open Async
open Async.Prog (request update)
open Control (RuntimeProvider SessionIdentity SessionMode SessionState AgentControlScope
  AgentControlResult AgentSessionSnapshot truthy)

/-- The messages a Start brings. -/
structure AgentRecoveryFields where
  wakeMessage : Option String
  resumeMessages : List String
  unreadSummary : List (String × Nat)
deriving DecidableEq

/-- A Start already brings unread messages of its own. -/
def carriesRecovery (intent : AgentRecoveryFields) : Bool :=
  (truthy intent.wakeMessage).isSome || !intent.resumeMessages.isEmpty ||
    !intent.unreadSummary.isEmpty

structure AgentStartIntent extends Control.AgentStartIntent where
  previousLaunchId : Option String
  resumeMessages : List String
  unreadSummary : List (String × Nat)
deriving DecidableEq

inductive Command where
  | stop (scope : AgentControlScope)
  | resetWorkspace (scope : AgentControlScope)
  | start (intent : AgentStartIntent)
deriving DecidableEq

/-- Why an operation is written. -/
inductive Cause where
  | begin
  | result (result : AgentControlResult)
  | advance
  | launchId
  | snapshot (snapshot : AgentSessionSnapshot)
  | invalidate
deriving DecidableEq

inductive Happening where
  | wrote (cause : Cause) (before : Option ControlState) (after : ControlState)
  | drew (requestId : String) (epoch : Option Nat) (sessionId : String)
  | subject (requestId : String) (sessionId : String)
  | reported (requestId : String) (epoch : Option Nat) (sessionId : String)
  | published (state : ControlState) (command : Command)
  | viewed (view : AgentControlView)
deriving DecidableEq

/-- What the calls share. `uuid` is what `crypto.randomUUID` draws, `drawn` how often it did, and
`daemon` the instance of the daemon that serves the Computer. -/
structure Server where
  row : Agent
  sessions : Nat
  uuid : Nat → { id : String // id ≠ "" }
  drawn : Nat
  daemon : Option String
  trace : List Happening

def Server.note (s : Server) (event : Happening) : Server := { s with trace := event :: s.trace }

/-- A write of an operation: what its caller read, and what it writes. -/
structure Write where
  cause : Cause
  before : AgentControlAgent
  state : AgentControlState
  clearSession : Bool := false
  stoppedAt : Option (Option Nat) := none

/-- A write of a launch fence. `reports` says that the session id is the daemon's. -/
structure FenceWrite where
  previous : Option RuntimeSessionReference
  next : RuntimeSessionReference
  scope : AgentSessionWriteScope
  reports : Bool

/-- What a call awaits. A call that `dies` is never answered. -/
inductive Effect where
  | get
  | replace (write : Write)
  | publish (state : AgentControlState) (command : Command)
  | readSession
  | replaceSession (write : FenceWrite)
  | currentDaemon
  | memberRole
  | lock
  | recovery
  | deadline
  | signal
  | dies

abbrev Reply : Effect → Type
  | .get              => Except Unit (Option AgentControlAgent)
  | .replace _        => Except ControlFailure Bool
  | .publish _ _      => Except Unit Unit
  | .readSession      => Except Unit SessionAgent
  | .replaceSession _ => Except Unit Bool
  | .currentDaemon    => Except Unit (Option String)
  | .memberRole       => Except Unit Unit
  | .lock             => Unit
  | .recovery         => Option AgentRecoveryFields
  | .deadline         => Bool
  | .signal           => Bool
  | .dies             => Empty

abbrev Op (α : Type) := Prog Server Reply ControlFailure α

/-! ### Shared steps -/

def orUnavailable {α : Type} (r : Except Unit α) : Op α :=
  match r with
  | .ok a    => pure a
  | .error _ => throw .unavailable

def get : Op (Option AgentControlAgent) := do orUnavailable (← request Effect.get)

def replace (write : Write) : Op Bool := do
  match ← request (Effect.replace write) with
  | .ok isWritten => pure isWritten
  | .error e      => throw e

def send (state : AgentControlState) (command : Command) : Op Unit := do
  orUnavailable (← request (Effect.publish state command))

def readSession : Op SessionAgent := do orUnavailable (← request Effect.readSession)

def replaceSession (write : FenceWrite) : Op Bool := do
  orUnavailable (← request (Effect.replaceSession write))

def currentDaemon : Op (Option String) := do
  return truthy (← orUnavailable (← request Effect.currentDaemon))

def readRecovery : Op (Option AgentRecoveryFields) := request Effect.recovery

def randomUUID : Op String :=
  .get fun s => .modify (fun s => { s with drawn := s.drawn + 1 }) (.ret (s.uuid s.drawn).val)

/-! ### Sessions -/

/-- What `prepare` starts from: the fence, if it is of this provider and Computer, and if the
intent may take its session over. -/
def usableReference (old : Option RuntimeSessionReference) (intent : AgentStartIntent) :
    Option RuntimeSessionReference :=
  old.filter fun o => o.provider = intent.provider ∧ o.computerId = intent.computerId ∧
    (intent.controlEpoch = none ∨ o.startRequestId = intent.requestId)

def AgentStartIntent.writeScope (intent : AgentStartIntent) : AgentSessionWriteScope :=
  ⟨intent.workspaceId, intent.requestId, intent.controlEpoch, intent.launchId⟩

/-- The session mode of a new launch. -/
def selectMode (usable : Option RuntimeSessionReference) (intent : AgentStartIntent)
    (sessionId : Option String) : SessionMode :=
  let same := usable.filter fun o => o.startRequestId = intent.requestId ∧ o.sessionId = sessionId
  let resumed := usable.filter fun o => (truthy o.sessionId).isSome ∧ o.state ≠ some .empty
  ((same.bind (·.sessionMode)).or intent.sessionMode).getD
    (if (truthy intent.sessionId).isSome then .resume
    else
      match resumed with
      | some o => o.sessionMode.getD .resume
      | none   => .create)

/-- The fence of a new launch. -/
def nextReference (usable : Option RuntimeSessionReference) (intent : AgentStartIntent)
    (daemonInstanceId : String) (sessionId : Option String) (sessionMode : SessionMode) :
    RuntimeSessionReference where
  provider := intent.provider
  computerId := intent.computerId
  sessionMode := some sessionMode
  startRequestId := intent.requestId
  daemonInstanceId := daemonInstanceId
  launchId := (truthy intent.launchId).or
    ((usable.filter fun o =>
      o.startRequestId = intent.requestId ∧ o.daemonInstanceId = daemonInstanceId).bind (·.launchId))
  sessionId := sessionId
  state := none

/-- A session id for a new launch: the intent's, that of the fence, or for the runtime that keeps
its own sessions a new one. -/
def selectSession (usable : Option RuntimeSessionReference) (intent : AgentStartIntent) :
    Op (Option String) :=
  match intent.sessionId.or ((usable.filter fun o => o.state ≠ some .empty).bind (·.sessionId)) with
  | some sessionId => pure (some sessionId)
  | none =>
    if intent.provider = .coforge then do
      let sessionId ← randomUUID
      update fun s => s.note (.drew intent.requestId intent.controlEpoch sessionId)
      return some sessionId
    else pure none

/-- `AgentSessions.prepare`: selects the session of a Start and writes its fence. -/
def prepare (intent : AgentStartIntent) : Op AgentStartIntent := do
  let agent ← readSession
  if agent.workspaceId ≠ intent.workspaceId ∨ agent.computerId ≠ some intent.computerId ∨
      agent.provider ≠ intent.provider then throw .sessionScopeNotAuthorized
  else
    match ← currentDaemon with
    | none => throw .daemonUnavailable
    | some daemonInstanceId =>
      let usable := usableReference agent.reference intent
      match usable.filter fun o => o.daemonInstanceId = daemonInstanceId with
      | some o =>
        if o.startRequestId ≠ intent.requestId ∧ (truthy intent.sessionId).isSome ∧
            intent.sessionId ≠ o.sessionId then throw .stopBeforeSelecting
        else if ← replaceSession ⟨some o, o, intent.writeScope, false⟩ then
          return { intent with
            requestId := o.startRequestId
            previousLaunchId := o.launchId
            sessionMode := some (o.sessionMode.getD
              (if (truthy o.sessionId).isSome then .resume else .create))
            sessionId := o.sessionId }
        else throw .sessionSelectionChanged
      | none => do
        let sessionId ← selectSession usable intent
        let sessionMode := selectMode usable intent sessionId
        if sessionMode = .resume ∧ truthy sessionId = none then throw .resumeRequiresSession
        else if ← replaceSession ⟨agent.reference,
            nextReference usable intent daemonInstanceId sessionId sessionMode,
            intent.writeScope, false⟩ then
          return { intent with
            previousLaunchId := none
            sessionMode := some sessionMode
            sessionId := (truthy sessionId).or intent.sessionId }
        else throw .sessionSelectionChanged

/-! ### Publishing -/

structure SubjectSession where
  sessionId : String
  sessionMode : SessionMode
deriving DecidableEq

/-- The session that `startOnSession` selected for one request. -/
abbrev Subject := Option (String × SubjectSession)

def Subject.session (subject : Subject) (requestId : String) : Option SubjectSession :=
  (subject.filter fun s => s.1 = requestId).map (·.2)

/-- A Start that ends a reset does not take the session up. -/
def resets (state : AgentControlState) : Prop :=
  state.phase ≠ .completed ∧ (state.action = .resetSession ∨ state.action = .fullReset)

instance (state : AgentControlState) : Decidable (resets state) :=
  inferInstanceAs (Decidable (_ ∧ _))

/-- The session an operation resumes. -/
def resumedSession (state : AgentControlState) : Option String :=
  if resets state then none
  else ((state.identity.filter fun i =>
    i.sessionId ≠ "" ∧ (i.state ≠ .empty ∨ state.phase = .completed)).map (·.sessionId))

/-- The Start of an operation, before its session is selected. -/
def startIntent (subject : Subject) (agent : AgentControlAgent) (state : AgentControlState)
    (launchId : Option String) (recovery : Option AgentRecoveryFields)
    (resumePrompt : Option String) : AgentStartIntent where
  requestId := state.requestId
  workspaceId := state.workspaceId
  computerId := state.computerId
  agentId := agent.id
  provider := agent.runtimeConfig.runtime
  sessionId :=
    match subject.session state.requestId with
    | some s => some s.sessionId
    | none   => resumedSession state
  sessionMode := (subject.session state.requestId).map (·.sessionMode)
  controlEpoch := some state.epoch
  launchId := truthy launchId
  wakeMessage := recovery.bind (·.wakeMessage)
  resumePrompt := resumePrompt
  previousLaunchId := none
  resumeMessages := (recovery.map (·.resumeMessages)).getD []
  unreadSummary := (recovery.map (·.unreadSummary)).getD []

def sendStop (state : AgentControlState) : Op Unit := send state (.stop state.toAgentControlScope)

def sendStart (subject : Subject) (agent : AgentControlAgent) (state : AgentControlState)
    (launchId : Option String) (recovery : Option AgentRecoveryFields)
    (resumePrompt : Option String) : Op Unit := do
  let selected ← prepare (startIntent subject agent state launchId recovery resumePrompt)
  send state (.start selected)

/-- The launch id of a Start. A row from before launch ids were minted gets one now. -/
def launchIdFor (agent : AgentControlAgent) (state : AgentControlState) : Op (Option String) :=
  match truthy state.launchId with
  | some launchId => pure (some launchId)
  | none => do
    let launchId ← randomUUID
    if ← replace { cause := .launchId, before := agent,
                   state := { state with launchId := some launchId } } then return some launchId
    else
      match (((← get).bind (·.state)).filter fun s => s.requestId = state.requestId).bind
          fun s => truthy s.launchId with
      | some launchId => return some launchId
      | none          => throw .launchIdMissing

/-- `#publish`: the command for the operation's phase. -/
def publish (subject : Subject) (agent : AgentControlAgent) (state : AgentControlState)
    (recovery : Option AgentRecoveryFields) : Op Unit :=
  match state.phase with
  | .stopping => sendStop state
  | .clearing => send state (.resetWorkspace state.toAgentControlScope)
  | .starting => do
    let recovery ←
      if recovery = none ∧ state.action ≠ .start then readRecovery else pure recovery
    let launchId ← launchIdFor agent state
    sendStart subject agent state launchId recovery none
  | .completed =>
    if recovery.isSome then sendStart subject agent state state.launchId recovery none
    else pure ()
  | _ => pure ()

variable [Digest]

/-- The Agent with its operation, if that is the one with this request and still current. -/
def currentOperation (agent : Option AgentControlAgent) (requestId : String) :
    Option (AgentControlAgent × AgentControlState) :=
  match agent with
  | none   => none
  | some a => (a.state.filter fun s => s.requestId = requestId ∧ current a s).map fun s => (a, s)

def publishCurrent (subject : Subject) (requestId : String)
    (recovery : Option AgentRecoveryFields) : Op Unit := do
  match currentOperation (← get) requestId with
  | none                => throw .configurationChanged
  | some (agent, state) => publish subject agent state recovery

/-! ### The chain -/

/-- From a completed command to the next one, and its publication. -/
def advance (subject : Subject) (requestId : String) (recovery : Option AgentRecoveryFields) :
    Op Unit := do
  match currentOperation (← get) requestId with
  | none => pure ()
  | some (agent, state) =>
    match completedStep state.phase with
    | none => publishCurrent subject requestId recovery
    | some completed =>
      let (clearSession, next) := nextStep state.action completed
      if next = some .clearSession then throw .invalidChain
      else do
        let launchId ← if next = some .start then (some <$> randomUUID) else pure none
        if ← replace { cause := .advance, before := agent,
                       state := advanced state clearSession next launchId,
                       clearSession := clearSession } then
          publishCurrent subject requestId recovery
        else pure ()

/-- `authorized`: the Agent, for its owner. -/
def authorized (userId workspaceId : String) : Op AgentControlAgent := do
  match ← get with
  | none => throw .notAuthorized
  | some agent =>
    if agent.ownerId ≠ userId ∨ agent.workspaceId ≠ workspaceId then throw .notAuthorized
    else return agent

/-- What a `begin` that lost its write does not accept. -/
def movedOn (agent refreshed : AgentControlAgent) : Prop :=
  refreshed.computerId ≠ agent.computerId ∨ refreshed.runtimeConfig ≠ agent.runtimeConfig ∨
    operationFence refreshed.state ≠ operationFence agent.state ∨
    (refreshed.state.map (·.sessionSequence)).getD 0 < (agent.state.map (·.sessionSequence)).getD 0

instance (agent refreshed : AgentControlAgent) : Decidable (movedOn agent refreshed) :=
  inferInstanceAs (Decidable (_ ∨ _ ∨ _ ∨ _))

/-- Begins an operation, with so many attempts left. -/
def begin (action : AgentControlAction) (requestId : String) (stoppedAt : Option (Option Nat)) :
    Nat → AgentControlAgent → Op AgentControlState
  | 0, _ => throw .beginAttempts
  | attempts + 1, agent =>
    match agent.state.filter fun old => old.requestId = requestId with
    | some old =>
      if old.action ≠ action ∨ ¬ current agent old then throw .operationScopeChanged
      else pure old
    | none => do
      let launchId ← if action = .start then (some <$> randomUUID) else pure none
      let state := begun agent action requestId launchId
      if ← replace { cause := .begin, before := agent, state := state,
                     stoppedAt := stoppedAt } then
        return state
      else do
        let refreshed ← authorized agent.ownerId agent.workspaceId
        if movedOn agent refreshed then throw .configurationOrOperationChanged
        else begin action requestId stoppedAt attempts refreshed

def beginAttempts : Nat := 3

/-- Waits for the operation of a request, and moves it on meanwhile. A call makes at most
`rounds` of the loop; one that used them up goes no further. -/
def drive (subject : Subject) (requestId : String) (recovery : Option AgentRecoveryFields) :
    Nat → Option ControlPhase → Bool → Op AgentControlView
  | 0, _, _ => do nomatch (← request Effect.dies)
  | rounds + 1, publishedPhase, signaled => do
    match ← get with
    | none => throw .operationScopeChanged
    | some agent =>
      match agent.state.filter fun state => current agent state with
      | none => throw .operationScopeChanged
      | some state =>
        if state.requestId ≠ requestId then return supersededView state
        else if terminal state.toControlState then return view state
        else if (completedStep state.phase).isSome then do
          advance subject requestId none
          drive subject requestId recovery rounds publishedPhase signaled
        else if (if signaled then some state.phase else publishedPhase) ≠ some state.phase then do
          match ← (publishCurrent subject requestId recovery).result with
          | .ok _ => drive subject requestId recovery rounds (some state.phase) false
          | .error _ =>
            match (← get).bind fun latest =>
                latest.state.filter fun s => s.requestId ≠ requestId ∧ current latest s with
            | some latest => return supersededView latest
            | none        => return view state
        else if ← request Effect.deadline then return view state
        else do
          let signaled ← request Effect.signal
          drive subject requestId recovery rounds (some state.phase) signaled

/-! ### Requests -/

/-- `actorRole`, as far as it refuses. -/
def actorRole : Op Unit := do
  match ← request Effect.memberRole with
  | .ok _    => pure ()
  | .error _ => throw .notAuthorized

def controllableAgent (workspaceId : String) : Op AgentControlAgent := do
  match ← get with
  | none => throw .notAuthorized
  | some agent =>
    if agent.workspaceId ≠ workspaceId then throw .notAuthorized
    else if agent.deletedAt.isSome then throw .agentDeleted
    else return agent

/-- The operation of an Agent that is already starting. -/
def starting (agent : AgentControlAgent) : Option AgentControlState :=
  agent.state.filter fun s => s.phase = .starting ∧ current agent s ∧ agent.stoppedAt = none

def execute (workspaceId requestId : String) (action : AgentControlAction) (confirmed : Bool)
    (now rounds : Nat) : Op AgentControlView :=
  if action = .fullReset ∧ ¬ confirmed then throw .fullResetNotConfirmed
  else do
    let recovery ← if action = .start then readRecovery else pure none
    request Effect.lock
    actorRole
    let agent ← controllableAgent workspaceId
    match if action = .start then starting agent else none with
    | some inFlight => drive none inFlight.requestId recovery rounds none false
    | none => do
      let stoppedAt := if action = .stop then some now else none
      let _ ← begin action requestId (some stoppedAt) beginAttempts agent
      drive none requestId recovery rounds none false

/-- A command is sent, and once more if that fails. -/
def sendTwice (op : Op Unit) : Op Unit := tryCatch op fun _ => op

/-- `stopMany`, for one Agent. -/
def stopOne (workspaceId : String) (now : Nat) : Op Unit := do
  actorRole
  request Effect.lock
  let agent ← controllableAgent workspaceId
  let requestId ← randomUUID
  let state ← begin .stop requestId (some (some now)) beginAttempts agent
  sendTwice (sendStop state)

/-- `startMany`, for one Agent. -/
def startOne (workspaceId resumePrompt : String) : Op Unit := do
  actorRole
  request Effect.lock
  let agent ← controllableAgent workspaceId
  let requestId ← randomUUID
  let state ← begin .start requestId (some none) beginAttempts agent
  sendTwice (sendStart none agent state state.launchId none (some resumePrompt))

/-- Daemon-ready recovery: the operation that is not over is published again. -/
def recover (userId workspaceId requestId : String) (intent : AgentRecoveryFields) : Op Unit := do
  let agent ← authorized userId workspaceId
  if agent.deletedAt.isSome then throw .agentDeleted
  else
    match agent.state.filter fun s => ¬ terminal s.toControlState with
    | some state => advance none state.requestId (some intent)
    | none => do
      let state ← begin .start requestId none beginAttempts agent
      publish none agent state (some intent)

/-- The operation that a Start joins: one that starts, or that ended well and was no Stop. -/
def joinable (agent : AgentControlAgent) : Option AgentControlState :=
  agent.state.filter fun s =>
    if terminal s.toControlState then s.phase ≠ .failed ∧ s.action ≠ .stop else s.action = .start

def publishStart (userId workspaceId requestId : String) (intent : AgentRecoveryFields) :
    Op Unit := do
  let agent ← authorized userId workspaceId
  if agent.deletedAt.isSome then throw .agentDeleted
  else
    match joinable agent with
    | some state => publishCurrent none state.requestId (some intent)
    | none => do
      let state ← begin .start requestId none beginAttempts agent
      let recovery ← if carriesRecovery intent then pure none else readRecovery
      publishCurrent none state.requestId (some (recovery.getD intent))

def publishStop (userId workspaceId requestId : String) (rounds : Nat) : Op AgentControlView := do
  let agent ← authorized userId workspaceId
  let state ← begin .stop requestId none beginAttempts agent
  let result ← drive none state.requestId none rounds none false
  match result.phase with
  | .completed  => return result
  | .superseded => throw .stopSuperseded
  | _           => throw .stopNotCompleted

def startOnSession (userId workspaceId : String) (session : SubjectSession) (rounds : Nat) :
    Op AgentControlView := do
  let requestId ← randomUUID
  update fun s => s.note (.subject requestId session.sessionId)
  request Effect.lock
  let agent ← authorized userId workspaceId
  if agent.deletedAt.isSome then throw .agentDeleted
  else do
    let inFlight := (starting agent).filter fun _ =>
      agent.identity.map (·.sessionId) = some session.sessionId
    let driven ← match inFlight with
      | some state => pure state.requestId
      | none => do
        let _ ← begin .start requestId (some none) beginAttempts agent
        pure requestId
    let result ← drive (some (requestId, session)) driven none rounds none false
    if result.phase = .completed then return result else throw .temporarilyUnavailable

/-! ### What the daemon sends -/

/-- Where the daemon that sends is connected. -/
structure Claim where
  workspaceId : String
  computerId : String
deriving DecidableEq

def requireCurrentAgentScope (claim : Claim) (input : AgentControlScope) :
    Op (AgentControlAgent × AgentControlState) := do
  match ← get with
  | none => throw .staleScope
  | some agent =>
    match agent.state.filter fun s => sameScope s.toAgentControlScope input ∧ current agent s with
    | none => throw .staleScope
    | some state =>
      if claim.workspaceId ≠ input.workspaceId ∨ claim.computerId ≠ input.computerId then
        throw .staleScope
      else return (agent, state)

/-- `AgentControl.result`. An operation between two commands is moved on at once. -/
def result (claim : Claim) (result : AgentControlResult) : Op Unit := do
  let (agent, state) ← requireCurrentAgentScope claim result.toAgentControlScope
  match applyResult state result with
  | .error e => throw e
  | .ok none => pure ()
  | .ok (some next) =>
    if ← replace { cause := .result result, before := agent, state := next } then
      if (completedStep next.phase).isSome then do
        let _ ← (advance none next.requestId none).result
        pure ()
      else pure ()
    else throw .resultLostFence

/-- A session that a launch reports. -/
structure AgentSessionReport where
  workspaceId : String
  computerId : String
  agentId : String
  provider : RuntimeProvider
  startRequestId : String
  daemonInstanceId : String
  launchId : String
  previousLaunchId : Option String
  sessionId : String
  replacedSessionId : Option String
  controlEpoch : Option Nat
  sequence : Option Nat
  sessionState : Option SessionState
deriving DecidableEq

def AgentSessionReport.scope (report : AgentSessionReport) : AgentControlScope where
  protocolMajor := 1
  requestId := report.startRequestId
  workspaceId := report.workspaceId
  computerId := report.computerId
  agentId := report.agentId
  provider := report.provider
  epoch := report.controlEpoch.getD 0

/-- `AgentSessionReceiver.authorize`. -/
def authorizeReport (claim : Claim) (report : AgentSessionReport) : Op Unit := do
  match ← get with
  | none => throw .sessionScopeNotAuthorized
  | some agent =>
    if agent.state = none ∧ report.controlEpoch = none then pure ()
    else do
      let (_, state) ← requireCurrentAgentScope claim report.scope
      if state.launchId ≠ some report.launchId ∨ ¬ state.phase.launches then
        throw .launchNotCurrent
      else pure ()

/-- The report is of the launch and the session that the fence has. -/
def matchesFence (report : AgentSessionReport) (agent : SessionAgent)
    (old : RuntimeSessionReference) : Prop :=
  agent.workspaceId = report.workspaceId ∧ agent.computerId = some report.computerId ∧
    agent.provider = report.provider ∧ old.provider = report.provider ∧
    old.computerId = report.computerId ∧ old.startRequestId = report.startRequestId ∧
    old.daemonInstanceId = report.daemonInstanceId ∧
    (∀ launchId ∈ truthy old.launchId,
      launchId = report.launchId ∨ some launchId = report.previousLaunchId) ∧
    ∀ sessionId ∈ truthy old.sessionId,
      sessionId = report.sessionId ∨ some sessionId = report.replacedSessionId

instance (report : AgentSessionReport) (agent : SessionAgent) (old : RuntimeSessionReference) :
    Decidable (matchesFence report agent old) :=
  inferInstanceAs (Decidable (_ ∧ _))

/-- `AgentSessions.verify`. -/
def verify (report : AgentSessionReport) : Op RuntimeSessionReference := do
  let agent ← readSession
  match agent.reference.filter fun old => matchesFence report agent old with
  | none => throw .reportStale
  | some old =>
    if (← currentDaemon) ≠ some report.daemonInstanceId then throw .reportStale else return old

/-- `AgentSessionReceiver.accept`. -/
def acceptSnapshot (claim : Claim) (snapshot : AgentSessionSnapshot) : Op Unit := do
  let (agent, state) ← requireCurrentAgentScope claim snapshot.toAgentControlScope
  match applySnapshot state snapshot with
  | .error e => throw e
  | .ok none => pure ()
  | .ok (some next) =>
    if ← replace { cause := .snapshot snapshot, before := agent, state := next } then pure ()
    else throw .snapshotLostFence

/-- `AgentSessions.accept`. -/
def acceptReport (report : AgentSessionReport) : Op Unit := do
  let old ← verify report
  let next : RuntimeSessionReference :=
    { old with
      sessionMode := some .resume
      launchId := some report.launchId
      sessionId := some report.sessionId
      state := report.sessionState }
  let scope : AgentSessionWriteScope :=
    ⟨report.workspaceId, report.startRequestId, report.controlEpoch, some report.launchId⟩
  if ← replaceSession ⟨some old, next, scope, true⟩ then pure () else throw .sessionChanged

/-- The daemon's session report: a snapshot, if it is numbered. -/
def sessionReport (claim : Claim) (report : AgentSessionReport) : Op Unit :=
  if claim.workspaceId ≠ report.workspaceId ∨ claim.computerId ≠ report.computerId then
    throw .sessionScopeNotAuthorized
  else do
    authorizeReport claim report
    match report.sequence, report.controlEpoch, report.sessionState with
    | some sequence, some _, some state => do
      let _ ← verify report
      acceptSnapshot claim
        { report.scope with
          launchId := report.launchId, sequence := sequence
          identity := ⟨report.sessionId, state⟩, daemonInstanceId := report.daemonInstanceId }
    | _, _, _ => acceptReport report

structure AgentSessionInvalidate where
  workspaceId : String
  computerId : String
  provider : RuntimeProvider
  daemonInstanceId : String
  launchId : String
  sessionId : String
deriving DecidableEq

/-- `AgentSessionReceiver.invalidate`: a session that is gone is cleared, and a report that does
not fit is ignored. -/
def invalidate (claim : Claim) (message : AgentSessionInvalidate) : Op Unit :=
  if claim.workspaceId ≠ message.workspaceId ∨ claim.computerId ≠ message.computerId then pure ()
  else do
    match ← get with
    | none => pure ()
    | some agent =>
      if agent.workspaceId ≠ message.workspaceId ∨ agent.computerId ≠ message.computerId ∨
          agent.runtimeConfig.runtime ≠ message.provider then pure ()
      else if (← orUnavailable (← request Effect.currentDaemon)) ≠ some message.daemonInstanceId then
        pure ()
      else
        match agent.state.filter fun s => s.launchId = some message.launchId ∧
            s.identity.map (·.sessionId) = some message.sessionId with
        | none => pure ()
        | some state => do
          let _ ← replace { cause := .invalidate, before := agent,
                            state := { state with identity := none }, clearSession := true }
          pure ()

end Coforge.ServerControl
