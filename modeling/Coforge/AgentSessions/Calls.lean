import Coforge.AgentSessions.Reference

/-!
# The calls that select a session

`prepare`, `accept` and `retire` each read the reference, check the identity of the Workspace
daemon, and write by compare-and-set. The write comes later, so other calls may write in between.
One Agent is modelled; what the daemon identity reads as, and the ids that are made up, are given
with the calls.
-/

namespace Coforge.AgentSessions

structure AgentStartIntent where
  requestId : String
  workspaceId : String
  computerId : String
  provider : RuntimeProvider
  sessionId : Option String := none
  sessionMode : Option SessionMode := none
  previousLaunchId : Option String := none
  controlEpoch : Option Nat := none
  launchId : Option String := none
deriving DecidableEq

/-- A report as it is decoded. Its session is empty only for an empty history. -/
structure AgentSessionReport where
  workspaceId : String
  computerId : String
  provider : RuntimeProvider
  sessionId : String
  startRequestId : String
  daemonInstanceId : String
  launchId : String
  previousLaunchId : Option String := none
  replacedSessionId : Option String := none
  sessionState : Option SessionState := none
  launchId_ne : launchId ≠ ""
deriving DecidableEq

inductive Refusal where
  /-- The scope of a start, a stop or a report is not the Agent's. -/
  | notAuthorized
  | daemonUnavailable
  /-- Another session is selected while the Agent runs. -/
  | stopFirst
  | resumeRequiresSession
  | stale
deriving DecidableEq

inductive Call where
  | prepare (intent answer : AgentStartIntent)
  | accept (report : AgentSessionReport)
  | retire
deriving DecidableEq

/-- A call between its read and its write. -/
structure Pending where
  call : Call
  workspaceId : String
  previous : Option RuntimeSessionReference
  next : RuntimeSessionReference
deriving DecidableEq

section Calls

variable (a : Agent)

/-- Whether a reference is of the provider and Computer of an intent. -/
def RuntimeSessionReference.compatible (old : RuntimeSessionReference) (intent : AgentStartIntent) :
    Bool :=
  old.provider = intent.provider ∧ old.computerId = intent.computerId

def RuntimeSessionReference.sameRequest (old : RuntimeSessionReference)
    (intent : AgentStartIntent) : Bool :=
  old.compatible intent ∧ old.startRequestId = intent.requestId

/-- `compatible && (!controlled || sameRequest)`: the session of the reference may be started. -/
def RuntimeSessionReference.continues (old : RuntimeSessionReference)
    (intent : AgentStartIntent) : Bool :=
  old.compatible intent ∧ (intent.controlEpoch.isNone ∨ old.sameRequest intent)

/-- The launch in force, repeated. -/
def repeated (intent : AgentStartIntent) (old : RuntimeSessionReference) : AgentStartIntent :=
  { intent with
    requestId := old.startRequestId
    previousLaunchId := old.launchId
    sessionMode := old.sessionMode.or (some (if truthy old.sessionId then .resume else .create))
    sessionId := old.sessionId }

/-- The session that a new launch starts with. -/
def selectedSession (intent : AgentStartIntent) (old : Option RuntimeSessionReference)
    (randomUUID : String) : Option String :=
  let kept := old.filter fun old => old.continues intent ∧ old.state ≠ some .empty
  intent.sessionId.or <| (kept.bind RuntimeSessionReference.sessionId).or <|
    if intent.provider = .coforge then some randomUUID else none

def selectedMode (intent : AgentStartIntent) (old : Option RuntimeSessionReference)
    (sessionId : Option String) : SessionMode :=
  let same := old.filter fun old => old.sameRequest intent ∧ old.sessionId = sessionId
  let kept := old.filter fun old =>
    old.continues intent ∧ truthy old.sessionId ∧ old.state ≠ some .empty
  ((same.bind (·.sessionMode)).or intent.sessionMode).getD <|
    if truthy intent.sessionId then .resume
    else
      match kept with
      | some old => old.sessionMode.getD .resume
      | none => .create

/-- The launch that a new reference names: the one the intent carries, or that of the same request
to the same daemon. -/
def selectedLaunch (intent : AgentStartIntent) (old : Option RuntimeSessionReference)
    (daemonInstanceId : String) : Option String :=
  if truthy intent.launchId then intent.launchId
  else
    (old.filter fun old =>
      old.sameRequest intent ∧ old.daemonInstanceId = daemonInstanceId).bind (·.launchId)

/-- A new launch. -/
def selected (intent : AgentStartIntent) (old : Option RuntimeSessionReference)
    (daemonInstanceId randomUUID : String) : RuntimeSessionReference :=
  let sessionId := selectedSession intent old randomUUID
  { provider := intent.provider
    computerId := intent.computerId
    sessionId
    sessionMode := some (selectedMode intent old sessionId)
    startRequestId := intent.requestId
    daemonInstanceId
    launchId := selectedLaunch intent old daemonInstanceId
    state := none }

/-- The intent of a new launch. -/
def started (intent : AgentStartIntent) (next : RuntimeSessionReference) : AgentStartIntent :=
  { intent with
    previousLaunchId := none
    sessionMode := next.sessionMode
    sessionId := if truthy next.sessionId then next.sessionId else intent.sessionId }

def prepare (intent : AgentStartIntent) (currentDaemon : Option String) (randomUUID : String) :
    Except Refusal Pending :=
  if a.workspaceId ≠ intent.workspaceId ∨ a.computerId ≠ some intent.computerId ∨
      a.provider ≠ intent.provider then .error .notAuthorized
  else
    match currentDaemon.filter (· ≠ "") with
    | none => .error .daemonUnavailable
    | some daemonInstanceId =>
      match a.reference.filter fun old =>
        old.continues intent ∧ old.daemonInstanceId = daemonInstanceId with
      | some old =>
        if ¬old.sameRequest intent ∧ truthy intent.sessionId ∧ intent.sessionId ≠ old.sessionId then
          .error .stopFirst
        else
          .ok
            { call := .prepare intent (repeated intent old), workspaceId := intent.workspaceId
              previous := some old, next := old }
      | none =>
        let next := selected intent a.reference daemonInstanceId randomUUID
        if next.sessionMode = some .resume ∧ ¬truthy next.sessionId then
          .error .resumeRequiresSession
        else
          .ok
            { call := .prepare intent (started intent next), workspaceId := intent.workspaceId
              previous := a.reference, next }

/-- A reference that is unset, or that a report names or follows. -/
def follows (old : Option String) (new : String) (followed : Option String) : Bool :=
  truthy old → old = some new ∨ old = followed

def verify (report : AgentSessionReport) (currentDaemon : Option String) :
    Except Refusal RuntimeSessionReference :=
  match a.reference with
  | none => .error .stale
  | some old =>
    if a.workspaceId = report.workspaceId ∧ a.computerId = some report.computerId ∧
        a.provider = report.provider ∧ old.provider = report.provider ∧
        old.computerId = report.computerId ∧ old.startRequestId = report.startRequestId ∧
        old.daemonInstanceId = report.daemonInstanceId ∧
        follows old.launchId report.launchId report.previousLaunchId ∧
        follows old.sessionId report.sessionId report.replacedSessionId ∧
        currentDaemon = some report.daemonInstanceId then .ok old
    else .error .stale

/-- The reference after an accepted report. -/
def accepted (report : AgentSessionReport) (old : RuntimeSessionReference) :
    RuntimeSessionReference :=
  { old with
    sessionId := some report.sessionId
    sessionMode := some .resume
    launchId := some report.launchId
    state := report.sessionState }

def accept (report : AgentSessionReport) (currentDaemon : Option String) :
    Except Refusal Pending :=
  (verify a report currentDaemon).map fun old =>
    { call := .accept report, workspaceId := report.workspaceId
      previous := some old, next := accepted report old }

/-- The reference after a stop. -/
def retired (old : RuntimeSessionReference) (computerId randomUUID : String) :
    RuntimeSessionReference :=
  { old with
    provider := a.provider
    computerId
    sessionId :=
      if old.provider = a.provider ∧ old.computerId = computerId then old.sessionId else none
    startRequestId := randomUUID
    daemonInstanceId := ""
    launchId := none }

/-- `retire`: `none` where the Agent has no reference. -/
def retire (workspaceId computerId randomUUID : String) : Except Refusal (Option Pending) :=
  if a.workspaceId ≠ workspaceId ∨ a.computerId ≠ some computerId then .error .notAuthorized
  else
    .ok <| a.reference.map fun old =>
      { call := .retire, workspaceId
        previous := some old, next := retired a old computerId randomUUID }

end Calls

/-! ### Interleavings -/

structure World where
  agent : Agent
  pending : List Pending
deriving DecidableEq

inductive Event where
  /-- The daemon identity as it is read, and a new session id. -/
  | prepare (intent : AgentStartIntent) (currentDaemon : Option String) (randomUUID : String)
  | accept (report : AgentSessionReport) (currentDaemon : Option String)
  | retire (workspaceId computerId randomUUID : String)
  /-- A pending call writes, where the write scope is `granted`. -/
  | write (index : Nat) (granted : Bool)
deriving DecidableEq

inductive Reply where
  | suspended
  | refused (refusal : Refusal)
  /-- The compare-and-set failed. -/
  | changedConcurrently
  /-- The call returned. -/
  | done (call : Call)
  /-- There was no reference to retire. -/
  | nothing
deriving DecidableEq

/-- A call that has read. -/
def World.suspend (w : World) : Except Refusal Pending → Reply × World
  | .error refusal => (.refused refusal, w)
  | .ok p => (.suspended, { w with pending := w.pending ++ [p] })

/-- The write of a pending call. -/
def World.write (w : World) (index : Nat) (p : Pending) (granted : Bool) : Reply × World :=
  let pending := w.pending.eraseIdx index
  match w.agent.replace p.workspaceId p.previous p.next granted with
  | none => (.changedConcurrently, { w with pending })
  | some agent => (.done p.call, { agent, pending })

def execute (w : World) : Event → Option (Reply × World)
  | .prepare intent currentDaemon randomUUID =>
    some (w.suspend (prepare w.agent intent currentDaemon randomUUID))
  | .accept report currentDaemon => some (w.suspend (accept w.agent report currentDaemon))
  | .retire workspaceId computerId randomUUID =>
    some <|
      match retire w.agent workspaceId computerId randomUUID with
      | .error refusal => (.refused refusal, w)
      | .ok none => (.nothing, w)
      | .ok (some p) => w.suspend (.ok p)
  | .write index granted => (w.pending[index]?).map fun p => w.write index p granted

def step (w : World) (event : Event) : Option World := (execute w event).map Prod.snd

/-- The reference that a reader sees. -/
def World.reference (w : World) : Option RuntimeSessionReference := w.agent.reference

end Coforge.AgentSessions
