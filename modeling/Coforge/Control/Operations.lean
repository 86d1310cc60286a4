import Coforge.Control.Record
import Coforge.Lib.Serial

/-!
# The operations of `AgentControl`

Everything `AgentControl` keeps is kept for each Agent on its own: the record, the launch retry
and the queue of `AgentRuntimeState.run`. The model is the part of one Agent. Its operations are
programs of `Async.Prog`, one for each method, with an await wherever the source has one.

The store is the in-memory one. A read or a write takes effect at its call, and the caller goes
on a turn of the event loop later.
-/

namespace Coforge.Control

open Async
open Async.Prog (gets update request)

/-- The automatic retry that `#scheduleLaunchRetry` arms. -/
structure LaunchRetry where
  intent : AgentStartIntent
  scope : AgentControlScope
  launchId : String
  attempt : Nat
  delayMs : Nat
deriving DecidableEq

/-- A piece of work handed to `state.run`. A Start and a Stop carry whether the Agent was known
when they were called. -/
inductive Task where
  | start (intent : AgentStartIntent) (known : Bool)
  | retry (retry : LaunchRetry)
  | stop (scope : AgentControlScope) (known : Bool)
  | resetWorkspace (scope : AgentControlScope)
  | stopped (launchId : String) (identity : Option SessionIdentity)
  | wake (launchId : String) (identity : Option SessionIdentity)
  | updateSession (launchId : String) (identity : SessionIdentity)
  | replay
  | replaySession
deriving DecidableEq

/-- The work `#startsRunning` counts. -/
def Task.isStartRun : Task → Bool
  | .start _ _ | .retry _ => true
  | _ => false

def Task.startIntent : Task → Option AgentStartIntent
  | .start intent _ => some intent
  | _               => none

def Task.dueRetry : Task → Option LaunchRetry
  | .retry r => some r
  | _        => none

/-- A control that passed every validation. -/
inductive Accepted where
  | start (scope : AgentControlScope) (launchId : String)
  | stop (scope : AgentControlScope)
  | resetWorkspace (scope : AgentControlScope)
deriving DecidableEq

/-- What an observer of the Agent's controls sees. -/
inductive Entry where
  | accepted (control : Accepted)
  | reported (result : AgentControlResult)
  | session (report : AgentSessionSnapshot)
deriving DecidableEq

/-- The state of `AgentControl` for one Agent. `running` is whether its process runs, `history`
is what was accepted and reported, the latest entry first, and `rejections` are the errors that
control calls rejected with. -/
structure AgentState where
  instanceId : String
  known : Bool
  record : Option AgentRuntimeRecord
  launchFailures : Nat
  launchRetry : Option LaunchRetry
  startsRunning : Nat
  startsSettled : Nat
  pending : List Task
  running : Bool
  history : List Entry
  rejections : List ControlError
deriving DecidableEq

/-- The Agent at the start of a daemon process. -/
def AgentState.init (instanceId : String) : AgentState where
  instanceId := instanceId
  known := false
  record := none
  launchFailures := 0
  launchRetry := none
  startsRunning := 0
  startsSettled := 0
  pending := []
  running := false
  history := []
  rejections := []

/-- Where an operation gives up its turn of the event loop without calling out. -/
inductive Point where
  | read | required | repaired | written
deriving DecidableEq

/-- What an operation awaits. -/
inductive Effect where
  | turn (point : Point)
  | result (result : AgentControlResult)
  | session (report : AgentSessionSnapshot)
  | stop
  | launch (intent : AgentStartIntent) (launchId : String) (replaced : Option String)
      (reason : Option AgentSessionInvalidateReason)
  | rebind (intent : AgentStartIntent) (launchId : String)
  | wake (intent : AgentStartIntent)
  | clearWorkspace

inductive LaunchError where
  | recovery (code : AgentSessionRecoveryCode)
  | other
deriving DecidableEq

abbrev Reply : Effect → Type
  | .turn _         => Unit
  | .result _       => Unit
  | .session _      => Unit
  | .stop           => Except Unit (Option SessionIdentity)
  | .launch _ _ _ _ => Except LaunchError (Option SessionIdentity)
  | .rebind _ _     => Except Unit (Option SessionIdentity)
  | .wake _         => Except Unit Unit
  | .clearWorkspace => Except Unit Unit

abbrev Op (α : Type) := Prog AgentState Reply ControlError α

namespace AgentState

/-! ### Start runs and launch retries -/

def startPending (s : AgentState) : Bool :=
  0 < s.startsRunning || s.launchRetry.isSome

def beginStartRun (s : AgentState) : AgentState :=
  { s with startsRunning := s.startsRunning + 1 }

def settleIfIdle (s : AgentState) : AgentState :=
  if s.startPending then s else { s with startsSettled := s.startsSettled + 1 }

def endStartRun (s : AgentState) : AgentState :=
  { s with startsRunning := s.startsRunning - 1 }.settleIfIdle

def clearLaunchRetry (s : AgentState) : AgentState :=
  if s.launchRetry.isNone then s else { s with launchRetry := none }.settleIfIdle

/-- `LaunchFailureBackoff.reset`. -/
def resetLaunchFailures (s : AgentState) : AgentState := { s with launchFailures := 0 }

def onLaunchSucceeded (s : AgentState) : AgentState := s.resetLaunchFailures.clearLaunchRetry

def scheduleLaunchRetry (s : AgentState) (retry : LaunchRetry) : AgentState :=
  { s.clearLaunchRetry with launchRetry := some retry }

/-- The retry timer fires: the retry joins the queue as a start run. -/
def fireLaunchRetry (s : AgentState) (retry : LaunchRetry) : AgentState :=
  { s.beginStartRun with launchRetry := none, pending := s.pending ++ [.retry retry] }

def accept (s : AgentState) (control : Accepted) : AgentState :=
  { s with history := .accepted control :: s.history }

lemma settleIfIdle_eq (s : AgentState) : ∃ n, s.settleIfIdle = { s with startsSettled := n } := by
  unfold settleIfIdle
  split
  · exact ⟨_, rfl⟩
  · exact ⟨_, rfl⟩

lemma endStartRun_eq (s : AgentState) :
    ∃ n, s.endStartRun = { s with startsRunning := s.startsRunning - 1, startsSettled := n } :=
  settleIfIdle_eq _

lemma clearLaunchRetry_eq (s : AgentState) :
    ∃ n, s.clearLaunchRetry = { s with launchRetry := none, startsSettled := n } := by
  unfold clearLaunchRetry
  split
  · next h => exact ⟨s.startsSettled, by rw [← Option.isNone_iff_eq_none.mp h]⟩
  · exact settleIfIdle_eq _

@[simp] lemma clearLaunchRetry_record (s : AgentState) : s.clearLaunchRetry.record = s.record := by
  obtain ⟨n, h⟩ := s.clearLaunchRetry_eq
  rw [h]

@[simp] lemma clearLaunchRetry_history (s : AgentState) :
    s.clearLaunchRetry.history = s.history := by
  obtain ⟨n, h⟩ := s.clearLaunchRetry_eq
  rw [h]

@[simp] lemma clearLaunchRetry_pending (s : AgentState) :
    s.clearLaunchRetry.pending = s.pending := by
  obtain ⟨n, h⟩ := s.clearLaunchRetry_eq
  rw [h]

@[simp] lemma clearLaunchRetry_startsRunning (s : AgentState) :
    s.clearLaunchRetry.startsRunning = s.startsRunning := by
  obtain ⟨n, h⟩ := s.clearLaunchRetry_eq
  rw [h]

@[simp] lemma clearLaunchRetry_known (s : AgentState) : s.clearLaunchRetry.known = s.known := by
  obtain ⟨n, h⟩ := s.clearLaunchRetry_eq
  rw [h]

@[simp] lemma clearLaunchRetry_running (s : AgentState) :
    s.clearLaunchRetry.running = s.running := by
  obtain ⟨n, h⟩ := s.clearLaunchRetry_eq
  rw [h]

@[simp] lemma clearLaunchRetry_rejections (s : AgentState) :
    s.clearLaunchRetry.rejections = s.rejections := by
  obtain ⟨n, h⟩ := s.clearLaunchRetry_eq
  rw [h]

end AgentState

/-! ### Shared steps -/

def turn (point : Point) : Op Unit := request (Effect.turn point)

def readRecord : Op (Option AgentRuntimeRecord) := do
  let record ← gets (·.record)
  turn .read
  return record

def writeRecord (record : AgentRuntimeRecord) : Op Unit := do
  update fun s => { s with record := some record }
  turn .written

/-- `runtime.result(result).catch(() => {})`. -/
def report (result : AgentControlResult) : Op Unit := do
  update fun s => { s with history := .reported result :: s.history }
  request (Effect.result result)

/-- `send(report).catch(() => {})` of `AgentSessions`, if there is a report. -/
def sendSession (report : Option AgentSessionSnapshot) : Op Unit :=
  match report with
  | none => pure ()
  | some report => do
    update fun s => { s with history := .session report :: s.history }
    request (Effect.session report)

namespace Runtime

def stop : Op (Except Unit (Option SessionIdentity)) := request Effect.stop

def launch (intent : AgentStartIntent) (launchId : String) (replaced : Option String)
    (reason : Option AgentSessionInvalidateReason) :
    Op (Except LaunchError (Option SessionIdentity)) :=
  request (Effect.launch intent launchId replaced reason)

def rebind (intent : AgentStartIntent) (launchId : String) :
    Op (Except Unit (Option SessionIdentity)) :=
  request (Effect.rebind intent launchId)

def wake (intent : AgentStartIntent) : Op (Except Unit Unit) := request (Effect.wake intent)

def clearWorkspace : Op (Except Unit Unit) := request Effect.clearWorkspace

end Runtime

/-- A call of the runtime whose error is passed on. -/
def orThrow {α : Type} (r : Except Unit α) : Op α :=
  match r with
  | .ok a    => pure a
  | .error _ => throw .runtime

def requireRecord (record : Option AgentRuntimeRecord) (known : Bool) : Op Unit := do
  turn .required
  if record.isNone ∧ known then throw .controlRecordMissing else pure ()

/-- A record left in "stopping" by a Stop that failed, whose process is gone. -/
def stuckStopping (record : AgentRuntimeRecord) (running : Bool) : Prop :=
  record.phase.live ∧ ¬ running ∧ record.phase = .stopping ∧
    record.stopResult.map (·.phase) = some .failed

instance (record : AgentRuntimeRecord) (running : Bool) : Decidable (stuckStopping record running) :=
  inferInstanceAs (Decidable (_ ∧ _ ∧ _ ∧ _))

def repairStaleRecord (record : Option AgentRuntimeRecord) : Op (Option AgentRuntimeRecord) := do
  let running ← gets (·.running)
  match record with
  | none => do
    turn .repaired
    return none
  | some r =>
    if stuckStopping r running then do
      writeRecord { r with phase := .stopped }
      turn .repaired
      return some { r with phase := .stopped }
    else do
      turn .repaired
      return some r

/-- The condition under which `fence` throws. -/
def AgentControlScope.staleFor (scope : AgentControlScope) (record : AgentRuntimeRecord) : Prop :=
  record.scope.workspaceId ≠ scope.workspaceId ∨ record.scope.computerId ≠ scope.computerId ∨
    record.scope.agentId ≠ scope.agentId ∨ scope.epoch < record.scope.epoch ∨
    (record.scope.epoch = scope.epoch ∧ record.scope.provider ≠ scope.provider)

instance (scope : AgentControlScope) (record : AgentRuntimeRecord) :
    Decidable (scope.staleFor record) :=
  inferInstanceAs (Decidable (_ ∨ _ ∨ _ ∨ _ ∨ _))

def fence (record : Option AgentRuntimeRecord) (scope : AgentControlScope) : Op Unit :=
  if ∃ r ∈ record, scope.staleFor r then throw .staleControlRequest else pure ()

/-- The record, if it is of this epoch. -/
def sameEpoch (record : Option AgentRuntimeRecord) (scope : AgentControlScope) :
    Option AgentRuntimeRecord :=
  record.filter fun r => r.scope.epoch = scope.epoch

/-- `record?.scope.epoch === scope.epoch ? record.sequence : 0`. -/
def sequenceAt (record : Option AgentRuntimeRecord) (scope : AgentControlScope) : Nat :=
  ((sameEpoch record scope).map (·.sequence)).getD 0

/-- The answer to a repeated request of the same epoch. -/
def replayResult (result : AgentControlResult) (scope : AgentControlScope) (before : Op Unit) :
    Op Unit :=
  if result.requestId ≠ scope.requestId then throw .controlRequestMismatch
  else do
    before
    report result

/-! ### Stop -/

/-- What an accepted Stop does to the record, by the outcome of `runtime.stop`. -/
def stopOutcome (record : AgentRuntimeRecord) (scope : AgentControlScope)
    (resetWorkspaceRequired : Bool) :
    Except Unit (Option SessionIdentity) → AgentRuntimeRecord × AgentControlResult
  | .ok identity =>
    let record := record.capture (identity.or record.identity)
    let result := scope.result .stopped (record.sequence + 1) none record.identity none
    ({ record with
        phase := if resetWorkspaceRequired then .clearing else .stopped
        stopResult := some result, sequence := record.sequence + 1, lastResult := some result },
      result)
  | .error _ =>
    let result := scope.result .failed (record.sequence + 1) none none (some stopFailed)
    ({ record with
        phase := .stopping
        stopResult := some result, sequence := record.sequence + 1, lastResult := some result },
      result)

/-- An accepted Stop. Cancelling the retry, accepting and writing the record are one stretch. -/
def acceptStop (record : Option AgentRuntimeRecord) (scope : AgentControlScope) : Op Unit := do
  update fun s => s.clearLaunchRetry.resetLaunchFailures.accept (.stop scope)
  let resetWorkspaceRequired :=
    record.any fun r => r.action = .resetWorkspace ∧ r.phase ≠ .workspaceReset
  let instanceId ← gets (·.instanceId)
  let stopping : AgentRuntimeRecord :=
    { scope := scope
      action := if resetWorkspaceRequired then .resetWorkspace else .stop
      phase := .stopping
      daemonInstanceId := instanceId
      sequence := sequenceAt record scope
      identity := record.bind (·.identity)
      launchId := none, stopResult := none, workspaceResetResult := none, startResult := none
      lastResult := none, report := none }
  writeRecord stopping
  let reply ← Runtime.stop
  writeRecord (stopOutcome stopping scope resetWorkspaceRequired reply).1
  report (stopOutcome stopping scope resetWorkspaceRequired reply).2

def stop (scope : AgentControlScope) (known : Bool) : Op Unit := do
  let record ← readRecord
  requireRecord record known
  let record ← repairStaleRecord record
  fence record scope
  match (sameEpoch record scope).bind (·.stopResult) with
  | some result => replayResult result scope (pure ())
  | none =>
    if ∃ r ∈ sameEpoch record scope, r.phase = .failed then throw .previousControlNotCompleted
    else acceptStop record scope

/-! ### Workspace reset -/

/-- An accepted reset. A clear that fails is logged, and the reset goes on. -/
def acceptReset (record : AgentRuntimeRecord) (scope : AgentControlScope) : Op Unit := do
  update fun s => s.accept (.resetWorkspace scope)
  let clearing := { record with action := Action.resetWorkspace, phase := Phase.clearing }
  writeRecord clearing
  let cleared ← Runtime.clearWorkspace
  let result := scope.result .workspaceReset (record.sequence + 1) none none
    (match cleared with
      | .ok _    => none
      | .error _ => some workspaceClearFailed)
  writeRecord
    { clearing with
      identity := none, report := none, phase := .workspaceReset
      workspaceResetResult := some result, sequence := record.sequence + 1
      lastResult := some result }
  report result

/-- The record has a confirmed Stop of this epoch. -/
def stopConfirmed (record : Option AgentRuntimeRecord) (scope : AgentControlScope) :
    Option AgentRuntimeRecord :=
  (sameEpoch record scope).filter fun r => r.stopResult.map (·.phase) = some .stopped

def resetWorkspace (scope : AgentControlScope) : Op Unit := do
  let record ← readRecord
  let record ← repairStaleRecord record
  fence record scope
  match stopConfirmed record scope with
  | none => throw .confirmedStopRequired
  | some r => do
    update fun s => { s with known := true }
    match r.workspaceResetResult with
    | some result => replayResult result scope (pure ())
    | none => do
      let running ← gets (·.running)
      if (r.phase ≠ .stopped ∧ r.phase ≠ .clearing) ∨ r.startResult.isSome ∨ running then
        throw .confirmedStopRequired
      else acceptReset r scope

/-! ### Start -/

/-- `runtime.launch`, once more without the session when the runtime could not recover it. -/
def launchWithRecovery (intent : AgentStartIntent) (launchId : String) :
    Op (Option SessionIdentity) := do
  match ← Runtime.launch intent launchId none none with
  | .ok identity => pure identity
  | .error .other => throw .runtime
  | .error (.recovery code) =>
    match truthy intent.sessionId with
    | none => throw .runtime
    | some replaced =>
      let fresh := { intent with sessionId := none, sessionMode := some .create }
      match ← Runtime.launch fresh launchId (some replaced) code.invalidateReason with
      | .ok identity => pure identity
      | .error _     => throw .runtime

def startedResult (scope : AgentControlScope) (record : AgentRuntimeRecord) (launchId : String)
    (identity : Option SessionIdentity) : AgentControlResult :=
  scope.result .started (record.sequence + 1) (some launchId) identity none

def launchFailedResult (scope : AgentControlScope) (record : AgentRuntimeRecord)
    (launchId : String) : AgentControlResult :=
  scope.result .failed (record.sequence + 1) (some launchId) none (some launchFailed)

/-- The launch is up. -/
def launched (scope : AgentControlScope) (record : AgentRuntimeRecord) (launchId : String)
    (identity : Option SessionIdentity) : Op Unit := do
  let result := startedResult scope record launchId identity
  let record := { record with
    phase := Phase.running, startResult := some result, sequence := record.sequence + 1,
    lastResult := some result }
  writeRecord (record.capture identity)
  update AgentState.onLaunchSucceeded
  report result

/-- The launch failed: its process is stopped, and then the next attempt is armed or, once the
attempts are used up, the failure is reported. -/
def launchFailure (intent : AgentStartIntent) (scope : AgentControlScope)
    (record : AgentRuntimeRecord) (launchId : String) (attempt : Nat) : Op Unit := do
  let _ ← orThrow (← Runtime.stop)
  update fun s => { s with launchFailures := s.launchFailures + 1 }
  let attempts ← gets (·.launchFailures)
  if attempt < launchFailureMaxAttempts then do
    writeRecord record
    update fun s => s.scheduleLaunchRetry
      { intent := intent, scope := scope, launchId := launchId, attempt := attempt + 1
        delayMs := launchFailureCooldownMs attempts }
  else do
    update fun s => s.resetLaunchFailures.clearLaunchRetry
    let result := launchFailedResult scope record launchId
    writeRecord { record with
      phase := .failed, lastResult := some result, sequence := record.sequence + 1 }
    report result

def attemptStart (intent : AgentStartIntent) (scope : AgentControlScope)
    (record : AgentRuntimeRecord) (launchId : String) (attempt : Nat) : Op Unit := do
  let instanceId ← gets (·.instanceId)
  let record := { record with
    scope := scope, action := Action.start, phase := Phase.starting, launchId := some launchId,
    daemonInstanceId := instanceId, report := none }
  writeRecord record
  match ← (launchWithRecovery intent launchId).result with
  | .ok identity => launched scope record launchId identity
  | .error _     => launchFailure intent scope record launchId attempt

/-- The record of a rebound Start before and after `runtime.rebind`. -/
def rebindRunning (record : AgentRuntimeRecord) (scope : AgentControlScope)
    (intent : AgentStartIntent) (launchId : String) : Op Unit := do
  let record := { record with
    scope := scope, action := Action.start, launchId := some launchId, sequence := 0,
    stopResult := none, workspaceResetResult := none, startResult := none }
  writeRecord record
  let identity := (← orThrow (← Runtime.rebind intent launchId)).or record.identity
  let result := startedResult scope record launchId identity
  let record := { record with
    startResult := some result, sequence := record.sequence + 1, lastResult := some result }
  writeRecord (record.capture identity)
  if intent.wakeMessage.isSome ∨ intent.resumePrompt.isSome then do
    orThrow (← Runtime.wake intent)
    report result
  else report result

/-- What a Start with a launch id does about the process that is running. -/
inductive StartRoute where
  | launch
  | replace
  | rebind (record : AgentRuntimeRecord)
  | refuse
deriving DecidableEq

def runningSessionId (record : Option AgentRuntimeRecord) : Option String :=
  truthy ((record.bind (·.identity)).map (·.sessionId))

/-- The Start names another native session than that of the running process. -/
def otherSession (record : Option AgentRuntimeRecord) (intent : AgentStartIntent) : Prop :=
  (truthy intent.sessionId).isSome ∧ (runningSessionId record).isSome ∧
    truthy intent.sessionId ≠ runningSessionId record

/-- The record is that of the running process, under an older operation. -/
def rebindable (record : AgentRuntimeRecord) (scope : AgentControlScope) : Prop :=
  record.phase = .running ∧ (truthy record.launchId).isSome ∧
    record.scope.provider = scope.provider ∧ record.scope.epoch < scope.epoch

instance (record : Option AgentRuntimeRecord) (intent : AgentStartIntent) :
    Decidable (otherSession record intent) :=
  inferInstanceAs (Decidable (_ ∧ _ ∧ _))

instance (record : AgentRuntimeRecord) (scope : AgentControlScope) :
    Decidable (rebindable record scope) :=
  inferInstanceAs (Decidable (_ ∧ _ ∧ _ ∧ _))

def startRoute (record : Option AgentRuntimeRecord) (scope : AgentControlScope)
    (intent : AgentStartIntent) (running : Bool) : StartRoute :=
  if ¬ running then .launch
  else if otherSession record intent then .replace
  else
    match record with
    | some r => if rebindable r scope then .rebind r else .refuse
    | none   => .refuse

lemma startRoute_rebind {record : Option AgentRuntimeRecord} {scope : AgentControlScope}
    {intent : AgentStartIntent} {running : Bool} {r : AgentRuntimeRecord}
    (h : startRoute record scope intent running = .rebind r) :
    record = some r ∧ rebindable r scope := by
  unfold startRoute at h
  split_ifs at h
  split at h
  · split_ifs at h with hr
    cases h
    exact ⟨rfl, hr⟩
  · cases h

lemma startRoute_replace {record : Option AgentRuntimeRecord} {scope : AgentControlScope}
    {intent : AgentStartIntent} {running : Bool}
    (h : startRoute record scope intent running = .replace) : running = true := by
  unfold startRoute at h
  split_ifs at h with hrunning
  · simpa using hrunning
  · split at h
    · split_ifs at h
    · cases h

lemma startRoute_launch {record : Option AgentRuntimeRecord} {scope : AgentControlScope}
    {intent : AgentStartIntent} {running : Bool}
    (h : startRoute record scope intent running = .launch) : running = false := by
  unfold startRoute at h
  split_ifs at h with hrunning
  · split at h
    · split_ifs at h
    · cases h
  · simpa using hrunning

/-- The record a launch starts from. -/
def startRecord (record : Option AgentRuntimeRecord) (scope : AgentControlScope)
    (instanceId : String) : AgentRuntimeRecord :=
  (sameEpoch record scope).getD
    { scope := scope, action := .start, phase := .stopped, daemonInstanceId := instanceId
      sequence := 0, identity := none, launchId := none, stopResult := none
      workspaceResetResult := none, startResult := none, lastResult := none, report := none }

/-- A failed result that ends an operation that is refused. -/
def refuse (record : Option AgentRuntimeRecord) (scope : AgentControlScope) (code : String)
    (error : ControlError) : Op Unit := do
  report (scope.result .failed (sequenceAt record scope + 1) none none (some code))
  throw error

/-- A Start whose record lets it through. -/
def admitStart (record : Option AgentRuntimeRecord) (scope : AgentControlScope)
    (intent : AgentStartIntent) : Op Unit :=
  match truthy intent.launchId with
  | none => refuse record scope agentLaunchIdRequired .agentLaunchIdRequired
  | some launchId => do
    let running ← gets (·.running)
    let accept := update fun s => s.accept (.start scope launchId)
    match startRoute record scope intent running with
    | .refuse => refuse record scope agentAlreadyRunning .agentAlreadyRunning
    | .rebind r => do
      accept
      rebindRunning r scope intent launchId
    | .replace => do
      accept
      let _ ← orThrow (← Runtime.stop)
      let instanceId ← gets (·.instanceId)
      attemptStart intent scope (startRecord record scope instanceId) launchId 1
    | .launch => do
      accept
      let instanceId ← gets (·.instanceId)
      attemptStart intent scope (startRecord record scope instanceId) launchId 1

/-- A record whose operation is not over. -/
def notCompleted (record : Option AgentRuntimeRecord) (scope : AgentControlScope) : Prop :=
  ∃ r ∈ record, r.phase = .stopping ∨ r.phase = .clearing ∨ r.phase = .starting ∨
    (r.phase = .failed ∧ r.scope.epoch = scope.epoch)

/-- The Start takes the place of a launch that waits for its retry. -/
def supersedesRetry (record : Option AgentRuntimeRecord) (scope : AgentControlScope)
    (s : AgentState) : Prop :=
  (∃ r ∈ record, r.phase = .starting ∧ r.scope.epoch < scope.epoch) ∧ s.launchRetry.isSome

instance (record : Option AgentRuntimeRecord) (scope : AgentControlScope) :
    Decidable (notCompleted record scope) :=
  inferInstanceAs (Decidable (∃ _ ∈ record, _))

instance (record : Option AgentRuntimeRecord) (scope : AgentControlScope) (s : AgentState) :
    Decidable (supersedesRetry record scope s) :=
  inferInstanceAs (Decidable (_ ∧ _))

/-- The repeated Start of an epoch that has its result. -/
def replayStart (record : Option AgentRuntimeRecord) (scope : AgentControlScope)
    (intent : AgentStartIntent) (result : AgentControlResult) : Op Unit :=
  replayResult result scope do
    let running ← gets (·.running)
    if (∃ r ∈ record, r.phase = .running) ∧ running ∧ intent.wakeMessage.isSome then
      orThrow (← Runtime.wake { intent with resumePrompt := none })
    else pure ()

def AgentStartIntent.scope (intent : AgentStartIntent) (epoch : Nat) : AgentControlScope where
  protocolMajor := 1
  requestId := intent.requestId
  workspaceId := intent.workspaceId
  computerId := intent.computerId
  agentId := intent.agentId
  provider := intent.provider
  epoch := epoch

/-- A Start past the record checks. -/
def decideStart (record : Option AgentRuntimeRecord) (scope : AgentControlScope)
    (intent : AgentStartIntent) : Op Unit := do
  fence record scope
  match (sameEpoch record scope).bind (·.startResult) with
  | some result => replayStart record scope intent result
  | none => do
    let s ← Prog.read
    if supersedesRetry record scope s then do
      update fun s => s.clearLaunchRetry.resetLaunchFailures
      admitStart record scope intent
    else if notCompleted record scope then throw .previousControlNotCompleted
    else admitStart record scope intent

def start (intent : AgentStartIntent) (known : Bool) : Op Unit :=
  match intent.controlEpoch with
  | none | some 0 => throw .controlEpochRequired
  | some epoch => do
    let record ← readRecord
    requireRecord record known
    let record ← repairStaleRecord record
    decideStart record (intent.scope epoch) intent

/-- The retry still owns the record's launch. -/
def LaunchRetry.owns (retry : LaunchRetry) (record : AgentRuntimeRecord) : Prop :=
  record.phase = .starting ∧ record.scope.epoch = retry.scope.epoch ∧
    record.launchId = some retry.launchId

instance (retry : LaunchRetry) (record : AgentRuntimeRecord) : Decidable (retry.owns record) :=
  inferInstanceAs (Decidable (_ ∧ _ ∧ _))

/-- The work of the retry timer's callback. -/
def retryStart (retry : LaunchRetry) : Op Unit := do
  match ← readRecord with
  | none => pure ()
  | some record =>
    if ¬ retry.owns record then pure ()
    else do
      if ← gets (·.running) then update AgentState.onLaunchSucceeded
      else attemptStart retry.intent retry.scope record retry.launchId retry.attempt

/-! ### Reports of the runtime -/

/-- A record that is as the report expects it takes a new phase and the reported identity. -/
def moved (launchId : String) (identity : Option SessionIdentity) (source target : Phase) :
    Op Unit := do
  match ← readRecord with
  | none => pure ()
  | some record =>
    if record.phase ≠ source ∨ record.launchId ≠ some launchId then pure ()
    else writeRecord ({ record with phase := target }.capture (identity.or record.identity))

def stopped (launchId : String) (identity : Option SessionIdentity) : Op Unit :=
  moved launchId identity .running .stopped

def wake (launchId : String) (identity : Option SessionIdentity) : Op Unit :=
  moved launchId identity .stopped .running

/-- `AgentSessions.update`. -/
def updateSession (launchId : String) (identity : SessionIdentity) : Op Unit := do
  match ← readRecord with
  | none => pure ()
  | some record =>
    if record.launchId ≠ some launchId ∨ record.phase ≠ .running then pure ()
    else do
      writeRecord (record.capture (some identity))
      sendSession (record.capture (some identity)).report

def replay : Op Unit := do
  match (← readRecord).bind (·.lastResult) with
  | none => pure ()
  | some result => report result

/-- `AgentSessions.replay`. -/
def replaySession : Op Unit := do
  sendSession ((← readRecord).bind (·.report))

end Coforge.Control
