import Coforge.Supervisor.Machine

/-!
# Lifecycle work

The store writes, the steps that start, stop and restart one Workspace, and the operations built
from them.
-/

namespace Coforge.Supervisor

open Async
open Async.Prog (gets update request forEach)

/-! ### The store -/

/-- `#exclusive`. -/
def exclusive {α : Type} (write : Op α) : Op α := do
  Calls.exclusive
  write.andFinally (update fun s => { s with locked := false })

/-- `#store`. A failed save may have committed, so the registry is read again before it is used.
`recorded` names the Workspace for which `next` holds a new upgrade operation. -/
def store (recorded : Option String) (next : Registry) : Op Unit := do
  match ← Calls.save recorded next with
  | .ok _    => update fun s => { s with bindings := next }
  | .error e => do
    update fun s => { s with reloadRequired := true }
    throw (.store e)

def reloadIfRequired : Op Unit := do
  if ← gets (·.reloadRequired) then do
    match ← Calls.load with
    | .ok bindings => update fun s => { s with bindings := bindings, reloadRequired := false }
    | .error e     => throw (.store e)
  else pure ()

def refresh : Op Unit := exclusive reloadIfRequired

/-- `#saveBinding`: a Workspace that a stop already persisted stays stopped. -/
def saveBinding (recorded : Option String) (binding : ManagedBinding) : Op ManagedBinding := do
  let stored ← gets fun s => s.toStore binding
  exclusive do
    let bindings ← gets (·.bindings)
    store recorded (bindings.replace stored)
  return stored

def clearFailure (workspaceId : String) : Op Unit := do
  let bindings ← gets (·.bindings)
  match bindings.find workspaceId with
  | none => pure ()
  | some b =>
    if b.lastFailure.isSome then do
      let _ ← saveBinding none { b with lastFailure := none }
    else pure ()

def assertMutable : Op Unit := do
  if ← gets (·.paused) then throw .launchesPaused else pure ()

/-! ### One Workspace -/

/-- `#track`: the work can be aborted under this name until it ends. -/
def track {α : Type} (workspaceId : String) (work : Op α) : Op α := do
  update fun s => { s with inFlight := Function.update s.inFlight workspaceId (some none) }
  work.andFinally
    (update fun s => { s with inFlight := Function.update s.inFlight workspaceId none })

/-- `signal.throwIfAborted()`. -/
def throwIfAborted (workspaceId : String) : Op Unit := do
  match ← gets (·.inFlight workspaceId) with
  | some (some takenBy) => throw (.superseded workspaceId takenBy none)
  | _                   => pure ()

/-- `#stop`. -/
def stopWorkspace (binding : ManagedBinding) : Op Unit := do
  Calls.stop binding
  update fun s => { s with instances := Function.update s.instances binding.workspaceId none }

/-- The part of `#start` after no living instance was found. -/
def launchWorkspace (binding : ManagedBinding) : Op String := do
  update fun s => { s with instances := Function.update s.instances binding.workspaceId none }
  throwIfAborted binding.workspaceId
  match ← Calls.start binding with
  | .error e => throw e
  | .ok instanceId => do
    update fun s =>
      { s with instances := Function.update s.instances binding.workspaceId (some instanceId) }
    return instanceId

/-- `#start`: an instance that is known and still there is adopted. -/
def startWorkspace (binding : ManagedBinding) : Op String := do
  match ← gets (·.instances binding.workspaceId) with
  | none => launchWorkspace binding
  | some expected => do
    let live ← Calls.instanceOf binding
    if live = some expected then return expected else launchWorkspace binding

/-- The second half of a restart. -/
def finishRestart (binding : ManagedBinding) (restart : RestartProgress) : Op Unit := do
  let instanceId ← startWorkspace binding
  if some instanceId = restart.previousInstanceId then throw .notReplaced
  else do
    let _ ← saveBinding none
      { binding with
        restart := none
        restartResults := some
          (binding.appendRestartResult ⟨restart.requestId, .completed instanceId⟩) }

/-- Stops the instance a restart replaces. A daemon that survives is not left held. -/
def stopForRestart (binding : ManagedBinding) (live : Option String) : Op Unit := do
  if live.isSome then Calls.hold binding else pure ()
  throwIfAborted binding.workspaceId
  tryCatch (stopWorkspace binding) fun e => do
    if live.isSome then Calls.release binding else pure ()
    throw e

/-- `#advanceRestart`. A binding whose restart a stop has removed is an error there too. -/
def advanceRestart (binding : ManagedBinding) : Op Unit := do
  match binding.restart with
  | none => throw (.process "undefined is not an object (evaluating 'restart.phase')")
  | some restart =>
    if restart.phase = .stopping then do
      let live ← Calls.instanceOf binding
      if live = none ∨ live = restart.previousInstanceId then stopForRestart binding live
      else pure ()
      let binding ← saveBinding none
        { binding with restart := some { restart with phase := .starting } }
      finishRestart binding restart
    else finishRestart binding restart

/-- A new restart is recorded before it begins. -/
def beginRestart (binding : ManagedBinding) (requestId : String) : Op ManagedBinding := do
  match binding.restart with
  | some _ => return binding
  | none => do
    let live ← Calls.instanceOf binding
    saveBinding none
      { binding with
        enabled := true
        restart := some { requestId := requestId, phase := .stopping, previousInstanceId := live } }

/-- The restart branch of `#startForOperator`: false for a request that is completed already. -/
def restartForOperator (binding : ManagedBinding) (requestId : String) : Op Bool := do
  match (binding.restartResults.getD []).find? (·.requestId = requestId) with
  | some ⟨_, .cancelled takenBy⟩ =>
    throw (.superseded binding.workspaceId (takenBy.getD .stop) (some .restart))
  | some ⟨_, .completed _⟩ => return false
  | none =>
    if ∃ r ∈ binding.restart, r.requestId ≠ requestId then
      throw (.unfinishedRestart binding.workspaceId)
    else do
      advanceRestart (← beginRestart binding requestId)
      return true

/-- `#startForOperator`. -/
def startForOperator (operation : LifecycleOperation) (binding : ManagedBinding)
    (requestId : Option String) : Op Bool := do
  Calls.clearHealth binding
  if operation = .restart then do
    match requestId with
    | some id => restartForOperator binding id
    | none    => restartForOperator binding (← Calls.randomUUID)
  else if binding.restart.isSome then do
    advanceRestart binding
    return true
  else do
    let _ ← startWorkspace (← saveBinding none { binding with enabled := true })
    return true

/-! ### Commands -/

/-- `progress.refused ??= error`. -/
def refuse (error : SupervisorError) : Op Unit :=
  update fun s =>
    { s with progress := { s.progress with refused := s.progress.refused.or (some error) } }

/-- `progress.superseded ??= error`. -/
def supersede (error : SupervisorError) : Op Unit :=
  update fun s =>
    { s with progress := { s.progress with superseded := s.progress.superseded.or (some error) } }

/-- The restart was never seen by this binding, so its cancellation has to be recorded. -/
def unseenRestart (command : Command) (binding : ManagedBinding) (requestId : String) : Prop :=
  command.operation = .restart ∧ requestId ≠ "" ∧
    (∀ r ∈ binding.restart, r.requestId ≠ requestId) ∧
    (binding.restartResults.getD []).all fun r => r.requestId ≠ requestId

instance (command : Command) (binding : ManagedBinding) (requestId : String) :
    Decidable (unseenRestart command binding requestId) :=
  inferInstanceAs (Decidable (_ ∧ _ ∧ _ ∧ _))

/-- A start or restart of a Workspace that a later stop or configure took over. -/
def skipSuperseded (command : Command) (binding : ManagedBinding) (takenBy : Takeover) :
    Op Unit := do
  supersede (.superseded binding.workspaceId takenBy (some command.operation))
  match command.requestId with
  | none => pure ()
  | some id =>
    if unseenRestart command binding id then do
      let _ ← saveBinding none
        { binding with
          restartResults := some (binding.appendRestartResult ⟨id, .cancelled (some takenBy)⟩) }
    else pure ()

/-- A start or restart of a Workspace as an operator asked for it. What parks it or takes it over
is an answer of the command, and the rest still start. -/
def runTarget (command : Command) (binding : ManagedBinding) : Op Unit :=
  tryCatch
    (do
      let started ← track binding.workspaceId
        (startForOperator command.operation binding command.requestId)
      if started then
        update fun s =>
          { s with progress := { s.progress with
              started := s.progress.started ++ [binding.workspaceId] } }
      else pure ()
      clearFailure binding.workspaceId)
    fun e =>
      match e with
      | .parked id reason          => refuse (.parked id reason)
      | .superseded _ takenBy _    =>
        supersede (.superseded binding.workspaceId takenBy (some command.operation))
      | e                          => throw e

/-- One target of a start or restart. -/
def startTarget (command : Command) (binding : ManagedBinding) : Op Unit := do
  match ← Calls.parkedReason binding with
  | some reason =>
    if command.workspaceId.isSome ∨ binding.enabled then
      refuse (.parked binding.workspaceId reason)
    else pure ()
  | none => do
    match (← gets (·.supersededAt binding.workspaceId)).filter (·.1 > command.sequence) with
    | some (_, takenBy) => skipSuperseded command binding takenBy
    | none              => runTarget command binding

/-- One target of a stop. -/
def stopTarget (binding : ManagedBinding) : Op Unit := do
  let stored ← saveBinding none binding.stopped
  stopWorkspace stored
  clearFailure binding.workspaceId

def handleTarget (command : Command) (binding : ManagedBinding) : Op Unit := do
  if command.operation = .stop then stopTarget binding else startTarget command binding
  update fun s =>
    { s with progress := { s.progress with done := s.progress.done + 1 } }.settle
      binding.workspaceId

/-- `throw` of what a command recorded on its way. -/
def throwIfSome (error : Option SupervisorError) : Op Unit :=
  match error with
  | some e => throw e
  | none   => pure ()

/-- `#command`, past the pause. -/
def runCommand (command : Command) : Op Unit := do
  refresh
  let s ← Prog.read
  if ∃ id ∈ command.workspaceId, (s.bindings.find id).isNone then throw .notRegistered
  else do
    let targets := s.targets command.operation command.workspaceId
    update fun s =>
      { s with progress := { s.progress with targets := some (targets.map (·.workspaceId)) } }
    forEach targets (handleTarget command)
    throwIfSome (← gets (·.progress.refused))
    throwIfSome (← gets (·.progress.superseded))

/-- `configure`, past the pause. -/
def runConfigure (config : DaemonConfig) : Op Unit := do
  refresh
  let previous := (← gets (·.bindings)).find config.workspaceId
  match previous with
  | some b => stopWorkspace b
  | none   => pure ()
  let binding := ManagedBinding.configured config previous
  Calls.clearParked binding
  let _ ← saveBinding none binding
  let _ ← track binding.workspaceId (startWorkspace binding)
  clearFailure binding.workspaceId

/-! ### Reconciliation -/

/-- One binding of `#reconcileBindings`. -/
def reconcileBinding (binding : ManagedBinding) : Op Unit := do
  if ¬ binding.enabled then do
    stopWorkspace binding
    clearFailure binding.workspaceId
  else
    match ← Calls.parkedReason binding with
    | some _ => pure ()
    | none   => do
      if binding.restart.isSome then track binding.workspaceId (advanceRestart binding)
      else do
        let _ ← track binding.workspaceId (startWorkspace binding)
      clearFailure binding.workspaceId

/-- The loop of `#reconcileBindings`, which returns the number of failures. -/
def reconcileEach : List String → Op Nat
  | [] => pure 0
  | id :: ids => do
    refresh
    let bindings ← gets (·.bindings)
    let outcome ← (match bindings.find id with
      | none => throw (.process "undefined is not an object (evaluating 'binding.enabled')")
      | some b => reconcileBinding b : Op Unit).result
    let failures ← reconcileEach ids
    match outcome with
    | .ok _    => return failures
    | .error _ => return failures + 1

def reconcileBindings : Op Unit := do
  let bindings ← gets (·.bindings)
  let failures ← reconcileEach (bindings.map (·.workspaceId))
  if failures = 0 then pure () else throw .recoveryIncomplete

def reconcile : Op Unit := do
  if ← gets (·.paused) then pure ()
  else do
    refresh
    reconcileBindings

def resume : Op Unit := do
  update fun s => { s with paused := false }
  refresh
  reconcileBindings

def shutdown : Op Unit := do
  let bindings ← gets (·.bindings)
  forEach bindings stopWorkspace

end Coforge.Supervisor
