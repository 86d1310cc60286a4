import Coforge.Supervisor.Lifecycle

/-!
# Upgrade operations

The three operations on the upgrade records of a binding, and the record of a failure that came
after its command had answered.
-/

namespace Coforge.Supervisor

open Async
open Async.Prog (gets update request forEach)
open History (sliceLast)

/-- The operation settled by the receipt of its job. -/
def UpgradeOperation.settled (operation : UpgradeOperation)
    (settlement : PendingUpgradeSettlement) : UpgradeOperation :=
  { operation with state := settlement.status, terminal := some settlement.terminal }

/-- One operation, found by its request id, is replaced. -/
def editOperation (operations : List UpgradeOperation) (requestId : String)
    (edit : UpgradeOperation → UpgradeOperation) : List UpgradeOperation :=
  operations.map fun o => if o.requestId = requestId then edit o else o

/-- The history with one more pending operation. -/
def openOperation (operations : List UpgradeOperation) (requestId expectedVersion : String)
    (requestedAt : Nat) : List UpgradeOperation :=
  sliceLast upgradeOperationHistory
    (operations ++ [{ requestId := requestId, expectedVersion := expectedVersion, state := .pending
                      requestedAt := requestedAt, terminal := none }])

def findOperation (operations : List UpgradeOperation) (requestId : String) :
    Option UpgradeOperation :=
  operations.find? fun o => o.requestId = requestId

/-- The operations a new one may follow: a pending one is settled first, or blocks it. -/
def unblockedOperations (binding : ManagedBinding) : Op (List UpgradeOperation) := do
  match binding.operations.find? fun o => o.state = .pending with
  | none => return binding.operations
  | some pending =>
    match ← Calls.settlePending binding.workspaceId pending.requestId pending.requestedAt with
    | none => throw (.operationPending pending.requestId)
    | some settlement =>
      return editOperation binding.operations pending.requestId (·.settled settlement)

/-- Opens an operation in the binding. The answer is whether its job has to be launched. -/
def recordIn (binding : ManagedBinding) (requestId expectedVersion : String) : Op Bool := do
  if expectedVersion = "" then throw .expectedVersionRequired
  else
    match findOperation binding.operations requestId with
    | some existing =>
      if existing.expectedVersion ≠ expectedVersion then throw .differentExpectedVersion
      else return false
    | none => do
      let operations ← unblockedOperations binding
      let now ← gets (·.clock)
      let _ ← saveBinding (some binding.workspaceId)
        { binding with
          upgradeOperations := some (openOperation operations requestId expectedVersion now) }
      return true

def recordUpgrade (workspaceId requestId expectedVersion : String) : Op Bool := do
  assertMutable
  refresh
  let bindings ← gets (·.bindings)
  match bindings.find workspaceId with
  | none => throw .notRegistered
  | some binding => recordIn binding requestId expectedVersion

def completeUpgrade (workspaceId requestId : String) (settlement : PendingUpgradeSettlement) :
    Op Bool := do
  refresh
  let bindings ← gets (·.bindings)
  match bindings.find workspaceId with
  | none => return false
  | some binding =>
    match (findOperation binding.operations requestId).filter (·.state = .pending) with
    | none => return false
    | some _ => do
      let _ ← saveBinding none
        { binding with
          upgradeOperations := some
            (editOperation binding.operations requestId (·.settled settlement)) }
      return true

def acknowledgeUpgrade (workspaceId requestId : String) : Op Bool := do
  refresh
  let bindings ← gets (·.bindings)
  match bindings.find workspaceId with
  | none => return false
  | some binding =>
    match findOperation binding.operations requestId with
    | none => return false
    | some operation =>
      match operation.state with
      | .acknowledged => return true
      | .pending      => throw .pendingNotAcknowledged
      | _ => do
        let _ ← saveBinding none
          { binding with
            upgradeOperations := some
              (editOperation binding.operations requestId
                fun o => { o with state := .acknowledged }) }
        return true

/-- The text of `lastFailure`: at most 500 characters, and never empty. -/
def failureMessage (operation : String) (text : String) : String :=
  String.ofList ((if text = "" then
    "The " ++ operation ++ " failed without a reason; the Computer log has the details."
    else text).toList.take 500)

def recordFailure (operation : LifecycleOperation) (workspaceIds : List String)
    (message : String) : Op Unit := do
  refresh
  forEach workspaceIds fun id => do
    let s ← Prog.read
    match s.bindings.find id with
    | none => pure ()
    | some b => do
      let _ ← saveBinding none
        { b with
          lastFailure := some { operation := operation, message := message, instant := s.clock } }

end Coforge.Supervisor
