import Coforge.Lib.Pool
import Coforge.Supervisor.Upgrade
import Mathlib

/-!
# Recovery of a held Coordinator

A replacement Coordinator starts while the launch-hold of an upgrade is still in place, and runs
no Workspace until the operation that owns the hold has its verdict. `finish` is reached from the
explicit resume, from the receipt watches and from the startup sweep, any number of which are under
way at once; each of them is a call of the pool `heldRecovery`.
-/

namespace Coforge.Supervisor.HeldUpgradeRecovery

open Async
open Async.Prog (gets update request forEach)

/-- `UPGRADE_ERROR_CODE.ROLLED_BACK`. -/
def rolledBackCode : String := "UPGRADE_ROLLED_BACK"

/-- `UPGRADE_ERROR_CODE.EXPIRED_WITHOUT_RECEIPT`. -/
def expiredCode : String := "UPGRADE_EXPIRED_WITHOUT_RECEIPT"

def terminalAllowsWorkspaceRecovery (receipt : PendingUpgradeSettlement) : Bool :=
  receipt.succeeded || receipt.terminal.errorCode = some rolledBackCode

/-- `Boolean(text)`. -/
def truthy (text : Option String) : Bool :=
  text.any (· ≠ "")

def operationAllowsWorkspaceRecovery (operation : UpgradeOperation) : Bool :=
  match operation.state with
  | .pending   => false
  | .succeeded => true
  | state      =>
    if (operation.terminal.bind (·.errorCode)) = some rolledBackCode then true
    else state = .acknowledged && truthy (operation.terminal.bind (·.version)) &&
      !truthy (operation.terminal.bind (·.error)) && !truthy (operation.terminal.bind (·.errorCode))

/-- The newest operation that is pending or may release the hold. -/
def selectLegacyHeldRequestId (operations : List UpgradeOperation) : Option String :=
  let candidates := operations.filter fun o =>
    o.state = .pending || operationAllowsWorkspaceRecovery o
  (candidates.mergeSort fun l r => r.requestedAt ≤ l.requestedAt).head?.map (·.requestId)

def resolveHeldRequestId (persistedValue : Option String) (operations : List UpgradeOperation) :
    Option String :=
  match operations.find? fun o => some o.requestId = persistedValue with
  | some exactly => some exactly.requestId
  | none =>
    if persistedValue = some "upgrade" then selectLegacyHeldRequestId operations else none

/-- What a call may be rejected with. -/
inductive RecoveryError where
  | notOwner (requestId : String) (owner : Option String)
  | requestIdRequired
  | notTerminal (requestId : String)
  | cannotRelease (requestId : String)
  | workspaceRecovery
  | other
deriving DecidableEq

/-- The promise of one attempt: its number, and the call that makes the attempt. -/
structure Attempt where
  number : Nat
  call : Nat
deriving DecidableEq

/-- The upgrade operations of all bindings, by Workspace. -/
abbrev Operations : Type := List (String × List UpgradeOperation)

def Operations.all (bindings : Operations) : List UpgradeOperation :=
  bindings.flatMap (·.2)

/-- The operations that have been terminal, and a promotion or a verified rollback. -/
def Operations.verdicts (bindings : Operations) : List String :=
  (bindings.all.filter operationAllowsWorkspaceRecovery).map (·.requestId)

/-- The fields of a `HeldUpgradeRecovery`, the hold file and the durable operations. The attempts
whose `resume` has ended and the verdicts given so far are recorded as they come. -/
structure HeldState where
  active : Bool
  requestId : Option String
  finishingRequestId : Option String
  finishing : Option Attempt
  attempts : Nat
  outcomes : List (Attempt × Except RecoveryError Unit)
  heldOperation : Option UpgradeOperation
  bindings : Operations
  clock : Nat
  holdFile : Bool
  resumed : List Attempt
  verdicts : List String

/-- The durable operations change. -/
def HeldState.store (s : HeldState) (bindings : Operations) : HeldState :=
  { s with bindings := bindings, verdicts := s.verdicts ++ bindings.verdicts }

inductive HeldEffect where
  | snapshot
  | readReceipt (requestId : String)
  | complete (workspaceId requestId : String) (receipt : PendingUpgradeSettlement)
  | refreshChild (workspaceId : String)
  | join (attempt : Attempt)
  | resume (attempt : Attempt)
  | clearHold (attempt : Attempt)
  | resumeUnheld
deriving DecidableEq

def HeldEffect.Reply : HeldEffect → Type
  | .snapshot      => Except RecoveryError Operations
  | .readReceipt _ => Except RecoveryError (Option PendingUpgradeSettlement)
  | .complete ..   => Except RecoveryError Bool
  | .refreshChild _ => Unit
  | .join _ | .resume _ | .clearHold _ | .resumeUnheld => Except RecoveryError Unit

abbrev HeldOp (α : Type) : Type := Prog HeldState HeldEffect.Reply RecoveryError α

namespace HeldOp

/-- What an effect answers, or its rejection. -/
def settled {α : Type} (p : HeldOp (Except RecoveryError α)) : HeldOp α :=
  p >>= Prog.ofExcept

def snapshot : HeldOp Operations :=
  settled (request (R := HeldEffect.Reply) .snapshot)

def readReceipt (requestId : String) : HeldOp (Option PendingUpgradeSettlement) :=
  settled (request (R := HeldEffect.Reply) (.readReceipt requestId))

def complete (workspaceId requestId : String) (receipt : PendingUpgradeSettlement) :
    HeldOp Bool :=
  settled (request (R := HeldEffect.Reply) (.complete workspaceId requestId receipt))

def refreshChild (workspaceId : String) : HeldOp Unit :=
  request (R := HeldEffect.Reply) (.refreshChild workspaceId)

def join (attempt : Attempt) : HeldOp Unit :=
  settled (request (R := HeldEffect.Reply) (.join attempt))

def resume (attempt : Attempt) : HeldOp Unit :=
  settled (request (R := HeldEffect.Reply) (.resume attempt))

def clearHold (attempt : Attempt) : HeldOp Unit :=
  settled (request (R := HeldEffect.Reply) (.clearHold attempt))

def resumeUnheld : HeldOp Unit :=
  settled (request (R := HeldEffect.Reply) .resumeUnheld)

end HeldOp

/-! ### `HeldUpgradeRecovery` -/

/-- The second half of `#finish`. A fault of one Workspace does not keep the hold. -/
def releaseHold (attempt : Attempt) : HeldOp Unit := do
  tryCatch (HeldOp.resume attempt)
    (fun error => if error = .workspaceRecovery then pure () else throw error)
  HeldOp.clearHold attempt
  update fun s => { s with active := false }

/-- `#finish`. -/
def finishAttempt (settle : String → HeldOp Unit) (attempt : Attempt) (requestId : String)
    (receiptAlreadySettled : Bool) : HeldOp Unit := do
  let owner ← gets (·.requestId)
  (if owner.isSome && !receiptAlreadySettled then settle requestId else pure ())
  let active ← gets (·.active)
  if active then releaseHold attempt else pure ()

/-- The attempt as its caller awaits it: the promise settles, and then the caller goes on. -/
def awaitAttempt (attempt : Attempt) (body : HeldOp Unit) : HeldOp Unit := do
  let outcome ← body.result
  update fun s => { s with outcomes := (attempt, outcome) :: s.outcomes }
  HeldOp.join attempt

def finish (settle : String → HeldOp Unit) (call : Nat) (requestId : String)
    (receiptAlreadySettled : Bool) : HeldOp Bool := do
  let s ← Prog.read
  if !s.active then return false
  else if s.requestId.isSome ∧ s.requestId ≠ some requestId then
    throw (.notOwner requestId s.requestId)
  else
    match s.finishing with
    | some operation => do
      HeldOp.join operation
      return true
    | none => do
      let operation : Attempt := ⟨s.attempts, call⟩
      update fun s =>
        { s with attempts := s.attempts + 1, finishingRequestId := some requestId
                 finishing := some operation }
      (awaitAttempt operation
          (finishAttempt settle operation requestId receiptAlreadySettled)).andFinally
        (update fun s =>
          if s.finishing = some operation then
            { s with finishing := none, finishingRequestId := none }
          else s)
      return true

def shouldAutoFinishHeldUpgrade (s : HeldState) (requestId : String)
    (receipt : PendingUpgradeSettlement) : Bool :=
  s.active && (s.active && s.requestId = some requestId) &&
    !(s.finishingRequestId = some requestId) && terminalAllowsWorkspaceRecovery receipt

/-! ### Settling receipts -/

/-- An automatic finish finds the receipt settled, so it never settles one itself. -/
def autoFinish (call : Nat) (requestId : String) : HeldOp Bool :=
  finish (fun _ => pure ()) call requestId true

def settleUpgrade (call : Nat) (workspaceId requestId : String)
    (receipt : PendingUpgradeSettlement) : HeldOp Bool := do
  let recorded ← HeldOp.complete workspaceId requestId receipt
  if recorded then do
    HeldOp.refreshChild workspaceId
    let s ← Prog.read
    if shouldAutoFinishHeldUpgrade s requestId receipt then do
      let _ ← autoFinish call requestId
      return recorded
    else return recorded
  else return recorded

structure PendingComputerUpgrade where
  workspaceId : String
  requestId : String
  requestedAt : Nat
deriving DecidableEq

/-- `UPGRADE_OPERATION_PENDING_TTL_MS`. -/
def upgradeOperationPendingTtlMs : Nat := 30 * 60000

def expiredReceipt (operation : PendingComputerUpgrade) (now : Nat) :
    Option PendingUpgradeSettlement :=
  if now - operation.requestedAt ≤ upgradeOperationPendingTtlMs then none
  else some
    { succeeded := false
      terminal :=
        { version := none, error := some "expired without a receipt"
          errorCode := some expiredCode, instant := now } }

/-- `!requestId`. -/
def anyRequest (requestId : Option String) : Bool :=
  !truthy requestId

def pendingUpgradeOperations (bindings : Operations) (requestId : Option String) :
    List PendingComputerUpgrade :=
  bindings.flatMap fun (workspaceId, operations) =>
    (operations.filter fun o =>
        o.state = .pending && (anyRequest requestId || some o.requestId = requestId)).map
      fun o => ⟨workspaceId, o.requestId, o.requestedAt⟩

def sweepComputerUpgradeReceipts (call : Nat) (pending : List PendingComputerUpgrade) :
    HeldOp Unit :=
  forEach pending fun operation => do
    let receipt ← HeldOp.readReceipt operation.requestId
    let now ← gets (·.clock)
    match receipt.or (expiredReceipt operation now) with
    | none => pure ()
    | some receipt => do
      let _ ← settleUpgrade call operation.workspaceId operation.requestId receipt

/-- The operation of a request must be terminal, and allowed to release the hold. -/
def requireTerminalOperation (requestId : Option String) : HeldOp Unit :=
  if anyRequest requestId then throw .requestIdRequired
  else do
    let bindings ← HeldOp.snapshot
    match bindings.all.find? fun o => some o.requestId = requestId with
    | none => throw (.notTerminal (requestId.getD ""))
    | some operation =>
      if operation.state = .pending then throw (.notTerminal (requestId.getD ""))
      else if !operationAllowsWorkspaceRecovery operation then
        throw (.cannotRelease (requestId.getD ""))
      else pure ()

def settlePendingUpgradeOperations (call : Nat) (requireTerminal : Bool)
    (requestId : Option String) : HeldOp Unit :=
  tryCatch
    (do
      let bindings ← HeldOp.snapshot
      sweepComputerUpgradeReceipts call (pendingUpgradeOperations bindings requestId)
      if requireTerminal then requireTerminalOperation requestId else pure ())
    (fun error => if requireTerminal then throw error else pure ())

/-- The `settle` that the Coordinator gives its recovery. -/
def settleHeld (call : Nat) (requestId : String) : HeldOp Unit :=
  settlePendingUpgradeOperations call true (some requestId)

/-! ### The calls of the Coordinator -/

/-- The startup, an explicit resume, a check of a receipt watch, and a launch that failed. -/
inductive HeldCall where
  | startup
  | resume (requestId : String)
  | check (operation : PendingComputerUpgrade)
  | complete (workspaceId requestId : String) (receipt : PendingUpgradeSettlement)
deriving DecidableEq

def heldBody (call : Nat) : HeldCall → HeldOp Unit
  | .startup => do
    let s ← Prog.read
    match s.heldOperation with
    | some operation =>
      if s.active && operationAllowsWorkspaceRecovery operation then do
        let _ ← finish (settleHeld call) call operation.requestId true
      else pure ()
    | none => pure ()
    settlePendingUpgradeOperations call false none
  | .resume requestId => do
    let active ← gets (·.active)
    if active then do
      let _ ← finish (settleHeld call) call requestId false
    else HeldOp.resumeUnheld
  | .check operation => sweepComputerUpgradeReceipts call [operation]
  | .complete workspaceId requestId receipt => do
    let _ ← settleUpgrade call workspaceId requestId receipt

/-- How an effect turns out: it is done, it fails, or it fails after it took effect. A receipt is
what the file holds at that moment. -/
inductive HeldOutcome where
  | done
  | found (receipt : Option PendingUpgradeSettlement)
  | failed (error : RecoveryError)
  | lost (error : RecoveryError)
deriving DecidableEq

/-- An effect that changes the state or fails. -/
def HeldOutcome.apply {α : Type} (change : α × HeldState) (s : HeldState) :
    HeldOutcome → Option (Except RecoveryError α × HeldState)
  | .done         => some (.ok change.1, change.2)
  | .found _      => none
  | .failed error => some (.error error, s)
  | .lost error   => some (.error error, change.2)

/-- `supervisor.completeUpgrade`: a pending operation is settled once. -/
def HeldState.complete (s : HeldState) (workspaceId requestId : String)
    (receipt : PendingUpgradeSettlement) : Bool × HeldState :=
  match s.bindings.find? fun b => b.1 = workspaceId with
  | none => (false, s)
  | some (_, operations) =>
    match (findOperation operations requestId).filter (·.state = .pending) with
    | none => (false, s)
    | some _ =>
      (true, s.store (s.bindings.map fun b =>
        if b.1 = workspaceId then (b.1, editOperation b.2 requestId (·.settled receipt)) else b))

def heldAnswer : (e : HeldEffect) → HeldOutcome → HeldState → Option (e.Reply × HeldState)
  | .snapshot, o, s => o.apply (s.bindings, s) s
  | .readReceipt _, o, s =>
    match o with
    | .found receipt => some (.ok receipt, s)
    | .failed error  => some (.error error, s)
    | _              => none
  | .complete workspaceId requestId receipt, o, s =>
    o.apply (s.complete workspaceId requestId receipt) s
  | .refreshChild _, .done, s => some ((), s)
  | .refreshChild _, _, _ => none
  | .join attempt, .done, s => (s.outcomes.lookup attempt).map fun outcome => (outcome, s)
  | .join _, _, _ => none
  | .resume attempt, o, s =>
    (o.apply ((), s) s).map fun (r, t) => (r, { t with resumed := attempt :: t.resumed })
  | .clearHold _, o, s => o.apply ((), { s with holdFile := false }) s
  | .resumeUnheld, o, s => o.apply ((), s) s

/-- What happens besides: other operations of the Coordinator change the bindings, and time
passes. -/
inductive HeldEvent where
  | store (bindings : Operations)
  | tick (now : Nat)
deriving DecidableEq

def heldEvent (s : HeldState) : HeldEvent → Option HeldState
  | .store bindings => some (s.store bindings)
  | .tick now => if s.clock ≤ now then some { s with clock := now } else none

def heldRecovery : Pool HeldState HeldEvent HeldCall HeldOutcome HeldEffect.Reply RecoveryError where
  event := heldEvent
  body := heldBody
  answer := heldAnswer

/-- The Coordinator at its start. The text of the hold file is absent when nothing is held. -/
def HeldState.boot (persisted : Option String) (bindings : Operations) (now : Nat) : HeldState where
  active := persisted.isSome
  requestId := resolveHeldRequestId persisted bindings.all
  finishingRequestId := none
  finishing := none
  attempts := 0
  outcomes := []
  heldOperation :=
    bindings.all.find? fun o => some o.requestId = resolveHeldRequestId persisted bindings.all
  bindings := bindings
  clock := now
  holdFile := persisted.isSome
  resumed := []
  verdicts := bindings.verdicts

end Coforge.Supervisor.HeldUpgradeRecovery
