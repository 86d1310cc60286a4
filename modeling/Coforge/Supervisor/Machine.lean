import Coforge.Supervisor.Binding
import Coforge.Lib.Serial
import Mathlib

/-!
# The operations of `MachineSupervisor`

The lifecycle mutations, the upgrade records and the store writes of the supervisor as programs
over its state. Three things run beside each other: the queue of mutations, the requests that
take over work or mark it at once, and the stop intents, which are written outside the queue.
-/

namespace Coforge.Supervisor

open Async
open Async.Prog (gets update request)

/-! ### State -/

/-- A start, stop or restart as it was requested: the sequence of the request and the Workspaces
it found. -/
structure Command where
  operation : LifecycleOperation
  workspaceId : Option String
  requestId : Option String
  sequence : Nat
  requested : List String
  deadline : Option Nat
deriving DecidableEq

/-- A piece of work in the mutation queue. -/
inductive Task where
  | recover
  | reconcile
  | configure (config : DaemonConfig) (sequence : Nat) (deadline : Option Nat)
  | command (command : Command)
  | recordUpgrade (workspaceId requestId expectedVersion : String)
  | completeUpgrade (workspaceId requestId : String) (settlement : PendingUpgradeSettlement)
  | acknowledgeUpgrade (workspaceId requestId : String)
  | recordFailure (operation : LifecycleOperation) (workspaceIds : List String) (message : String)
  | snapshot
  | resume
  | shutdown
deriving DecidableEq

/-- The errors an operation rejects with. `store` and `process` carry the text of an error of the
store or of the processes. -/
inductive SupervisorError where
  | launchesPaused
  | notRegistered
  | parked (workspaceId reason : String)
  | superseded (workspaceId : String) (takenBy : Takeover) (operation : Option LifecycleOperation)
  | unfinishedRestart (workspaceId : String)
  | notReplaced
  | expectedVersionRequired
  | differentExpectedVersion
  | operationPending (requestId : String)
  | pendingNotAcknowledged
  | recoveryIncomplete
  | store (message : String)
  | process (message : String)
deriving DecidableEq

/-- The text a failure is recorded with. A park and a takeover are no failures of this kind. -/
def SupervisorError.failureText : SupervisorError → Option String
  | .parked _ _ => none
  | .superseded _ _ _ => none
  | .launchesPaused => some "machine lifecycle is paused for upgrade"
  | .notRegistered => some "Workspace is not registered locally"
  | .unfinishedRestart workspaceId => some ("Workspace " ++ workspaceId ++
    " has an unfinished restart. Run 'coforge-computer start --workspace " ++ workspaceId ++
    "' to finish it, then restart again.")
  | .notReplaced => some "Workspace restart did not replace the old instance"
  | .expectedVersionRequired => some "upgrade expected version is required"
  | .differentExpectedVersion => some "upgrade request already has a different expected version"
  | .operationPending requestId => some ("Computer upgrade operation " ++ requestId ++
    " is still pending; wait for it to finish before starting another")
  | .pendingNotAcknowledged => some "a pending Computer upgrade operation cannot be acknowledged"
  | .recoveryIncomplete => some "Workspace recovery incomplete"
  | .store message => some message
  | .process message => some message

/-- Where the write of a stop's intent stands. While it is `writing`, it holds the store. -/
inductive IntentPhase where
  | waiting
  | writing (before next : Registry)
  | done (failure : Option String)
deriving DecidableEq

structure StopIntent where
  sequence : Nat
  workspaceIds : List String
  phase : IntentPhase
deriving DecidableEq

/-- `CommandProgress` of the command in its turn. -/
structure Progress where
  targets : Option (List String)
  done : Nat
  started : List String
  refused : Option SupervisorError
  superseded : Option SupervisorError
deriving DecidableEq

def Progress.init : Progress := ⟨none, 0, [], none, none⟩

/-- The state of the supervisor. `bindings` is what it works with and `disk` what the store
holds. `marked` are the marks of the operation in its turn, and `locked` is whether that
operation holds the store. -/
structure Machine where
  bindings : Registry
  disk : Registry
  instances : String → Option String
  inFlight : String → Option (Option Takeover)
  sequence : Nat
  supersededAt : String → Option (Nat × Takeover)
  underWay : List String
  marked : List String
  stopIntents : String → Option Nat
  intents : List StopIntent
  locked : Bool
  paused : Bool
  reloadRequired : Bool
  progress : Progress
  pending : List Task
  clock : Nat

/-- What an operation awaits. -/
inductive Effect where
  | exclusive
  | save (recorded : Option String) (next : Registry)
  | load
  | intent (sequence : Nat)
  | instance (binding : ManagedBinding)
  | start (binding : ManagedBinding)
  | stop (binding : ManagedBinding)
  | hold (binding : ManagedBinding)
  | release (binding : ManagedBinding)
  | clearHealth (binding : ManagedBinding)
  | parkedReason (binding : ManagedBinding)
  | clearParked (binding : ManagedBinding)
  | settlePending (workspaceId requestId : String) (requestedAt : Nat)
  | randomUUID

abbrev Reply : Effect → Type
  | .exclusive           => Unit
  | .save _ _            => Except String Unit
  | .load                => Except String Registry
  | .intent _            => Option String
  | .instance _          => Except String (Option String)
  | .start _             => Except SupervisorError String
  | .stop _              => Except String Unit
  | .hold _              => Unit
  | .release _           => Unit
  | .clearHealth _       => Except String Unit
  | .parkedReason _      => Except String (Option String)
  | .clearParked _       => Except String Unit
  | .settlePending _ _ _ => Option PendingUpgradeSettlement
  | .randomUUID          => String

abbrev Op (α : Type) := Prog Machine Reply SupervisorError α

namespace Machine

def stopIntended (s : Machine) (workspaceId : String) : Bool := (s.stopIntents workspaceId).isSome

/-- The binding as it may be stored: a Workspace whose stop is persisted stays stopped. -/
def toStore (s : Machine) (binding : ManagedBinding) : ManagedBinding :=
  if s.stopIntended binding.workspaceId then binding.stopped else binding

/-- The registry that `#persistStopIntent` writes. -/
def intended (s : Machine) : Registry :=
  s.bindings.map s.toStore

/-- The bindings an operation acts on. An unscoped restart leaves disabled ones alone. -/
def targets (s : Machine) (operation : LifecycleOperation) (workspaceId : Option String) :
    Registry :=
  s.bindings.filter fun b =>
    (workspaceId = none ∨ workspaceId = some b.workspaceId) ∧
      ¬ (operation = .restart ∧ workspaceId = none ∧ ¬ b.enabled)

/-- What the view reports as under way. -/
def isUnderWay (s : Machine) (workspaceId : String) : Bool :=
  (s.inFlight workspaceId).isSome || s.underWay.contains workspaceId

/-- Ends the mark of one Workspace. -/
def settle (s : Machine) (workspaceId : String) : Machine :=
  if s.marked.contains workspaceId then
    { s with
      marked := s.marked.erase workspaceId
      underWay := s.underWay.erase workspaceId }
  else s

def settleAll (s : Machine) : Machine :=
  { s with underWay := s.marked.foldl List.erase s.underWay, marked := [] }

/-- Ends a stop's hold over its Workspaces, unless a later stop took them over since. -/
def releaseStopIntents (s : Machine) (workspaceIds : List String) (sequence : Nat) : Machine :=
  { s with
    stopIntents := fun id =>
      if id ∈ workspaceIds ∧ s.stopIntents id = some sequence then none else s.stopIntents id }

def enqueue (s : Machine) (task : Task) : Machine := { s with pending := s.pending ++ [task] }

end Machine

/-! ### Calls -/

namespace Calls

def exclusive : Op Unit := request Effect.exclusive

def save (recorded : Option String) (next : Registry) : Op (Except String Unit) :=
  request (Effect.save recorded next)

def load : Op (Except String Registry) := request Effect.load

def intent (sequence : Nat) : Op (Option String) := request (Effect.intent sequence)

/-- A call of the processes whose error is passed on. -/
def orThrow {α : Type} (r : Except String α) : Op α :=
  match r with
  | .ok a    => pure a
  | .error e => throw (.process e)

def instanceOf (binding : ManagedBinding) : Op (Option String) := do
  orThrow (← request (R := Reply) (Effect.instance binding))

def start (binding : ManagedBinding) : Op (Except SupervisorError String) :=
  request (Effect.start binding)

def stop (binding : ManagedBinding) : Op Unit := do
  orThrow (← request (R := Reply) (Effect.stop binding))

def hold (binding : ManagedBinding) : Op Unit := request (Effect.hold binding)

def release (binding : ManagedBinding) : Op Unit := request (Effect.release binding)

def clearHealth (binding : ManagedBinding) : Op Unit := do
  orThrow (← request (R := Reply) (Effect.clearHealth binding))

def parkedReason (binding : ManagedBinding) : Op (Option String) := do
  orThrow (← request (R := Reply) (Effect.parkedReason binding))

def clearParked (binding : ManagedBinding) : Op Unit := do
  orThrow (← request (R := Reply) (Effect.clearParked binding))

def settlePending (workspaceId requestId : String) (requestedAt : Nat) :
    Op (Option PendingUpgradeSettlement) :=
  request (Effect.settlePending workspaceId requestId requestedAt)

def randomUUID : Op String := request Effect.randomUUID

end Calls

end Coforge.Supervisor
