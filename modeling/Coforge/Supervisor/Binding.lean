import Coforge.Lib.History
import Mathlib

/-!
# Managed bindings

The record the machine keeps for each Workspace, and the edits a stop and a configure make to it.
-/

namespace Coforge.Supervisor

open History (sliceLast)

structure DaemonConfig where
  workspaceId : String
  computerId : String
  workspaceRoot : String
  serverHttpUrl : Option String
deriving DecidableEq

inductive RestartPhase where
  | stopping | starting
deriving DecidableEq

structure RestartProgress where
  requestId : String
  phase : RestartPhase
  previousInstanceId : Option String
deriving DecidableEq

/-- What takes over a start or a restart. -/
inductive Takeover where
  | stop | configure
deriving DecidableEq

inductive RestartStatus where
  | completed (instanceId : String)
  | cancelled (takenBy : Option Takeover)
deriving DecidableEq

structure RestartResult where
  requestId : String
  status : RestartStatus
deriving DecidableEq

inductive UpgradeOperationState where
  | pending | succeeded | failed | acknowledged
deriving DecidableEq

structure UpgradeOperationTerminal where
  version : Option String
  error : Option String
  errorCode : Option String
  instant : Nat
deriving DecidableEq

structure UpgradeOperation where
  requestId : String
  expectedVersion : String
  state : UpgradeOperationState
  requestedAt : Nat
  terminal : Option UpgradeOperationTerminal
deriving DecidableEq

/-- An entry of the list that upgrade operations replaced. -/
structure LegacyUpgradeRequest where
  requestId : String
  expectedVersion : String
deriving DecidableEq

inductive LifecycleOperation where
  | start | restart | stop | configure
deriving DecidableEq

structure LifecycleFailure where
  operation : LifecycleOperation
  message : String
  instant : Nat
deriving DecidableEq

structure ManagedBinding extends DaemonConfig where
  enabled : Bool
  restart : Option RestartProgress
  restartResults : Option (List RestartResult)
  restartRequestIds : Option (List String)
  upgradeRequestIds : Option (List String)
  upgradeRequests : Option (List LegacyUpgradeRequest)
  upgradeOperations : Option (List UpgradeOperation)
  lastFailure : Option LifecycleFailure
deriving DecidableEq

/-- `UPGRADE_OPERATION_HISTORY`. -/
def upgradeOperationHistory : Nat := 128

/-- How a pending operation turns out to have ended. -/
structure PendingUpgradeSettlement where
  succeeded : Bool
  terminal : UpgradeOperationTerminal
deriving DecidableEq

def PendingUpgradeSettlement.status (s : PendingUpgradeSettlement) : UpgradeOperationState :=
  if s.succeeded then .succeeded else .failed

namespace ManagedBinding

/-- A binding's restart receipts with one more, keeping the newest 128. -/
def appendRestartResult (binding : ManagedBinding) (result : RestartResult) :
    List RestartResult :=
  sliceLast 128 (binding.restartResults.getD [] ++ [result])

/-- The receipts with the unfinished restart, if any, recorded as cancelled. -/
def cancelledRestartResults (binding : ManagedBinding) (takenBy : Takeover) :
    Option (List RestartResult) :=
  match binding.restart with
  | none   => binding.restartResults
  | some r => some (binding.appendRestartResult ⟨r.requestId, .cancelled (some takenBy)⟩)

/-- A binding as a stop leaves it. -/
def stopped (binding : ManagedBinding) : ManagedBinding :=
  if ¬ binding.enabled ∧ binding.restart.isNone then binding
  else
    { binding with
      enabled := false, restart := none
      restartResults := binding.cancelledRestartResults .stop }

/-- A binding as a configure creates it. -/
def configured (config : DaemonConfig) (previous : Option ManagedBinding) : ManagedBinding :=
  { config with
    enabled := true, restart := none
    restartResults := previous.bind (·.cancelledRestartResults .configure)
    restartRequestIds := none, upgradeRequestIds := none, upgradeRequests := none
    upgradeOperations := none, lastFailure := none }

/-- The upgrade operations of the binding. -/
def operations (binding : ManagedBinding) : List UpgradeOperation :=
  binding.upgradeOperations.getD []

lemma stopped_eq (binding : ManagedBinding) : ∃ results, binding.stopped =
      { binding with enabled := false, restart := none, restartResults := results } := by
  unfold stopped
  split
  · next h =>
    refine ⟨binding.restartResults, ?_⟩
    obtain ⟨henabled, hrestart⟩ := h
    have henabled' : binding.enabled = false := by simpa using henabled
    rw [← henabled', ← Option.isNone_iff_eq_none.mp hrestart]
  · exact ⟨_, rfl⟩

@[simp] lemma stopped_enabled (binding : ManagedBinding) : binding.stopped.enabled = false := by
  obtain ⟨_, h⟩ := binding.stopped_eq
  rw [h]

@[simp] lemma stopped_workspaceId (binding : ManagedBinding) :
    binding.stopped.workspaceId = binding.workspaceId := by
  obtain ⟨_, h⟩ := binding.stopped_eq
  rw [h]

@[simp] lemma stopped_upgradeOperations (binding : ManagedBinding) :
    binding.stopped.upgradeOperations = binding.upgradeOperations := by
  obtain ⟨_, h⟩ := binding.stopped_eq
  rw [h]

end ManagedBinding

/-! ### The registry -/

abbrev Registry := List ManagedBinding

namespace Registry

def find (registry : Registry) (workspaceId : String) : Option ManagedBinding :=
  List.find? (fun b => b.workspaceId = workspaceId) registry

/-- The registry with one binding put in the place of the one it replaces, or added last. -/
def replace (registry : Registry) (binding : ManagedBinding) : Registry :=
  let next := List.filter (fun b => b.workspaceId ≠ binding.workspaceId) registry
  let index := (List.findIdx? (fun b => b.workspaceId = binding.workspaceId) registry).getD
    next.length
  next.take index ++ binding :: next.drop index

lemma mem_replace {registry : Registry} {binding b : ManagedBinding} :
    b ∈ registry.replace binding ↔
      b = binding ∨ (b ∈ registry ∧ b.workspaceId ≠ binding.workspaceId) := by
  simp only [replace, List.mem_append, List.mem_cons]
  constructor
  · rintro (h | h | h)
    · exact .inr (by simpa using List.mem_of_mem_take h)
    · exact .inl h
    · exact .inr (by simpa using List.mem_of_mem_drop h)
  · rintro (h | h)
    · exact .inr (.inl h)
    · have hmem : b ∈ List.filter (fun c => c.workspaceId ≠ binding.workspaceId) registry := by
        simpa using h
      rw [← List.take_append_drop _ (List.filter _ registry)] at hmem
      rcases List.mem_append.mp hmem with h | h
      · exact .inl h
      · exact .inr (.inr h)

lemma mem_of_find {registry : Registry} {workspaceId : String} {b : ManagedBinding}
    (h : registry.find workspaceId = some b) : b ∈ registry ∧ b.workspaceId = workspaceId :=
  ⟨List.mem_of_find?_eq_some h, by simpa using List.find?_some h⟩

end Registry

end Coforge.Supervisor
