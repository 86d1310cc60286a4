import Coforge.Lib.History
import Coforge.Lib.Json
import Coforge.Supervisor.Binding

/-!
# The binding file

`FileBindingStore`: the registry as it is read from `bindings.json` and written back. What the
file holds is checked when it is read, and what is to be written is checked before it is. A file
of an older version lists upgrade requests, which are reopened as operations when it is read.
-/

namespace Coforge.Supervisor

open List
open History (sliceLast sliceLast_append sliceLast_eq_self sliceLast_sublist length_sliceLast_le)
open Json (Check require ifPresent eachDistinct items textOf isStr isText isInteger)

/-- The key of a restart, a receipt, a request or an operation. -/
def requestIdOf (value : Json) : String := textOf (value.get? "requestId")

/-- The key of a binding. -/
def workspaceIdOf (binding : Json) : String := textOf (binding.get? "workspaceId")

/-! ### Validation -/

/-- `LIFECYCLE_FAILURE_OPERATIONS`. -/
def lifecycleFailureOperations : List String := ["start", "restart", "stop", "configure"]

def validLastFailure (failure : Json) : Bool :=
  failure.isRecord && lifecycleFailureOperations.any (isStr (failure.get? "operation")) &&
    isText (failure.get? "message") && isInteger (failure.get? "at")

/-- The malformed last failure of a binding is dropped. -/
def dropMalformedLastFailure (binding : Json) : Json :=
  match binding.get? "lastFailure" with
  | none => binding
  | some failure => if validLastFailure failure then binding else binding.erase "lastFailure"

def dropMalformedLastFailures : Json → Json
  | .arr bindings => .arr (bindings.map dropMalformedLastFailure)
  | value         => value

/-- The fields every binding has. -/
def validBinding (binding : Json) : Bool :=
  binding.isRecord && isText (binding.get? "workspaceId") && isText (binding.get? "computerId") &&
    isText (binding.get? "workspaceRoot") && Json.isBool (binding.get? "enabled")

def validateRestart (enabled : Bool) (pending : Json) : Check :=
  require
    (enabled && pending.isRecord && isText (pending.get? "requestId") &&
      ["stopping", "starting"].contains (Json.textOrUndefined (pending.get? "phase")) &&
      (match pending.get? "previousInstanceId" with
        | some .null => true
        | previous   => isText previous))
    "invalid binding registry restart"

def validResult (result : Json) : Bool :=
  result.isRecord && isText (result.get? "requestId") &&
    (isStr (result.get? "status") "cancelled" &&
        ((result.get? "by").isNone || isStr (result.get? "by") "stop" ||
          isStr (result.get? "by") "configure") ||
      isStr (result.get? "status") "completed" && isText (result.get? "instanceId"))

def validateRestartResults (restart : Option Json) : Json → Check
  | .arr results => do
    require (results.length ≤ 128) "invalid binding registry results"
    eachDistinct requestIdOf validResult "invalid binding registry result" (fun _ => .ok ()) []
      results
    ifPresent restart fun pending =>
      require (!(pending.isRecord && (results.map requestIdOf).contains
        (Json.textOrUndefined (pending.get? "requestId"))))
        "invalid binding registry conflicting restart"
  | _ => .error "invalid binding registry results"

def validateUpgradeRequestIds : Json → Check
  | .arr ids =>
    require (ids.length ≤ 128 && ids.all (fun id => isText (some id)) &&
        (ids.map fun id => textOf (some id)).Nodup)
      "invalid binding registry upgrade request IDs"
  | _ => .error "invalid binding registry upgrade request IDs"

def validUpgradeRequest (request : Json) : Bool :=
  request.isRecord && isText (request.get? "requestId") && isText (request.get? "expectedVersion")

def validateUpgradeRequests : Json → Check
  | .arr requests => do
    require (requests.length ≤ 128) "invalid binding registry upgrades"
    eachDistinct requestIdOf validUpgradeRequest "invalid binding registry upgrade request"
      (fun _ => .ok ()) [] requests
  | _ => .error "invalid binding registry upgrades"

/-- `UPGRADE_OPERATION_STATES`. -/
def upgradeOperationStates : List String := ["pending", "succeeded", "failed", "acknowledged"]

def isPending (operation : Json) : Bool := isStr (operation.get? "state") "pending"

def validTerminal (terminal : Json) : Bool :=
  terminal.isRecord && isInteger (terminal.get? "at") &&
    ((terminal.get? "version").isNone || isText (terminal.get? "version")) &&
    ((terminal.get? "error").isNone || isText (terminal.get? "error"))

def validUpgradeOperation (operation : Json) : Bool :=
  operation.isRecord && isText (operation.get? "requestId") &&
    isText (operation.get? "expectedVersion") && isInteger (operation.get? "requestedAt") &&
    upgradeOperationStates.contains (Json.textOrUndefined (operation.get? "state")) &&
    if isPending operation then (operation.get? "terminal").isNone
    else
      match operation.get? "terminal" with
      | none          => isStr (operation.get? "state") "acknowledged"
      | some terminal => validTerminal terminal

def validateUpgradeOperations : Json → Check
  | .arr operations => do
    require (operations.length ≤ upgradeOperationHistory)
      "invalid binding registry upgrade operations"
    eachDistinct requestIdOf validUpgradeOperation "invalid binding registry upgrade operation"
      (fun _ => .ok ()) [] operations
    require (operations.countP isPending ≤ 1) "invalid binding registry upgrade operation overlap"
  | _ => .error "invalid binding registry upgrade operations"

/-- The fields a binding may have. -/
def validateOptional (binding : Json) : Check := do
  ifPresent (binding.get? "restart") (validateRestart (Json.truthy (binding.get? "enabled")))
  ifPresent (binding.get? "restartResults") (validateRestartResults (binding.get? "restart"))
  ifPresent (binding.get? "lastFailure") fun failure =>
    require (validLastFailure failure) "invalid binding registry last failure"
  ifPresent (binding.get? "upgradeRequestIds") validateUpgradeRequestIds
  ifPresent (binding.get? "upgradeRequests") validateUpgradeRequests
  ifPresent (binding.get? "upgradeOperations") validateUpgradeOperations

def validateBindings : Json → Check
  | .arr bindings =>
    eachDistinct workspaceIdOf validBinding "invalid binding registry" validateOptional [] bindings
  | _ => .error "invalid binding registry"

/-! ### The environment -/

/-- The server a store expects, and the origin of a value read as a URL. -/
structure Environment where
  expectedServerUrl : Option String
  origin : Json → Option String

namespace Environment

variable (env : Environment)

def assertBinding (expected : String) (binding : Json) : Check := do
  require (Json.truthy (binding.get? "serverHttpUrl"))
    "Persisted binding does not identify its server"
  match (binding.get? "serverHttpUrl").bind env.origin, env.origin (.str expected) with
  | some origin, some other =>
    require (origin = other) "Binding server does not match this daemon build"
  | _, _ => .error "Invalid URL"

/-- `for (const binding of bindings) check(binding)`. -/
def each (check : Json → Check) : List Json → Check
  | []      => .ok ()
  | b :: bs => do
    check b
    each check bs

/-- `#assertEnvironment`. -/
def assertBindings (bindings : List Json) : Check :=
  match env.expectedServerUrl with
  | none          => .ok ()
  | some expected => if expected = "" then .ok () else each (env.assertBinding expected) bindings

end Environment

/-! ### Reading and writing -/

/-- The requests of the older list that no operation stands for. -/
def unmigrated (binding : Json) : List Json :=
  (items (binding.get? "upgradeRequests")).filter fun request =>
    !((items (binding.get? "upgradeOperations")).map requestIdOf).contains (requestIdOf request)

/-- A request of the older list as a pending operation. -/
def reopened (migratedAt : Fin (2 ^ 53)) (request : Json) : Json :=
  (request.set "state" (.str "pending")).set "requestedAt" (.int (migratedAt.val : Int))

def migrateLegacyUpgradeRequests (migratedAt : Fin (2 ^ 53)) (binding : Json) : Json :=
  if (items (binding.get? "upgradeRequests")).isEmpty then binding
  else
    (binding.erase "upgradeRequests").set "upgradeOperations"
      (.arr (sliceLast upgradeOperationHistory
        (items (binding.get? "upgradeOperations") ++
          (unmigrated binding).map (reopened migratedAt))))

/-- What is stored under the path of a binding file. -/
inductive Stored where
  | missing
  | unreadable (message : String)
  | json (value : Json)

/-- `FileBindingStore.load`. -/
def load (env : Environment) (now : Fin (2 ^ 53)) : Stored → Except String (List Json)
  | .missing            => .ok []
  | .unreadable message => .error message
  | .json value         => do
    let value := dropMalformedLastFailures value
    validateBindings value
    env.assertBindings (items (some value))
    return (items (some value)).map (migrateLegacyUpgradeRequests now)

/-- `FileBindingStore.save`, up to the file operations: what is stored after a write. -/
def save (env : Environment) (bindings : List Json) : Except String Stored := do
  validateBindings (.arr bindings)
  env.assertBindings bindings
  return .json (.arr bindings)

/-- The bindings that are stored. -/
def Stored.bindings : Stored → List Json
  | .json value => items (some value)
  | _           => []

/-! ### Decoding

A binding as the supervisor reads it. The fields it does not know are carried along.
-/

def RestartProgress.decode (restart : Json) : RestartProgress where
  requestId := requestIdOf restart
  phase := if isStr (restart.get? "phase") "stopping" then .stopping else .starting
  previousInstanceId := Json.text? (restart.get? "previousInstanceId")

def Takeover.decode (takenBy : Option Json) : Option Takeover :=
  if isStr takenBy "stop" then some .stop
  else if isStr takenBy "configure" then some .configure
  else none

def RestartResult.decode (result : Json) : RestartResult where
  requestId := requestIdOf result
  status :=
    if isStr (result.get? "status") "completed" then .completed (textOf (result.get? "instanceId"))
    else .cancelled (Takeover.decode (result.get? "by"))

def UpgradeOperationState.decode (state : Option Json) : UpgradeOperationState :=
  if isStr state "pending" then .pending
  else if isStr state "acknowledged" then .acknowledged
  else if isStr state "failed" then .failed
  else .succeeded

def UpgradeOperationTerminal.decode (terminal : Json) : UpgradeOperationTerminal where
  version := Json.text? (terminal.get? "version")
  error := Json.text? (terminal.get? "error")
  errorCode := Json.text? (terminal.get? "errorCode")
  instant := Json.natOf (terminal.get? "at")

def UpgradeOperation.decode (operation : Json) : UpgradeOperation where
  requestId := requestIdOf operation
  expectedVersion := textOf (operation.get? "expectedVersion")
  state := .decode (operation.get? "state")
  requestedAt := Json.natOf (operation.get? "requestedAt")
  terminal := (operation.get? "terminal").map UpgradeOperationTerminal.decode

def LegacyUpgradeRequest.decode (request : Json) : LegacyUpgradeRequest where
  requestId := requestIdOf request
  expectedVersion := textOf (request.get? "expectedVersion")

def LifecycleOperation.decode (operation : Option Json) : LifecycleOperation :=
  if isStr operation "start" then .start
  else if isStr operation "restart" then .restart
  else if isStr operation "stop" then .stop
  else .configure

def LifecycleFailure.decode (failure : Json) : LifecycleFailure where
  operation := .decode (failure.get? "operation")
  message := textOf (failure.get? "message")
  instant := Json.natOf (failure.get? "at")

/-- The elements of a list a binding may have. -/
def decodeList {α : Type} (f : Json → α) (value : Option Json) : Option (List α) :=
  value.map fun v => (items (some v)).map f

def ManagedBinding.decode (binding : Json) : ManagedBinding where
  workspaceId := workspaceIdOf binding
  computerId := textOf (binding.get? "computerId")
  workspaceRoot := textOf (binding.get? "workspaceRoot")
  serverHttpUrl := Json.text? (binding.get? "serverHttpUrl")
  enabled := Json.truthy (binding.get? "enabled")
  restart := (binding.get? "restart").map RestartProgress.decode
  restartResults := decodeList RestartResult.decode (binding.get? "restartResults")
  restartRequestIds := decodeList (fun id => textOf (some id)) (binding.get? "restartRequestIds")
  upgradeRequestIds := decodeList (fun id => textOf (some id)) (binding.get? "upgradeRequestIds")
  upgradeRequests := decodeList LegacyUpgradeRequest.decode (binding.get? "upgradeRequests")
  upgradeOperations := decodeList UpgradeOperation.decode (binding.get? "upgradeOperations")
  lastFailure := (binding.get? "lastFailure").map LifecycleFailure.decode

/-! ### What the migration leaves -/

/-- Reopening the requests of the older list leaves one pending operation at most, and evidence
on none. -/
def Migratable (binding : Json) : Prop :=
  match unmigrated binding with
  | []        => True
  | [request] => (request.get? "terminal").isNone ∧
      ∀ o ∈ sliceLast (upgradeOperationHistory - 1) (items (binding.get? "upgradeOperations")),
        ¬ isPending o
  | _         => False

lemma validateUpgradeOperations_eq_ok {operations : List Json} :
    validateUpgradeOperations (.arr operations) = .ok () ↔
      operations.length ≤ upgradeOperationHistory ∧
        ((∀ o ∈ operations, validUpgradeOperation o) ∧ (operations.map requestIdOf).Nodup) ∧
        operations.countP isPending ≤ 1 := by
  simp [validateUpgradeOperations, Json.eachDistinct_eq_ok]

lemma validateUpgradeRequests_eq_ok {requests : List Json} :
    validateUpgradeRequests (.arr requests) = .ok () ↔ requests.length ≤ 128 ∧
        (∀ r ∈ requests, validUpgradeRequest r) ∧ (requests.map requestIdOf).Nodup := by
  simp [validateUpgradeRequests, Json.eachDistinct_eq_ok]

lemma validateBindings_eq_ok {bindings : List Json} : validateBindings (.arr bindings) = .ok () ↔
      (∀ b ∈ bindings, validBinding b ∧ validateOptional b = .ok ()) ∧
        (bindings.map workspaceIdOf).Nodup :=
  Json.eachDistinct_eq_ok

lemma operations_valid {binding : Json} (h : validateOptional binding = .ok ()) :
    validateUpgradeOperations (.arr (items (binding.get? "upgradeOperations"))) = .ok () := by
  simp only [validateOptional, Json.bind_eq_ok, Json.ifPresent_eq_ok] at h
  obtain ⟨-, -, -, -, -, h⟩ := h
  cases hfield : binding.get? "upgradeOperations" with
  | none => simp [validateUpgradeOperations_eq_ok, items]
  | some value =>
    have hvalue := h value hfield
    cases value with
    | arr operations => exact hvalue
    | _ => cases hvalue

lemma requests_valid {binding : Json} (h : validateOptional binding = .ok ()) :
    validateUpgradeRequests (.arr (items (binding.get? "upgradeRequests"))) = .ok () := by
  simp only [validateOptional, Json.bind_eq_ok, Json.ifPresent_eq_ok] at h
  obtain ⟨-, -, -, -, h, -⟩ := h
  cases hfield : binding.get? "upgradeRequests" with
  | none => simp [validateUpgradeRequests_eq_ok, items]
  | some value =>
    have hvalue := h value hfield
    cases value with
    | arr requests => exact hvalue
    | _ => cases hvalue

section Reopened

variable {now : Fin (2 ^ 53)} {request : Json}

lemma get?_reopened (h : request.isRecord) (key : String) : (reopened now request).get? key =
      if key = "requestedAt" then some (.int (now.val : Int))
      else if key = "state" then some (.str "pending") else request.get? key := by
  rw [reopened, Json.get?_set (by simpa using h), Json.get?_set h]

lemma requestIdOf_reopened (h : request.isRecord) :
    requestIdOf (reopened now request) = requestIdOf request := by
  simp [requestIdOf, get?_reopened h]

lemma isPending_reopened (h : request.isRecord) : isPending (reopened now request) := by
  simp [isPending, get?_reopened h, isStr]

lemma validUpgradeOperation_reopened (h : validUpgradeRequest request) :
    validUpgradeOperation (reopened now request) = (request.get? "terminal").isNone := by
  simp only [validUpgradeRequest, Bool.and_eq_true] at h
  obtain ⟨⟨hrecord, hid⟩, hversion⟩ := h
  have hrecord' : (reopened now request).isRecord := by simpa [reopened] using hrecord
  have hnow : isInteger (some (.int (now.val : Int))) := by
    have hlt := now.isLt
    simp only [isInteger, Int.natCast_nonneg, true_and, decide_eq_true_eq]
    omega
  have hstate : Json.textOrUndefined (some (.str "pending")) ∈ upgradeOperationStates := by decide
  simp [validUpgradeOperation, isPending_reopened hrecord, get?_reopened hrecord, hrecord', hid,
    hversion, hnow, hstate]

end Reopened

lemma isRecord_of_validBinding {binding : Json} (h : validBinding binding) : binding.isRecord := by
  simp only [validBinding, Bool.and_eq_true] at h
  exact h.1.1.1.1

section Migration

variable {now : Fin (2 ^ 53)} {binding : Json}

lemma get?_migrate (h : binding.isRecord) {key : String} (hrequests : key ≠ "upgradeRequests")
    (hoperations : key ≠ "upgradeOperations") :
    (migrateLegacyUpgradeRequests now binding).get? key = binding.get? key := by
  unfold migrateLegacyUpgradeRequests
  split_ifs
  · rfl
  · rw [Json.get?_set (by simpa using h), if_neg hoperations, Json.get?_erase, if_neg hrequests]

lemma isRecord_migrate :
    (migrateLegacyUpgradeRequests now binding).isRecord = binding.isRecord := by
  unfold migrateLegacyUpgradeRequests
  split_ifs <;> simp

lemma validBinding_migrate (h : validBinding binding) :
    validBinding (migrateLegacyUpgradeRequests now binding) := by
  have hrecord := isRecord_of_validBinding h
  simpa [validBinding, get?_migrate hrecord, isRecord_migrate] using h

/-- The reopened requests behind the operations there were pass the check when there is at most
one of them and it is the only one that is pending. -/
lemma validate_reopened (hoptional : validateOptional binding = .ok ()) : validateUpgradeOperations
        (.arr (sliceLast upgradeOperationHistory (items (binding.get? "upgradeOperations") ++
            (unmigrated binding).map (reopened now)))) = .ok () ↔ Migratable binding := by
  obtain ⟨hlength, ⟨hvalid, hnodup⟩, hpending⟩ :=
    validateUpgradeOperations_eq_ok.mp (operations_valid hoptional)
  obtain ⟨hcap, hrequests, -⟩ := validateUpgradeRequests_eq_ok.mp (requests_valid hoptional)
  have hfresh : ∀ r ∈ unmigrated binding, validUpgradeRequest r :=
    fun r hr => hrequests r (mem_filter.mp hr).1
  have hrecord : ∀ r ∈ unmigrated binding, r.isRecord := by
    intro r hr
    have hr := hfresh r hr
    simp only [validUpgradeRequest, Bool.and_eq_true] at hr
    exact hr.1.1
  have hnew : ∀ r ∈ unmigrated binding, ∀ o ∈ items (binding.get? "upgradeOperations"),
      requestIdOf o ≠ requestIdOf r := by
    intro r hr o ho heq
    have hr := (mem_filter.mp hr).2
    simp only [contains_eq_mem, Bool.not_eq_true', decide_eq_false_iff_not] at hr
    exact hr (mem_map.mpr ⟨o, ho, heq⟩)
  have hroom : ((unmigrated binding).map (reopened now)).length ≤ upgradeOperationHistory := by
    rw [length_map]
    exact Nat.le_trans (length_filter_le _ _) hcap
  rw [sliceLast_append _ hroom, length_map, validateUpgradeOperations_eq_ok]
  unfold Migratable
  generalize items (binding.get? "upgradeOperations") = operations at *
  rcases hunmigrated : unmigrated binding with _ | ⟨request, _ | ⟨second, rest⟩⟩
  · rw [length_nil, Nat.sub_zero, sliceLast_eq_self hlength, map_nil, append_nil]
    simp only [iff_true]
    exact ⟨hlength, ⟨hvalid, hnodup⟩, hpending⟩
  · have hmem : request ∈ unmigrated binding := by simp [hunmigrated]
    have hsub : Sublist (sliceLast (upgradeOperationHistory - 1) operations) operations :=
      sliceLast_sublist _ _
    have hpush : (sliceLast (upgradeOperationHistory - 1) operations).length + 1 ≤
        upgradeOperationHistory := by
      have := length_sliceLast_le (upgradeOperationHistory - 1) operations
      simp only [upgradeOperationHistory] at this ⊢
      omega
    have hids : ((sliceLast (upgradeOperationHistory - 1) operations).map requestIdOf ++
        [requestIdOf request]).Nodup := by
      refine nodup_append.mpr ⟨hnodup.sublist (hsub.map _), by simp, ?_⟩
      intro id hid id' hid'
      obtain ⟨o, ho, rfl⟩ := mem_map.mp hid
      rw [mem_singleton.mp hid']
      exact hnew request hmem o (hsub.mem ho)
    have hkept : ∀ o ∈ sliceLast (upgradeOperationHistory - 1) operations,
        validUpgradeOperation o := fun o ho => hvalid o (hsub.mem ho)
    simp only [length_cons, length_nil, Nat.zero_add, map_cons, map_nil,
      length_append, hpush, true_and, forall_mem_append, forall_mem_singleton,
      validUpgradeOperation_reopened (hfresh request hmem), map_append,
      requestIdOf_reopened (hrecord request hmem), hids, and_true, countP_append,
      countP_singleton, isPending_reopened (hrecord request hmem), if_true]
    constructor
    · rintro ⟨⟨-, hterminal⟩, hcount⟩
      refine ⟨hterminal, fun o ho => ?_⟩
      have hzero : (sliceLast (upgradeOperationHistory - 1) operations).countP isPending = 0 := by
        omega
      exact countP_eq_zero.mp hzero o ho
    · rintro ⟨hterminal, hnone⟩
      refine ⟨⟨hkept, hterminal⟩, ?_⟩
      simp only [countP_eq_zero.mpr hnone, Nat.zero_add, Nat.le_refl]
  · have hfirst : request ∈ unmigrated binding := by simp [hunmigrated]
    have hsecond : second ∈ unmigrated binding := by simp [hunmigrated]
    simp only [iff_false]
    rintro ⟨-, -, hcount⟩
    rw [countP_append, map_cons, map_cons,
      countP_cons_of_pos (isPending_reopened (hrecord request hfirst)),
      countP_cons_of_pos (isPending_reopened (hrecord second hsecond))] at hcount
    omega

/-- A binding that passes does so after the migration when the migration leaves it in order. -/
lemma validateOptional_migrate (hbinding : validBinding binding)
    (hoptional : validateOptional binding = .ok ()) :
    validateOptional (migrateLegacyUpgradeRequests now binding) = .ok () ↔ Migratable binding := by
  have hrecord := isRecord_of_validBinding hbinding
  by_cases hempty : (items (binding.get? "upgradeRequests")).isEmpty
  · have hnone : unmigrated binding = [] := by
      rw [unmigrated, isEmpty_iff.mp hempty, filter_nil]
    rw [migrateLegacyUpgradeRequests, if_pos hempty, Migratable, hnone]
    simp [hoptional]
  · have hoperations := @validate_reopened now _ hoptional
    have hother {key : String} (hrequests : key ≠ "upgradeRequests")
        (hoperations : key ≠ "upgradeOperations") :=
      @get?_migrate now _ hrecord _ hrequests hoperations
    have hremoved : (migrateLegacyUpgradeRequests now binding).get? "upgradeRequests" = none := by
      rw [migrateLegacyUpgradeRequests, if_neg hempty, Json.get?_set (by simpa using hrecord),
        if_neg (by decide), Json.get?_erase, if_pos rfl]
    have hreopened : (migrateLegacyUpgradeRequests now binding).get? "upgradeOperations" =
        some (.arr (sliceLast upgradeOperationHistory
          (items (binding.get? "upgradeOperations") ++
            (unmigrated binding).map (reopened now)))) := by
      rw [migrateLegacyUpgradeRequests, if_neg hempty, Json.get?_set (by simpa using hrecord),
        if_pos rfl]
    simp only [validateOptional, Json.bind_eq_ok] at hoptional ⊢
    obtain ⟨hrestart, hresults, hfailure, hids, -, -⟩ := hoptional
    rw [hremoved, hreopened, hother (by decide) (by decide), hother (by decide) (by decide),
      hother (by decide) (by decide), hother (by decide) (by decide),
      hother (by decide) (by decide)]
    simp only [hrestart, hresults, hfailure, hids, true_and, Json.ifPresent_none,
      Json.ifPresent_some]
    exact hoperations

end Migration

end Coforge.Supervisor
