import Coforge.Reminder.Server

/-!
# The reminder repository

The transactions that create, edit, snooze, cancel and fire reminders. Each of them locks the row
of the owning Agent before it reads anything, so they take effect one after another. What a
transaction reads besides the reminder and the receipts (whether the caller is authorized, how many
reminders of the Agent are active) comes with it.
-/

namespace Coforge.Reminder

/-- The operations that change a reminder. -/
inductive ReminderOperation where
  | update | snooze | cancel
deriving DecidableEq

/-- A validated request: a text it has is not empty, and a snooze has one of its two times. -/
structure OperationRequest where
  idempotencyKey : String
  workspaceId : String
  computerId : String
  agentId : String
  operation : ReminderOperation
  reminderId : String
  title : Option String
  fireAt : Option Int
  delaySeconds : Option Nat
  recurrence : Option String
  timezone : Option String
deriving DecidableEq

/-- A validated request for a new reminder, with its first occurrence. -/
structure CreateRequest where
  idempotencyKey : String
  workspaceId : String
  computerId : String
  agentId : String
  title : String
  fireAt : Int
  recurrence : Option String
  timezone : Option String
deriving DecidableEq

structure OperationReceipt where
  workspaceId : String
  fingerprint : String
  response : ReminderRow
  reminderId : String
deriving DecidableEq

/-- The operation receipts by the Agent and the request. -/
structure Repository extends Database where
  operationReceipts : String × String → Option OperationReceipt

/-- `MAX_ACTIVE_REMINDERS`. -/
def maxActiveReminders : Nat := 50

/-- `DEFAULT_REMINDER_TIMEZONE`. -/
def defaultReminderTimezone : String := "Asia/Shanghai"

def notAuthorized : String := "reminder operation is not authorized"
def requestReused : String := "request ID was already used with different reminder input"
def limitReached : String := "active reminder limit (50) reached"

/-- The columns that an operation writes. -/
structure Patch where
  title : Option String
  fireAt : Option Int
  status : Option ReminderStatus
  recurrence : Option (Option String)
  timezone : Option (Option String)
deriving DecidableEq

namespace OperationRequest

variable (nextOccurrence : NextOccurrence) (request : OperationRequest) (existing : ReminderRow)
  (now : Int)

/-- The recurrence of a request that names one other than `none`. -/
def recurs : Option String := request.recurrence.filter (· ≠ "none")

/-- Why the operation is refused for the reminder as it is. -/
def refusal (active : Nat) : Option String :=
  if request.operation = .update ∧ existing.status ≠ .scheduled then
    some "only scheduled reminders can be updated"
  else if request.operation = .snooze ∧ existing.status = .canceled then
    some "canceled reminders cannot be snoozed"
  else if request.timezone.isSome ∧ request.recurrence = some "none" then
    some "repeat none cannot include timezone"
  else if request.timezone.isSome ∧ request.recurrence.isNone ∧ existing.recurrence.isNone then
    some "timezone requires a recurring reminder"
  else if request.operation = .snooze ∧ existing.status ≠ .scheduled ∧
      maxActiveReminders ≤ active then
    some limitReached
  else none

/-- The time after a delay of the request. -/
def delayed : Option Int := request.delaySeconds.map fun seconds => now + 1000 * seconds

/-- The status, the recurrence and the timezone that the request asks for. -/
def patch : Patch where
  title := request.title
  fireAt :=
    match request.operation with
    | .snooze => request.fireAt.or (request.delayed now)
    | _       => request.fireAt
  status :=
    match request.operation with
    | .update => none
    | .snooze => some .scheduled
    | .cancel => some .canceled
  recurrence :=
    if request.recurrence = some "none" then some none else request.recurrence.map some
  timezone :=
    if request.recurrence = some "none" then some none
    else if request.recurrence.isSome then
      some ((request.timezone.or existing.timezone).or (some defaultReminderTimezone))
    else request.timezone.map some

/-- The due time of an update that moves the occurrence without naming one. -/
def moves (patch : Patch) : Except String Patch :=
  if request.operation = .update ∧ request.fireAt = none ∧
      (request.delaySeconds.isSome ∨ request.timezone.isSome ∨ request.recurs.isSome) then
    match request.delayed now with
    | some time => .ok { patch with fireAt := some time }
    | none =>
      match patch.recurrence.join.or existing.recurrence with
      | none => .error noOccurrence
      | some recurrence =>
        match nextOccurrence recurrence (patch.timezone.join.or existing.timezone)
            existing.fireAt now with
        | none      => .error noOccurrence
        | some next => .ok { patch with fireAt := some next }
  else .ok patch

/-- The row after an operation that changes it. -/
def write (patch : Patch) : ReminderRow :=
  { existing with
    version := existing.version + 1
    title := patch.title.getD existing.title
    fireAt := patch.fireAt.getD existing.fireAt
    status := patch.status.getD existing.status
    firedAt := if request.operation = .snooze then none else existing.firedAt
    recurrence := patch.recurrence.getD existing.recurrence
    timezone := patch.timezone.getD existing.timezone }

/-- What the operation makes of the row. A cancelled reminder that is cancelled again stays. -/
def apply : Except String ReminderRow :=
  match request.moves nextOccurrence existing now (request.patch existing now) with
  | .error error => .error error
  | .ok patch =>
    if ∃ time ∈ patch.fireAt, time ≤ now then .error "reminder time must be in the future"
    else if request.operation = .cancel ∧ existing.status = .canceled then .ok existing
    else .ok (request.write existing patch)

end OperationRequest

namespace Repository

def findReminder (db : Repository) (request : OperationRequest) : Option ReminderRow :=
  (db.reminders request.reminderId).filter fun row =>
    row.workspaceId = request.workspaceId ∧ row.ownerAgentId = request.agentId ∧
      row.computerId = request.computerId

/-- The row and the receipt of an operation. -/
def record (db : Repository) (agentId idempotencyKey : String) (receipt : OperationReceipt) :
    Repository :=
  { db with
    reminders := Function.update db.reminders receipt.reminderId (some receipt.response)
    operationReceipts :=
      Function.update db.operationReceipts (agentId, idempotencyKey) (some receipt) }

def create (authorized : Bool) (active : Nat) (fingerprint reminderId : String)
    (db : Repository) (request : CreateRequest) : Except String ReminderRow × Repository :=
  if !authorized then (.error notAuthorized, db)
  else
    match db.operationReceipts (request.agentId, request.idempotencyKey) with
    | some replay =>
      if replay.workspaceId ≠ request.workspaceId ∨ replay.fingerprint ≠ fingerprint then
        (.error requestReused, db)
      else (.ok replay.response, db)
    | none =>
      if maxActiveReminders ≤ active then (.error limitReached, db)
      else if (db.reminders reminderId).isSome then (.error "Unique constraint failed", db)
      else
        let row : ReminderRow :=
          { id := reminderId, workspaceId := request.workspaceId, ownerAgentId := request.agentId
            computerId := request.computerId, version := 1, title := request.title
            fireAt := request.fireAt, status := .scheduled, recurrence := request.recurrence
            timezone := request.timezone, firedAt := none }
        (.ok row, db.record request.agentId request.idempotencyKey
          ⟨request.workspaceId, fingerprint, row, reminderId⟩)

def update (nextOccurrence : NextOccurrence) (authorized : Bool) (active : Nat)
    (fingerprint : String) (db : Repository) (request : OperationRequest) (now : Int) :
    Except String ReminderRow × Repository :=
  if !authorized then (.error notAuthorized, db)
  else
    match db.operationReceipts (request.agentId, request.idempotencyKey) with
    | some replay =>
      if replay.workspaceId ≠ request.workspaceId ∨ replay.reminderId ≠ request.reminderId ∨
          replay.fingerprint ≠ fingerprint then (.error requestReused, db)
      else (.ok replay.response, db)
    | none =>
      match db.findReminder request with
      | none => (.error "reminder not found", db)
      | some existing =>
        match request.refusal existing active with
        | some refusal => (.error refusal, db)
        | none =>
          match request.apply nextOccurrence existing now with
          | .error error => (.error error, db)
          | .ok row =>
            (.ok row, db.record request.agentId request.idempotencyKey
              ⟨request.workspaceId, fingerprint, row, request.reminderId⟩)

def fire (nextOccurrence : NextOccurrence) (authorized : Bool) (db : Repository)
    (request : ReminderFireRequest) (now : Int) : Except String Database.FireAnswer × Repository :=
  let (answer, database) := db.toDatabase.fire nextOccurrence authorized request now
  (answer, { db with toDatabase := database })

/-- The database before the first reminder. -/
def empty : Repository where
  reminders _ := none
  fireReceipts _ := none
  operationReceipts _ := none

end Repository

end Coforge.Reminder
