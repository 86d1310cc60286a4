import Coforge.Reminder.Scheduler

/-!
# The server's side of a fire request

`fire` of the reminder repository as one transaction on the reminders and the fire receipts: a
request whose id is recorded gets the recorded response, any other request for a version that is
no longer scheduled is obsolete. The next occurrence of a recurring reminder is computed by a
function of its recurrence, its timezone and the two instants, which no law here depends on. Where
it throws, the transaction is rolled back.
-/

namespace Coforge.Reminder

inductive ReminderStatus where
  | scheduled
  | fired
  | canceled
deriving DecidableEq

structure ReminderRow where
  id : String
  workspaceId : String
  ownerAgentId : String
  computerId : String
  version : Nat
  title : String
  fireAt : Int
  status : ReminderStatus
  recurrence : Option String
  timezone : Option String
  firedAt : Option Int
deriving DecidableEq

structure FireReceipt where
  workspaceId : String
  computerId : String
  agentId : String
  version : Nat
  response : ReminderFireResponse
deriving DecidableEq

/-- The reminders by their id, and the fire receipts by the reminder and the request. -/
structure Database where
  reminders : String → Option ReminderRow
  fireReceipts : String × String → Option FireReceipt

/-- `nextOccurrence`, of the recurrence, the timezone, the due instant and the time. -/
abbrev NextOccurrence : Type := String → Option String → Int → Int → Option Int

/-- The error of `nextOccurrence`. -/
def noOccurrence : String := "No valid recurring occurrence found"

namespace Database

/-- The reminder a request is for, as long as it belongs to the Agent on the Computer. -/
def findReminder (db : Database) (request : ReminderFireRequest) : Option ReminderRow :=
  (db.reminders request.reminderId).filter fun row =>
    row.workspaceId = request.workspaceId ∧ row.ownerAgentId = request.agentId ∧
      row.computerId = request.computerId

def response (request : ReminderFireRequest) (result : FireResult) (fired catchup : Bool)
    (retryAfterMs : Option Int) : ReminderFireResponse where
  protocolMajor := request.protocolMajor
  requestId := request.requestId
  workspaceId := request.workspaceId
  computerId := request.computerId
  agentId := request.agentId
  reminderId := request.reminderId
  version := request.version
  result := result
  fired := fired
  catchup := catchup
  retryAfterMs := retryAfterMs

def obsolete (request : ReminderFireRequest) : ReminderFireResponse :=
  response request .obsolete false false none

/-- What a fire request answers: the response, and the next occurrence to publish. -/
structure FireAnswer where
  result : ReminderFireResponse
  nextReminder : Option ReminderRow
deriving DecidableEq

/-- The row after a fire: the next occurrence, or fired for good. -/
def advance (nextOccurrence : NextOccurrence) (reminder : ReminderRow) (now : Int) :
    Option ReminderRow :=
  match reminder.recurrence with
  | some recurrence =>
    (nextOccurrence recurrence reminder.timezone reminder.fireAt now).map fun next =>
      { reminder with fireAt := next, version := reminder.version + 1, firedAt := some now }
  | none =>
    some { reminder with status := .fired, firedAt := some now, version := reminder.version + 1 }

/-- The occurrence to publish with a replayed response. -/
def current (result : ReminderFireResponse) (reminder : ReminderRow) : Option ReminderRow :=
  if result.result = .accepted ∧ reminder.status = .scheduled then some reminder else none

def fire (nextOccurrence : NextOccurrence) (authorized : Bool)
    (db : Database) (request : ReminderFireRequest) (now : Int) :
    Except String FireAnswer × Database :=
  if !authorized then (.error "reminder fire is not authorized", db)
  else
    match db.findReminder request with
    | none => (.ok ⟨obsolete request, none⟩, db)
    | some reminder =>
      match db.fireReceipts (request.reminderId, request.requestId) with
      | some replay =>
        if replay.workspaceId ≠ request.workspaceId ∨ replay.computerId ≠ request.computerId ∨
            replay.agentId ≠ request.agentId ∨ replay.version ≠ request.version then
          (.error "request ID was already used with different reminder fire input", db)
        else
          (.ok ⟨replay.response, current replay.response reminder⟩, db)
      | none =>
        if reminder.status ≠ .scheduled ∨ reminder.version ≠ request.version then
          (.ok ⟨obsolete request, none⟩, db)
        else if now < reminder.fireAt then
          (.ok ⟨response request .premature false false (some (max 1 (reminder.fireAt - now))),
            none⟩, db)
        else
          match advance nextOccurrence reminder now with
          | none => (.error noOccurrence, db)
          | some changed =>
            let result := response request .accepted true (reminder.fireAt < now) none
            let next := reminder.recurrence.map fun _ => changed
            let receipt : FireReceipt :=
              ⟨request.workspaceId, request.computerId, request.agentId, request.version, result⟩
            (.ok ⟨result, next⟩,
              { reminders := Function.update db.reminders reminder.id (some changed)
                fireReceipts := Function.update db.fireReceipts
                  (request.reminderId, request.requestId) (some receipt) })

/-- What happens to the database: a fire request is handled, or another operation changes a
reminder. No operation removes a fire receipt. -/
inductive Act where
  | fire (authorized : Bool) (request : ReminderFireRequest) (now : Int)
  | change (reminderId : String) (row : Option ReminderRow)

def serve (nextOccurrence : NextOccurrence) (db : Database) : Act → Database
  | .fire authorized request now => (db.fire nextOccurrence authorized request now).2
  | .change reminderId row =>
    { db with reminders := Function.update db.reminders reminderId row }

variable {nextOccurrence : NextOccurrence} {db db' : Database}
  {request request' : ReminderFireRequest} {key : String × String} {receipt : FireReceipt}

/-! ### The replay rule -/

/-- A receipt that matches a request, whose response answers it. -/
def Replays (db : Database) (request : ReminderFireRequest) (result : ReminderFireResponse) :
    Prop :=
  db.fireReceipts (request.reminderId, request.requestId) =
    some ⟨request.workspaceId, request.computerId, request.agentId, request.version, result⟩

variable {authorized : Bool} {now : Int}

lemma fireReceipts_fire (h : db.fireReceipts key = some receipt) :
    (db.fire nextOccurrence authorized request now).2.fireReceipts key = some receipt := by
  rw [fire]
  cases authorized
  · exact h
  simp only [Bool.not_true, Bool.false_eq_true, if_false]
  cases db.findReminder request with
  | none => exact h
  | some reminder =>
    cases hreplay : db.fireReceipts (request.reminderId, request.requestId) with
    | some replay =>
      simp only
      split_ifs <;> exact h
    | none =>
      simp only
      split_ifs
      · exact h
      · exact h
      cases advance nextOccurrence reminder now with
      | none => exact h
      | some changed =>
        have hne : key ≠ (request.reminderId, request.requestId) := by
          rintro rfl
          rw [hreplay] at h
          cases h
        exact (Function.update_of_ne hne _ _).trans h

lemma fireReceipts_serve {a : Act} (h : db.fireReceipts key = some receipt) :
    (db.serve nextOccurrence a).fireReceipts key = some receipt := by
  cases a with
  | fire authorized request now => exact fireReceipts_fire h
  | change reminderId row => exact h

lemma fireReceipts_foldl {acts : List Act} (h : db.fireReceipts key = some receipt) :
    (acts.foldl (serve nextOccurrence) db).fireReceipts key = some receipt := by
  induction acts generalizing db with
  | nil => exact h
  | cons a acts ih => exact ih (fireReceipts_serve h)

lemma replays_of_accepted {answer : FireAnswer}
    (h : db.fire nextOccurrence authorized request now = (.ok answer, db'))
    (haccepted : answer.result.result = .accepted) : db'.Replays request answer.result := by
  rw [fire] at h
  cases authorized
  · cases h
  simp only [Bool.not_true, Bool.false_eq_true, if_false] at h
  cases hreminder : db.findReminder request with
  | none =>
    rw [hreminder] at h
    cases h
    cases haccepted
  | some reminder =>
    cases hreplay : db.fireReceipts (request.reminderId, request.requestId) with
    | some replay =>
      simp only [hreminder, hreplay] at h
      split_ifs at h with hmismatch
      · cases h
      · simp only [ne_eq, not_or, Decidable.not_not] at hmismatch
        obtain ⟨hworkspace, hcomputer, hagent, hversion⟩ := hmismatch
        cases h
        rw [Replays, hreplay, ← hworkspace, ← hcomputer, ← hagent, ← hversion]
    | none =>
      simp only [hreminder, hreplay] at h
      split_ifs at h
      · cases h
        cases haccepted
      · cases h
        cases haccepted
      cases hchanged : advance nextOccurrence reminder now with
      | none =>
        rw [hchanged] at h
        cases h
      | some changed =>
        rw [hchanged] at h
        cases h
        exact Function.update_self _ _ _

lemma fire_of_replays {result : ReminderFireResponse} {reminder : ReminderRow}
    (h : db.Replays request result) (hreminder : db.findReminder request = some reminder) :
    ∃ next, db.fire nextOccurrence true request now = (.ok ⟨result, next⟩, db) := by
  rw [Replays] at h
  simp [fire, hreminder, h]

/-- Requests of one identity for one version: once the server has accepted one of them, every
later one that reaches the reminder gets the same response. -/
theorem fire_replayed {now' : Int} {answer : FireAnswer} {reminder : ReminderRow} {acts : List Act}
    (hsame : request'.reminderId = request.reminderId ∧ request'.requestId = request.requestId ∧
      request'.workspaceId = request.workspaceId ∧ request'.computerId = request.computerId ∧
      request'.agentId = request.agentId ∧ request'.version = request.version)
    (h : db.fire nextOccurrence authorized request now = (.ok answer, db'))
    (haccepted : answer.result.result = .accepted)
    (hreminder : (acts.foldl (serve nextOccurrence) db').findReminder request' = some reminder) :
    ∃ next db'', (acts.foldl (serve nextOccurrence) db').fire nextOccurrence true request' now' =
      (.ok ⟨answer.result, next⟩, db'') := by
  obtain ⟨hid, hrequest, hworkspace, hcomputer, hagent, hversion⟩ := hsame
  have hrecorded := replays_of_accepted h haccepted
  rw [Replays] at hrecorded
  have hreplays : (acts.foldl (serve nextOccurrence) db').Replays request' answer.result := by
    rw [Replays, hid, hrequest, hworkspace, hcomputer, hagent, hversion]
    exact fireReceipts_foldl hrecorded
  obtain ⟨next, hfire⟩ := fire_of_replays hreplays hreminder
  exact ⟨next, _, hfire⟩

end Database

end Coforge.Reminder
