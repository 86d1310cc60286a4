import Mathlib

/-!
# Tasks

A Task row, with the rows that refer to it: its execution sessions, at most one for each Agent, its
history, and the mention rows of its message. Who a conversation member is, a User or an Agent,
never changes, so `members` reads it by the member's id.
-/

namespace Coforge.Tasks

abbrev Uuid : Type := Nat

/-- Exactly one of a User or an Agent. -/
inductive Actor where
  | user (userId : Uuid)
  | agent (agentId : Uuid)
deriving DecidableEq

def Actor.userId : Actor → Option Uuid
  | .user id => some id
  | .agent _ => none

def Actor.agentId : Actor → Option Uuid
  | .user _   => none
  | .agent id => some id

/-- A conversation member as a command reads it: its id, and its handle at that time. -/
structure Member where
  id : Uuid
  handle : String
deriving DecidableEq

inductive TaskStatus where
  | todo
  | inProgress
  | inReview
  | done
  | closed
deriving DecidableEq

/-- `FINISHED_TASK_STATUSES`. -/
def TaskStatus.finished : TaskStatus → Bool
  | .done | .closed => true
  | _ => false

inductive SessionStatus where
  | starting
  | running
  | waiting
  | completed
  | failed
  | cancelled
deriving DecidableEq

def SessionStatus.active : SessionStatus → Bool
  | .starting | .running | .waiting => true
  | _ => false

def SessionStatus.ended : SessionStatus → Bool
  | .completed | .failed | .cancelled => true
  | _ => false

structure TaskExecutionSession where
  id : Uuid
  agentId : Uuid
  status : SessionStatus
  attempt : Nat
  finishedAt : Option Nat
  createdAt : Nat
deriving DecidableEq

/-- What reading a mention token back needs of a mention row. -/
structure MessageMentionRef where
  actor : Actor
  handle : String
deriving DecidableEq

/-- A mention row of a message. -/
structure MessageMention extends MessageMentionRef where
  memberId : Uuid
deriving DecidableEq

/-- A message of the conversation, its sender, body and sequence left out. -/
structure Message where
  id : Uuid
  threadRootId : Option Uuid
  mentions : List MessageMention
  /-- The Agents it has a delivery row for. -/
  deliveries : List Uuid
deriving DecidableEq

inductive TaskHistoryChange where
  | created (taskNumber : Nat) (status : TaskStatus)
  | statusChanged (source target : TaskStatus)
  /-- A User or an Agent, or nobody. -/
  | assigneeChanged (assignee : Option Actor)
  | amended (title : Option (String × String)) (description : Option (Option String × Option String))
      (revision : Nat)
deriving DecidableEq

inductive ActorType where
  | user
  | agent
deriving DecidableEq

structure TaskHistoryEvent where
  seq : Nat
  actorType : ActorType
  /-- The actor's handle when the event was recorded. -/
  actorName : String
  change : TaskHistoryChange
deriving DecidableEq

structure Task where
  messageId : Uuid
  number : Nat
  /-- The stored title, with its tokens. -/
  title : String
  description : Option String
  /-- The mention rows of the Task's message. -/
  mentions : List MessageMentionRef
  creatorMemberId : Uuid
  requestId : Option Uuid
  ownerMemberId : Option Uuid
  status : TaskStatus
  revision : Nat
  createsResource : Bool
  /-- Whether `resourceReceipt` and `resourceExpiryFollowupId`, set together, are set. -/
  resourceReceipt : Bool
  sessions : List TaskExecutionSession
  history : List TaskHistoryEvent
  /-- What the Task read as when it was created. Not a column: what its history starts from. -/
  original : String × Option String
deriving DecidableEq

/-- The Task's owner, read through its member row. -/
def Task.owner (members : Uuid → Actor) (t : Task) : Option Actor := t.ownerMemberId.map members

/-- `task.owner?.agentId`. -/
def Task.ownerAgentId (members : Uuid → Actor) (t : Task) : Option Uuid :=
  t.ownerMemberId.bind fun memberId => (members memberId).agentId

/-! ### Guarded writes -/

/-- The conditions a guarded write adds to the Task's id. -/
structure TaskWhere where
  revision : Option Nat := none
  ownerMemberId : Option (Option Uuid) := none
  status : Option TaskStatus := none
  notStatus : Option TaskStatus := none
  noReceipt : Bool := false
deriving DecidableEq

/-- `where: { messageId, revision: before.revision, ...guard }`: a revision in the guard replaces
the one that was read. -/
def TaskWhere.holds (guard : TaskWhere) (before row : Task) : Bool :=
  row.messageId == before.messageId &&
    row.revision == guard.revision.getD before.revision &&
    guard.ownerMemberId.all (· == row.ownerMemberId) &&
    guard.status.all (· == row.status) &&
    guard.notStatus.all (· != row.status) &&
    !(guard.noReceipt && row.resourceReceipt)

/-- The columns a change writes. -/
structure TaskData where
  ownerMemberId : Option (Option Uuid) := none
  status : Option TaskStatus := none
  title : Option String := none
  description : Option (Option String) := none
  receipt : Bool := false
deriving DecidableEq

/-- `data: { ...data, revision: { increment: 1 } }`. -/
def TaskData.write (data : TaskData) (row : Task) : Task :=
  { row with
    ownerMemberId := data.ownerMemberId.getD row.ownerMemberId
    status := data.status.getD row.status
    title := data.title.getD row.title
    description := data.description.getD row.description
    resourceReceipt := data.receipt || row.resourceReceipt
    revision := row.revision + 1 }

end Coforge.Tasks
