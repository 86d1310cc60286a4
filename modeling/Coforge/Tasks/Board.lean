import Coforge.Tasks.History

/-!
# The Task board of a conversation

The commands of the members of one conversation. A command reads the Task, decides on a write, and
writes in a transaction that commits later or fails, so other commands come in between; `claim`,
`assign` and `unassign` hold the conversation lock from their read to their commit, and `update`
takes it for its write. `create` and the conversion of a message insert rows under the lock and are
one step each. The digest that names a request is a parameter, and so is the reading of a stored
body.
-/

namespace Coforge.Tasks

inductive ClaimRefusal where
  | taskNotFound
  | finished (status : TaskStatus)
  | held
deriving DecidableEq

inductive Refusal where
  | notFound
  | accessDenied
  | conflict
  | invalidInput
  | claimRefused (reason : ClaimRefusal)
deriving DecidableEq

/-- What a command writes, once it has read the Task. -/
inductive Write where
  | commit (guard : TaskWhere) (data : TaskData)
  | ensure (agentId : Uuid)
deriving DecidableEq

/-- The commands on an existing Task. -/
inductive Command where
  | claim
  | unclaim (expectedRevision : Option Nat)
  | update (status : TaskStatus) (expectedRevision : Option Nat)
  | assign (assignee : Option String) (expectedRevision : Option Nat) (idempotencyKey : Uuid)
  | unassign (expectedRevision : Option Nat)
  /-- The title trimmed. -/
  | amend (title : Option String) (description : Option (Option String))
      (expectedRevision : Option Nat)
  | receipt
deriving DecidableEq

/-! ### Decisions

Each returns the write of a command on the Task it read, `none` when it returns the Task as read. -/

namespace TaskBoard

variable (members : Uuid → Actor) (member : Member)

/-- `expectedRevision !== undefined && task.revision !== expectedRevision`. -/
def stale (expectedRevision : Option Nat) (task : Task) : Bool :=
  expectedRevision.any (· != task.revision)

def claim (existing : Task) : Except Refusal (Option Write) :=
  if existing.ownerMemberId = some member.id ∧
      (existing.status = .inProgress ∨ existing.status = .inReview) then
    match (members member.id).agentId with
    | some agentId =>
      .ok (if existing.executionSessions = [] then some (.ensure agentId) else none)
    | none => .ok none
  else if existing.status.finished then
    .error (.claimRefused (.finished existing.status))
  else if existing.ownerMemberId.any (· != member.id) then
    .error (.claimRefused .held)
  else
    .ok (some (.commit
      { ownerMemberId := some existing.ownerMemberId, status := some existing.status }
      { ownerMemberId := some (some member.id)
        status := some (if existing.status = .todo then .inProgress else existing.status) }))

def unclaim (expectedRevision : Option Nat) (task : Task) : Except Refusal (Option Write) :=
  if task.ownerMemberId ≠ some member.id then .error .accessDenied
  else if task.status = .done then .error .conflict
  else
    .ok (some (.commit
      { revision := some (expectedRevision.getD task.revision)
        ownerMemberId := some (some member.id)
        notStatus := some .done }
      { ownerMemberId := some none }))

def update (status : TaskStatus) (expectedRevision : Option Nat) (task : Task) :
    Except Refusal (Option Write) :=
  let isOwner := task.ownerMemberId == some member.id
  if stale expectedRevision task then .error .conflict
  else if (members member.id).agentId.isSome ∧ ¬isOwner then .error .accessDenied
  else if ¬isOwner ∧ (members member.id).userId.isNone then .error .accessDenied
  else if ¬isOwner ∧ status ≠ .todo ∧ status ≠ .done ∧ status ≠ .closed then .error .accessDenied
  else if status ≠ .todo ∧ status ≠ .closed ∧ task.ownerMemberId.isNone then .error .conflict
  else if status = .done ∧ task.createsResource ∧ ¬task.resourceReceipt then .error .conflict
  else .ok (some (.commit { ownerMemberId := some task.ownerMemberId } { status := some status }))

/-- An Agent changes only its own assignment. -/
def requiresHuman (owner : Option Member) (current : Task) : Bool :=
  owner.any (fun owner => owner.id != member.id) ||
    current.ownerMemberId.any (· != member.id)

/-- `assign`, where no receipt was found. The assignee is given as resolved. -/
def assign (owner : Option Member) (expectedRevision : Option Nat) (current : Task) :
    Except Refusal (Option Write) :=
  if requiresHuman member owner current ∧ (members member.id).userId.isNone then
    .error .accessDenied
  else if stale expectedRevision current then .error .conflict
  else if current.ownerMemberId = owner.map Member.id then .ok none
  else
    .ok (some (.commit { ownerMemberId := some current.ownerMemberId }
      { ownerMemberId := some (owner.map Member.id) }))

def unassign (expectedRevision : Option Nat) (current : Task) : Except Refusal (Option Write) :=
  if current.ownerMemberId.isNone then .ok none
  else if current.ownerMemberId ≠ some member.id ∧ (members member.id).userId.isNone then
    .error .accessDenied
  else if stale expectedRevision current then .error .conflict
  else
    .ok (some (.commit { ownerMemberId := some current.ownerMemberId }
      { ownerMemberId := some none }))

def amend (agentReadableBody : BodyReader) (title : Option String)
    (description : Option (Option String)) (expectedRevision : Option Nat) (task : Task) :
    Except Refusal (Option Write) :=
  if title.isNone ∧ description.isNone then .error .invalidInput
  else if stale expectedRevision task then .error .conflict
  else
    .ok (some (.commit {}
      { title := title.filter fun title => title ≠ task.shownTitle agentReadableBody
        description }))

/-- `receipt`, whether the member is an owner or admin of the Workspace given. -/
def receipt (manager : Bool) (task : Task) : Except Refusal (Option Write) :=
  if ¬task.createsResource then .error .conflict
  else if task.ownerMemberId ≠ some member.id ∧ ¬manager then .error .accessDenied
  else if task.resourceReceipt then .ok none
  else .ok (some (.commit { noReceipt := true } { receipt := true }))

end TaskBoard

/-- What a command makes of the Task it read. `resolved` is the member an assignee names, and
`manager` whether the member manages the Workspace. -/
def Command.decide (members : Uuid → Actor) (agentReadableBody : BodyReader) (member : Member)
    (resolved : Option Member) (manager : Bool) (task : Task) :
    Command → Except Refusal (Option Write)
  | .claim => TaskBoard.claim members member task
  | .unclaim expectedRevision => TaskBoard.unclaim member expectedRevision task
  | .update status expectedRevision => TaskBoard.update members member status expectedRevision task
  | .assign assignee expectedRevision _ =>
    if assignee.isSome ∧ resolved.isNone then .error .notFound
    else TaskBoard.assign members member (assignee.bind fun _ => resolved) expectedRevision task
  | .unassign expectedRevision => TaskBoard.unassign members member expectedRevision task
  | .amend title description expectedRevision =>
    TaskBoard.amend agentReadableBody title description expectedRevision task
  | .receipt => TaskBoard.receipt member manager task

/-! ### The board -/

/-- A command between its read and its commit. -/
structure Pending where
  member : Member
  command : Command
  resolved : Option Member
  before : Task
  write : Write
deriving DecidableEq

structure World where
  tasks : List Task
  messages : List Message
  nextTaskNumber : Nat
  /-- The messages whose deliveries were pushed to Agents. -/
  published : List Uuid
  /-- Whether a pending command holds the conversation lock. -/
  locked : Bool
  pending : List Pending
deriving DecidableEq

/-- A conversation without Tasks. -/
def World.empty : World where
  tasks := []
  messages := []
  nextTaskNumber := 1
  published := []
  locked := false
  pending := []

structure TaskResult where
  /-- The message ids of the Tasks. -/
  tasks : List Uuid
  /-- The assignment receipt, and the handle of its assignee. -/
  receipt : Option (Uuid × String)
  /-- Whether the command wrote. -/
  changed : Bool
deriving DecidableEq

inductive Reply where
  /-- The transaction has not ended. -/
  | suspended
  | answered (result : TaskResult)
  | refused (refusal : Refusal)
  /-- The transaction ended without a commit. -/
  | aborted
deriving DecidableEq

structure CreateCommand where
  titles : List String
  description : Option String
  createsResource : Bool
  assignee : Option String
  idempotencyKey : Uuid
deriving DecidableEq

/-- What the server adds to a title: new ids, the stored body and its mentions, and whom it wakes. -/
structure NewTask where
  messageId : Uuid
  sessionId : Uuid
  title : String
  mentions : List MessageMention
  deliveries : List Uuid
deriving DecidableEq

inductive Event where
  /-- `duplicate`: another member's unfinished Task of the last minutes has the title. -/
  | create (member : Member) (command : CreateCommand) (assignee : Option Member) (duplicate : Bool)
      (rows : List NewTask) (noticeId : Uuid) (now : Nat)
  /-- A message that may be a Task already, with its text and mentions. -/
  | convert (member : Member) (row : NewTask) (noticeId : Uuid)
  /-- A claim of a message that is no Task yet. -/
  | claimMessage (member : Member) (row : NewTask) (noticeId claimNoticeId : Uuid) (now : Nat)
  | start (member : Member) (command : Command) (resolved : Option Member) (manager : Bool)
      (number : Nat)
  | finish (index : Nat) (sessionId noticeId : Uuid) (now : Nat)
  | abort (index : Nat)
deriving DecidableEq

/-! ### Requests and their ids -/

/-- The text that is hashed for an id: the index of a Task of a creation, or the receipt of the
assignment that a creation or an `assign` makes. -/
inductive RequestName where
  | task (requestId : Uuid) (index : Nat)
  | createReceipt (memberId idempotencyKey : Uuid)
  | assignReceipt (memberId : Uuid) (number : Nat) (idempotencyKey : Uuid)
deriving DecidableEq

section Requests

variable (digest : RequestName → Uuid)

/-- The request id of the Task with an index among those a command creates. -/
def indexedRequestId (requestId : Uuid) (index : Nat) : Uuid :=
  if index = 0 then requestId else digest (.task requestId index)

def requestIds (command : CreateCommand) : List Uuid :=
  (List.range command.titles.length).map (indexedRequestId digest command.idempotencyKey)

def createReceiptId (member : Member) (idempotencyKey : Uuid) : Uuid :=
  digest (.createReceipt member.id idempotencyKey)

def assignReceiptId (member : Member) (number : Nat) (idempotencyKey : Uuid) : Uuid :=
  digest (.assignReceipt member.id number idempotencyKey)

end Requests

/-- The handle of the member an assignment receipt named, with the receipt's id. -/
def World.receiptOf (w : World) (receiptId : Uuid) : Option (Uuid × String) :=
  (w.messages.find? (·.id = receiptId)).bind fun receipt =>
    (receipt.mentions.head?).map fun mention => (receipt.id, mention.handle)

/-- The assignment receipt for an assignee: delivered unless the assignee is the actor. -/
def assignmentReceipt (members : Uuid → Actor) (id : Uuid) (assignee actor : Member) : Message where
  id := id
  threadRootId := none
  mentions := [{ actor := members assignee.id, handle := assignee.handle, memberId := assignee.id }]
  deliveries := if assignee.id = actor.id then [] else ((members assignee.id).agentId).toList

def notice (id : Uuid) (threadRootId : Option Uuid) : Message where
  id := id
  threadRootId := threadRootId
  mentions := []
  deliveries := []

/-! ### New Tasks -/

/-- A Task as it is inserted, with the history of its creation. -/
def createTask (members : Uuid → Actor) (agentReadableBody : BodyReader) (member : Member)
    (assignee : Option Member) (description : Option String) (createsResource : Bool)
    (requestId : Option Uuid) (number : Nat) (row : NewTask) (now : Nat) : Task :=
  let mentions := row.mentions.map MessageMention.toMessageMentionRef
  let started := assignee.map Member.id = some member.id
  let inserted : Task :=
    { messageId := row.messageId, number, title := row.title, description, mentions
      creatorMemberId := member.id, requestId, ownerMemberId := assignee.map Member.id
      status := if started then .inProgress else .todo, revision := 0, createsResource
      resourceReceipt := false, sessions := [], history := []
      original := (agentReadableBody row.title mentions, description) }
  let task :=
    match inserted.ownerAgentId members with
    | some agentId => ensureTaskExecutionSession now row.sessionId agentId inserted
    | none => inserted
  { task with history := historyRows members member (creationChanges members task) 0 }

/-- The message of a new Task. -/
def NewTask.message (row : NewTask) : Message where
  id := row.messageId
  threadRootId := none
  mentions := row.mentions
  deliveries := row.deliveries

/-! ### Steps -/

section Steps

variable (members : Uuid → Actor) (agentReadableBody : BodyReader) (digest : RequestName → Uuid)

/-- The rows a transaction inserts have ids no message has. -/
def World.fresh (w : World) (ids : List Uuid) : Bool :=
  ids.Nodup ∧ (∀ message ∈ w.messages, message.id ∉ ids) ∧ ∀ task ∈ w.tasks, task.messageId ∉ ids

def Task.freshSession (t : Task) (id : Uuid) : Bool :=
  t.sessions.all (·.id != id)

/-- The messages of new Tasks that are pushed: an Agent's Task wakes nobody. -/
def pushedTasks (member : Member) (rows : List NewTask) : List Uuid :=
  if (members member.id).userId.isSome then rows.map NewTask.messageId else []

/-- The receipt of a creation for an assignee. -/
def creationReceipt (member : Member) (command : CreateCommand) (assignee : Option Member) :
    Option Message :=
  assignee.map fun assignee =>
    assignmentReceipt members (createReceiptId digest member command.idempotencyKey) assignee member

/-- The messages a creation posts: one for each Task, the notice, and the receipt. -/
def createdMessages (member : Member) (command : CreateCommand) (assignee : Option Member)
    (rows : List NewTask) (noticeId : Uuid) : List Message :=
  rows.map NewTask.message ++
    notice noticeId none :: (creationReceipt members digest member command assignee).toList

def createdTasks (w : World) (member : Member) (command : CreateCommand)
    (assignee : Option Member) (rows : List NewTask) (now : Nat) : List Task :=
  rows.mapIdx fun index row =>
    createTask members agentReadableBody member assignee command.description
      command.createsResource (some (indexedRequestId digest command.idempotencyKey index))
      (w.nextTaskNumber + index) row now

/-- The Tasks of an earlier attempt of a creation. -/
def World.retried (w : World) (member : Member) (command : CreateCommand) : List Task :=
  w.tasks.filter fun task => task.creatorMemberId = member.id ∧
    task.requestId.any (· ∈ requestIds digest command)

/-- `create`: a repetition answers with the Tasks it finds. -/
def World.create (w : World) (member : Member) (command : CreateCommand)
    (assignee : Option Member) (duplicate : Bool) (rows : List NewTask) (noticeId : Uuid)
    (now : Nat) : Reply × World :=
  let receiptId := createReceiptId digest member command.idempotencyKey
  let retried := w.retried digest member command
  let messages := createdMessages members digest member command assignee rows noticeId
  if command.titles = [] then (.refused .invalidInput, w)
  else if retried ≠ [] then
    if retried.length ≠ command.titles.length then (.refused .conflict, w)
    else
      let sorted := retried.mergeSort fun task task' => task.number ≤ task'.number
      (.answered
        { tasks := sorted.map Task.messageId
          receipt := w.receiptOf receiptId
          changed := false }, w)
  else if (members member.id).agentId.isSome ∧ command.titles.length = 1 ∧ duplicate then
    (.answered { tasks := [], receipt := none, changed := false }, w)
  else if command.assignee.isSome ∧ assignee.isNone then (.refused .notFound, w)
  else if (assignee.any fun assignee => assignee.id != member.id) ∧
      (members member.id).userId.isNone then (.refused .accessDenied, w)
  else if rows.length = command.titles.length ∧ (requestIds digest command).Nodup ∧
      w.fresh (messages.map Message.id) then
    (.answered
      { tasks := rows.map NewTask.messageId
        receipt := assignee.map fun assignee => (receiptId, assignee.handle)
        changed := true },
      { w with
        tasks := w.tasks ++
          createdTasks members agentReadableBody digest w member command assignee rows now
        messages := w.messages ++ messages
        nextTaskNumber := w.nextTaskNumber + rows.length
        published := w.published ++ pushedTasks members member rows ++
          ((creationReceipt members digest member command assignee).map Message.id).toList })
  else (.aborted, w)

/-- The Task that a message is converted to. -/
def convertedTask (w : World) (member : Member) (row : NewTask) (now : Nat) : Task :=
  createTask members agentReadableBody member none none false none w.nextTaskNumber row now

/-- The Task for a message, inserted with its notice. -/
def World.insert (w : World) (task : Task) (noticeId : Uuid) : World :=
  { w with
    tasks := w.tasks ++ [task]
    messages := w.messages ++ [notice noticeId none]
    nextTaskNumber := w.nextTaskNumber + 1 }

def World.convert (w : World) (member : Member) (row : NewTask) (noticeId : Uuid) : Reply × World :=
  match w.tasks.find? (·.messageId = row.messageId) with
  | some existing =>
    (.answered { tasks := [existing.messageId], receipt := none, changed := false }, w)
  | none =>
    if w.fresh [noticeId] then
      (.answered { tasks := [row.messageId], receipt := none, changed := true },
        w.insert (convertedTask members agentReadableBody w member row 0) noticeId)
    else (.aborted, w)

/-- The rows with the one a write changed. -/
def World.replace (w : World) (task : Task) : World :=
  { w with tasks := w.tasks.map fun row => if row.messageId = task.messageId then task else row }

/-- The notices of a commit, with the receipt of an assignment. -/
def Pending.messages (p : Pending) (task : Task) (noticeId : Uuid) : List Message :=
  let inThread := [notice noticeId (some task.messageId)]
  match p.command, p.resolved with
  | .assign (some _) _ idempotencyKey, some assignee =>
    [assignmentReceipt members (assignReceiptId digest p.member task.number idempotencyKey) assignee
      p.member]
  | .claim, _ | .assign _ _ _, _ | .unassign _, _ => inThread
  | .update _ _, _ => if task.status = p.before.status then [] else inThread
  | .unclaim _, _ | .amend _ _ _, _ | .receipt, _ => []

/-- The receipt that the answer names. -/
def Pending.receipt (p : Pending) : Option (Uuid × String) :=
  match p.command, p.resolved with
  | .assign (some _) _ idempotencyKey, some assignee =>
    some (assignReceiptId digest p.member p.before.number idempotencyKey, assignee.handle)
  | _, _ => none

/-- The ids of the messages that a command may post. -/
def Pending.ids (p : Pending) (noticeId : Uuid) : List Uuid :=
  noticeId :: ((p.receipt digest).map Prod.fst).toList

/-- Whether a command holds the conversation lock from its read to its commit. -/
def Command.locks : Command → Bool
  | .claim | .assign _ _ _ | .unassign _ => true
  | _ => false

/-- Whether a command takes the lock for its write. -/
def Command.locksWrite : Command → Bool
  | .update _ _ => true
  | _ => false

/-- The write of a pending command that is taken from the list of those. -/
def World.commit (w : World) (p : Pending) (sessionId noticeId : Uuid) (now : Nat) : Reply × World :=
  match p.write with
  | .ensure agentId =>
    match w.tasks.find? (·.messageId = p.before.messageId) with
    | some row =>
      if row.freshSession sessionId then
        (.answered { tasks := [row.messageId], receipt := none, changed := true },
          w.replace (ensureTaskExecutionSession now sessionId agentId row))
      else (.aborted, w)
    | none => (.aborted, w)
  | .commit guard data =>
    match w.tasks.find? (guard.holds p.before) with
    | none => (.refused .conflict, w)
    | some row =>
      match commitTaskChange members agentReadableBody p.member now sessionId p.before guard data
        row with
      | none => (.refused .conflict, w)
      | some task =>
        let receipt := p.receipt digest
        if row.freshSession sessionId ∧ w.fresh (p.ids digest noticeId) then
          (.answered { tasks := [task.messageId], receipt, changed := true },
            { w.replace task with
              messages := w.messages ++ p.messages members digest task noticeId
              published := w.published ++ (receipt.map Prod.fst).toList })
        else (.aborted, w)

/-- A claim of a message that is no Task yet: the Task is inserted and claimed at once. -/
def World.claimMessage (w : World) (member : Member) (row : NewTask) (noticeId claimNoticeId : Uuid)
    (now : Nat) : Reply × World :=
  let task := convertedTask members agentReadableBody w member row now
  let inserted := w.insert task noticeId
  match w.tasks.find? (·.messageId = row.messageId), TaskBoard.claim members member task with
  | none, .ok (some write) =>
    if w.fresh [noticeId] then
      let p := { member, command := .claim, resolved := none, before := task, write }
      let result := inserted.commit members agentReadableBody digest p row.sessionId claimNoticeId now
      match result.1 with
      | .answered _ => result
      | reply => (reply, w)
    else (.aborted, w)
  | _, _ => (.aborted, w)

/-- The receipt of an earlier attempt of an assignment. -/
def World.receiptFound (w : World) (member : Member) (number : Nat) :
    Command → Option (Uuid × String)
  | .assign _ _ idempotencyKey => w.receiptOf (assignReceiptId digest member number idempotencyKey)
  | _ => none

/-- The read of a command: its answer, or the pending write. -/
def World.start (w : World) (member : Member) (command : Command) (resolved : Option Member)
    (manager : Bool) (number : Nat) : Reply × World :=
  match w.receiptFound digest member number command, w.tasks.find? (·.number = number) with
  | some receipt, task =>
    (.answered
      { tasks := (task.map Task.messageId).toList, receipt := some receipt, changed := false }, w)
  | none, none => (.refused (if command = .claim then .claimRefused .taskNotFound else .notFound), w)
  | none, some task =>
    match command.decide members agentReadableBody member resolved manager task with
    | .error refusal => (.refused refusal, w)
    | .ok none => (.answered { tasks := [task.messageId], receipt := none, changed := false }, w)
    | .ok (some write) =>
      (.suspended,
        { w with
          locked := w.locked || command.locks
          pending := w.pending ++ [{ member, command, resolved, before := task, write }] })

/-- The pending command leaves, with the lock if it held it. -/
def World.leave (w : World) (index : Nat) (p : Pending) : World :=
  { w with
    locked := w.locked && !p.command.locks
    pending := w.pending.eraseIdx index }

/-- What an event does, and what its command answers. A transaction that needs the lock while a
pending command holds it waits. -/
def execute (w : World) : Event → Option (Reply × World)
  | .create member command assignee duplicate rows noticeId now =>
    if w.locked then none
    else
      some (w.create members agentReadableBody digest member command assignee duplicate rows
        noticeId now)
  | .convert member row noticeId =>
    if w.locked then none else some (w.convert members agentReadableBody member row noticeId)
  | .claimMessage member row noticeId claimNoticeId now =>
    if w.locked then none
    else
      some (w.claimMessage members agentReadableBody digest member row noticeId claimNoticeId now)
  | .start member command resolved manager number =>
    if w.locked ∧ command.locks then none
    else some (w.start members agentReadableBody digest member command resolved manager number)
  | .finish index sessionId noticeId now =>
    match w.pending[index]? with
    | none => none
    | some p =>
      if w.locked ∧ p.command.locksWrite then none
      else
        some ((w.leave index p).commit members agentReadableBody digest p sessionId noticeId now)
  | .abort index =>
    match w.pending[index]? with
    | none => none
    | some p => some (.aborted, w.leave index p)

def step (w : World) (event : Event) : Option World :=
  (execute members agentReadableBody digest w event).map Prod.snd

end Steps

end Coforge.Tasks
