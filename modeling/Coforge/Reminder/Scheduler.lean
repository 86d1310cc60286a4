import Coforge.Lib.Serial
import Coforge.Reminder.Mirror

/-!
# The reminder scheduler

`ReminderScheduler` as seen by one Agent: the mirror of its jobs, the timers, the receipts in
memory, the receipt file, and the queue of operations that run one at a time for the Agent. A
receipt is an object: the map, a timer and a queued operation may hold the same one, and what one
of them writes to it the others see. So receipts live in a heap and are passed by reference; each
read of the file and each `structuredClone` makes a new object.

A flight is what `#startEffect` set going for an occurrence: the operation that persists the
attempt, the fire request or the wake, and the operation that takes the answer. What its closures
hold is kept in its phase. The continuation of the persisting operation runs before the next
operation of the Agent begins, so it is the end of that operation here.

A timer may fire at any moment once it is armed, and every answer of the server, of the Agent and
of the file system is the choice of the environment, failures that took effect included.
-/

namespace Coforge.Reminder

open Keyed Async Prog

/-! ### Receipts -/

inductive FireResult where
  | accepted
  | premature
  | obsolete
deriving DecidableEq

structure ReminderFireRequest where
  protocolMajor : Nat
  requestId : String
  workspaceId : String
  computerId : String
  agentId : String
  reminderId : String
  version : Nat
  firedAtClient : Int
deriving DecidableEq

structure ReminderFireResponse where
  protocolMajor : Nat
  requestId : String
  workspaceId : String
  computerId : String
  agentId : String
  reminderId : String
  version : Nat
  result : FireResult
  fired : Bool
  catchup : Bool
  retryAfterMs : Option Int
deriving DecidableEq

inductive ReminderRetryStage where
  | fire
  | wake
deriving DecidableEq

structure ReminderRetryExhausted where
  stage : ReminderRetryStage
  attempts : Nat
  deadline : Int
  exhaustedAt : Int
deriving DecidableEq

/-- The reminder and the version of an occurrence. -/
abbrev ReceiptKey := String × Nat

structure ReminderReceipt where
  workspaceId : String
  computerId : String
  agentId : String
  reminderId : String
  version : Nat
  job : ReminderJob
  requestId : String
  firedAtClient : Int
  attempt : Nat
  deadline : Int
  nextAt : Int
  serverResult : Option FireResult
  serverFired : Option Bool
  serverCatchup : Option Bool
  wakeAccepted : Bool
  consumed : Bool
  terminal : Bool
  retryExhausted : Option ReminderRetryExhausted
deriving DecidableEq, Inhabited

def ReminderReceipt.key (r : ReminderReceipt) : ReceiptKey := (r.reminderId, r.version)

/-- The cloud accepted the fire, so that only the wake remains. -/
def ReminderReceipt.serverAccepted (r : ReminderReceipt) : Bool :=
  r.serverResult = some .accepted ∧ r.serverFired = some true

/-- Neither acknowledged nor ended. -/
def ReminderReceipt.live (r : ReminderReceipt) : Bool := !r.consumed && !r.terminal

lemma ReminderReceipt.live_of_terminal {r : ReminderReceipt} (h : r.terminal = true) :
    r.live = false := by
  simp [live, h]

/-- The daemon and the Agent a scheduler serves, the identities `crypto.randomUUID` hands out, and
whether the wire encoders accept the texts of a receipt. -/
structure Setting where
  scope : Scope
  agentId : String
  randomUUID : Nat → String
  encodes : ReminderReceipt → Bool

def MAX_ATTEMPTS : Nat := 8
def RETRY_BUDGET_MS : Int := 15 * 60000
def LATE_AFTER_MS : Int := 60000
def RECEIPT_RETENTION_MS : Int := 7 * 24 * 60 * 60 * 1000

/-- `receipt` of the receipt store. -/
def Setting.valid (E : Setting) (r : ReminderReceipt) : Bool :=
  r.workspaceId = E.scope.workspaceId ∧ r.agentId = E.agentId ∧
    r.computerId = E.scope.computerId ∧ 0 < r.version ∧ r.job.ownerAgentId = E.agentId ∧
    r.job.reminderId = r.reminderId ∧ r.job.version = r.version ∧
    (r.wakeAccepted → r.terminal) ∧ (r.consumed → r.terminal) ∧
    (r.retryExhausted ≠ none → r.terminal) ∧ E.encodes r

/-- What the receipt store reads and writes: valid receipts, no two of one occurrence. -/
def Setting.storable (E : Setting) (rs : List ReminderReceipt) : Bool :=
  rs.all E.valid ∧ (rs.map ReminderReceipt.key).Nodup

/-- The content of a receipt file. -/
structure Stored (E : Setting) where
  receipts : List ReminderReceipt
  storable : E.storable receipts

/-! ### The state -/

/-- A receipt object. -/
abbrev Ref := Nat

/-- What follows a successful write of a receipt: `false`, `true` or `"retry"`. -/
inductive Proceed where
  | no
  | yes
  | retry
deriving DecidableEq

inductive ScheduleTimer where
  | due (job : ReminderJob)
  | serverRetry (job : ReminderJob)
deriving DecidableEq

structure ReceiptTimer where
  receipt : Ref
  proceed : Bool
  afterPersistence : Proceed
deriving DecidableEq

inductive Phase where
  | persisting
  | firing (request : ReminderFireRequest)
  | fired (response : Option ReminderFireResponse)
  | waking
  | woken (accepted : Bool)
  | settled (readyToWake : Bool)
deriving DecidableEq

structure Flight where
  generation : Nat
  phase : Phase
deriving DecidableEq

/-- The operations that run one at a time for the Agent. -/
inductive Task where
  | apply (sync : ReminderSync)
  | acknowledge (reminderId : String) (version : Nat)
  | prepareDue (job : ReminderJob)
  | receiptDue (key : ReceiptKey) (proceed : Bool) (afterPersistence : Proceed)
  | persistAttempt (key : ReceiptKey)
  | fireAnswered (key : ReceiptKey)
  | wakeAnswered (key : ReceiptKey)
  | persistExhausted (receipt : Ref)
deriving DecidableEq

/-- What can be observed of a scheduler: the requests it sends, the wakes that were accepted, and
the occurrences whose receipt left the file. -/
inductive Observed where
  | fire (request : ReminderFireRequest)
  | wake (key : ReceiptKey) (job : ReminderJob) (late : Bool)
  | woken (key : ReceiptKey)
  | discarded (key : ReceiptKey)
deriving DecidableEq

structure Scheduler (E : Setting) where
  mirror : Mirror
  scheduleTimers : String → Option ScheduleTimer
  receiptTimers : ReceiptKey → Option ReceiptTimer
  receipts : ReceiptKey → Option Ref
  heap : Ref → ReminderReceipt
  size : Nat
  flights : ReceiptKey → Option Flight
  persistenceFailures : ReceiptKey → Nat
  generation : Nat
  queue : List Task
  now : Int
  stored : Stored E
  uuids : Nat
  log : List Observed

namespace Scheduler

variable {E : Setting}

/-! ### Steps between two awaits -/

def running (s : Scheduler E) : Bool := s.mirror.running

/-- `#serial`. -/
def enqueue (task : Task) (s : Scheduler E) : Scheduler E := { s with queue := s.queue ++ [task] }

/-- Write to an object. -/
def mutate (ref : Ref) (f : ReminderReceipt → ReminderReceipt) (s : Scheduler E) : Scheduler E :=
  { s with heap := Function.update s.heap ref (f (s.heap ref)) }

/-- Make a new object. Its reference is the size of the heap before. -/
def alloc (r : ReminderReceipt) (s : Scheduler E) : Scheduler E :=
  { s with heap := Function.update s.heap s.size r, size := s.size + 1 }

def setReceipt (key : ReceiptKey) (ref : Ref) (s : Scheduler E) : Scheduler E :=
  { s with receipts := Function.update s.receipts key (some ref) }

def setPhase (key : ReceiptKey) (generation : Nat) (phase : Phase) (s : Scheduler E) :
    Scheduler E :=
  { s with flights := Function.update s.flights key (some ⟨generation, phase⟩) }

def observe (o : Observed) (s : Scheduler E) : Scheduler E := { s with log := s.log ++ [o] }

section Fields

variable {s : Scheduler E} {key key' : ReceiptKey} {ref ref' : Ref} {generation : Nat}
  {phase : Phase} {r : ReminderReceipt} {f : ReminderReceipt → ReminderReceipt}

@[simp] lemma heap_mutate : (s.mutate ref f).heap ref = f (s.heap ref) := Function.update_self _ _ _

lemma heap_mutate_of_ne (h : ref' ≠ ref) : (s.mutate ref f).heap ref' = s.heap ref' :=
  Function.update_of_ne h _ _

@[simp] lemma heap_alloc : (s.alloc r).heap s.size = r := Function.update_self _ _ _

lemma heap_alloc_of_ne (h : ref ≠ s.size) : (s.alloc r).heap ref = s.heap ref :=
  Function.update_of_ne h _ _

@[simp] lemma receipts_setReceipt : (s.setReceipt key ref).receipts key = some ref :=
  Function.update_self _ _ _

lemma receipts_setReceipt_of_ne (h : key' ≠ key) :
    (s.setReceipt key ref).receipts key' = s.receipts key' :=
  Function.update_of_ne h _ _

@[simp] lemma flights_setPhase :
    (s.setPhase key generation phase).flights key = some ⟨generation, phase⟩ :=
  Function.update_self _ _ _

lemma flights_setPhase_of_ne (h : key' ≠ key) :
    (s.setPhase key generation phase).flights key' = s.flights key' :=
  Function.update_of_ne h _ _

end Fields

def backoff (attempt : Nat) : Int := min 60000 (1000 * 2 ^ (attempt - 1))

def armReceipt (ref : Ref) (time : Int) (proceed : Bool) (afterPersistence : Proceed)
    (s : Scheduler E) : Scheduler E :=
  let receipt := s.heap ref
  if !s.running || receipt.consumed || receipt.terminal then s
  else
    { s.mutate ref fun r => { r with nextAt := min r.deadline time } with
      receiptTimers := Function.update s.receiptTimers receipt.key
        (some ⟨ref, proceed, afterPersistence⟩) }

/-- `#exhaust`. -/
def exhaust (ref : Ref) (s : Scheduler E) : Scheduler E :=
  if (s.heap ref).terminal then s
  else
    (s.mutate ref fun r =>
      { r with
        terminal := true
        retryExhausted := some
          { stage := if r.serverAccepted then .wake else .fire
            attempts := r.attempt, deadline := r.deadline, exhaustedAt := s.now } }).enqueue
      (.persistExhausted ref)

def retry (ref : Ref) (s : Scheduler E) : Scheduler E :=
  let receipt := s.heap ref
  if MAX_ATTEMPTS ≤ receipt.attempt ∨ receipt.deadline ≤ s.now then s.exhaust ref
  else
    let nextAt := min receipt.deadline (s.now + backoff receipt.attempt)
    (s.mutate ref fun r => { r with nextAt := nextAt }).armReceipt ref nextAt true .yes

def startEffect (ref : Ref) (s : Scheduler E) : Scheduler E :=
  let receipt := s.heap ref
  if !s.running || (s.flights receipt.key).isSome then s
  else if MAX_ATTEMPTS ≤ receipt.attempt ∨ receipt.deadline ≤ s.now then s.exhaust ref
  else
    ((s.mutate ref fun r => { r with attempt := r.attempt + 1 }).setPhase receipt.key
      s.generation .persisting).enqueue (.persistAttempt receipt.key)

def armSchedule (job : ReminderJob) (s : Scheduler E) : Scheduler E :=
  if !s.running then s
  else { s with scheduleTimers := Function.update s.scheduleTimers job.reminderId (some (.due job)) }

def cancelSchedule (reminderId : String) (s : Scheduler E) : Scheduler E :=
  { s with scheduleTimers := Function.update s.scheduleTimers reminderId none }

def armServerRetry (job : ReminderJob) (s : Scheduler E) : Scheduler E :=
  if !s.running then s
  else
    { s with
      scheduleTimers := Function.update s.scheduleTimers job.reminderId (some (.serverRetry job)) }

/-- One receipt of the file, as `#restore` takes it back. -/
def restoreOne (s : Scheduler E) (receipt : ReminderReceipt) : Scheduler E :=
  if receipt.workspaceId ≠ E.scope.workspaceId ∨ receipt.computerId ≠ E.scope.computerId ∨
      receipt.agentId ≠ E.agentId then s
  else
    let t := (s.alloc receipt).setReceipt receipt.key s.size
    if receipt.live then t.armReceipt s.size receipt.nextAt true .yes else t

/-- The receipt of an occurrence that falls due for the first time. -/
def mint (job : ReminderJob) (s : Scheduler E) : ReminderReceipt where
  workspaceId := E.scope.workspaceId
  computerId := E.scope.computerId
  agentId := job.ownerAgentId
  reminderId := job.reminderId
  version := job.version
  job := job
  requestId := E.randomUUID s.uuids
  firedAtClient := s.now
  attempt := 0
  deadline := s.now + RETRY_BUDGET_MS
  nextAt := s.now
  serverResult := none
  serverFired := none
  serverCatchup := none
  wakeAccepted := false
  consumed := false
  terminal := false
  retryExhausted := none

/-- Consumed receipts whose re-fire fence has expired are dropped. -/
def retained (s : Scheduler E) (rs : List ReminderReceipt) : List ReminderReceipt :=
  rs.filter fun r => !(r.consumed && r.terminal && decide (r.deadline < s.now - RECEIPT_RETENTION_MS))

/-! ### The receipt file -/

inductive StoreCall where
  | read
  | write (receipts : List ReminderReceipt)
deriving DecidableEq

abbrev StoreReply : StoreCall → Type
  | .read    => Except String (List ReminderReceipt)
  | .write _ => Except String Unit

/-- How a call of the store ends: it succeeds, it fails, or it fails after it took effect. -/
inductive Outcome where
  | done
  | failed (message : String)
  | failedAfter (message : String)
deriving DecidableEq

/-- The file after a write. The occurrences that are no longer in it are discarded. -/
def land (rs : List ReminderReceipt) (h : E.storable rs) (s : Scheduler E) : Scheduler E :=
  { s with
    stored := ⟨rs, h⟩
    log := s.log ++ (s.stored.receipts.filter fun r =>
      find ReminderReceipt.key r.key rs = none).map fun r => .discarded r.key }

def answer : (e : StoreCall) → Outcome → Scheduler E → Option (StoreReply e × Scheduler E)
  | .read, .done, s                => some (.ok s.stored.receipts, s)
  | .read, .failed message, s      => some (.error message, s)
  | .read, .failedAfter message, s => some (.error message, s)
  | .write rs, .done, s =>
    if h : E.storable rs then some (.ok (), s.land rs h)
    else some (.error "reminder receipts are corrupt", s)
  | .write _, .failed message, s => some (.error message, s)
  | .write rs, .failedAfter message, s =>
    if h : E.storable rs then some (.error message, s.land rs h)
    else some (.error "reminder receipts are corrupt", s)

/-! ### Operations -/

abbrev Op (E : Setting) (α : Type) := Prog (Scheduler E) StoreReply String α

def readReceipts : Op E (List ReminderReceipt) := request .read >>= Prog.ofExcept

def writeReceipts (rs : List ReminderReceipt) : Op E Unit := request (.write rs) >>= Prog.ofExcept

/-- Make an object of a receipt and put it in the map. -/
def adopt (receipt : ReminderReceipt) : Op E Ref := do
  let ref ← gets size
  update fun s => (s.alloc receipt).setReceipt receipt.key ref
  pure ref

def fresh (key : ReceiptKey) : Op E (Option Ref) := do
  let disk ← tryCatch (find ReminderReceipt.key key <$> readReceipts) fun _ => pure none
  (match disk with
    | some receipt => (fun _ => ()) <$> adopt receipt
    | none => pure ())
  gets fun s => s.receipts key

/-- The receipt as it is merged with the one of the file: an acknowledgement there stays. -/
def merge (existing : Option ReminderReceipt) (receipt : ReminderReceipt) : ReminderReceipt :=
  if existing.any ReminderReceipt.consumed then
    { receipt with consumed := true, terminal := true, retryExhausted := none }
  else receipt

/-- `#saveMerged`: the merged copy once it is in the file. -/
def saveMerged (ref : Ref) : Op E ReminderReceipt := do
  let receipts ← readReceipts
  let receipt ← gets fun s => s.heap ref
  let merged := merge (find ReminderReceipt.key receipt.key receipts) receipt
  let kept ← gets fun s => s.retained (put ReminderReceipt.key merged receipts)
  writeReceipts kept
  pure merged

/-- What follows a receipt that was written, unless it has ended. -/
def follow (proceed : Proceed) (ref : Ref) (s : Scheduler E) : Scheduler E :=
  match proceed with
  | .no    => s
  | .yes   => if (s.heap ref).live then s.startEffect ref else s
  | .retry => if (s.heap ref).live then s.retry ref else s

def persistOrRetry (ref : Ref) (proceed afterFailure : Proceed) : Op E Bool := do
  let key ← gets fun s => (s.heap ref).key
  tryCatch
    (do
      let merged ← saveMerged ref
      let current ← adopt merged
      update fun s =>
        { s with persistenceFailures := Function.update s.persistenceFailures key 0 }
      update (follow proceed current)
      gets fun s => (s.heap current).live)
    fun _ => do
      update fun s =>
        { s with persistenceFailures :=
            Function.update s.persistenceFailures key (s.persistenceFailures key + 1) }
      let stopped ← gets fun s => !s.running
      let failures ← gets fun s => s.persistenceFailures key
      let spent ← gets fun s => decide (MAX_ATTEMPTS ≤ failures ∨ (s.heap ref).deadline ≤ s.now)
      (if stopped || spent then pure false
        else do
          update fun s => s.mutate ref fun r =>
            { r with nextAt := min r.deadline (s.now + backoff failures) }
          update fun s => s.armReceipt ref (s.heap ref).nextAt false afterFailure
          pure false)

/-- `#restore`. -/
def restore : Op E Unit := do
  let receipts ← tryCatch (some <$> readReceipts) fun _ => pure none
  update fun s => (receipts.getD []).foldl restoreOne s

/-- A single change is not taken before the Agent's first snapshot, nor against the fence. -/
def ignores (s : Scheduler E) (sync : ReminderSync) (reminderId : String) (version : Nat) : Bool :=
  !s.mirror.authorized sync.agentId || s.mirror.fenced (sync.agentId, reminderId) version

def apply (sync : ReminderSync) : Op E Unit := do
  let s ← read
  let mirror ← Prog.ofExcept (s.mirror.apply E.scope sync)
  match sync.operation with
  | .snapshot _ => do
    update fun s => (mirror.jobs sync.agentId).foldl (fun t job => t.armSchedule job)
      { s with mirror := mirror, scheduleTimers := fun _ => none }
    restore
  | .upsert job =>
    update fun s =>
      if s.ignores sync job.reminderId job.version then s
      else ({ s.cancelSchedule job.reminderId with mirror := mirror }).armSchedule job
  | .cancel reminderId version =>
    update fun s =>
      if s.ignores sync reminderId version then s
      else { s.cancelSchedule reminderId with mirror := mirror }

def acknowledge (reminderId : String) (version : Nat) : Op E Bool := do
  let key := (reminderId, version)
  let receipts ← tryCatch (some <$> readReceipts) fun _ => pure none
  let stored := receipts.bind (find ReminderReceipt.key key)
  let known ← gets fun s => (s.receipts key).map s.heap
  match stored <|> known with
  | none => pure false
  | some receipt =>
    if !receipt.serverAccepted then pure false
    else do
      let consumed := { receipt with consumed := true, terminal := true }
      (match receipts with
        | none => pure ()
        | some receipts => do
          let kept ← gets fun s => s.retained (put ReminderReceipt.key consumed receipts)
          writeReceipts kept)
      let _ ← adopt consumed
      update fun s => { s with receiptTimers := Function.update s.receiptTimers key none }
      pure true

def prepareDue (job : ReminderJob) : Op E Unit := do
  let key := (job.reminderId, job.version)
  let due ← gets fun s => s.running && decide
    ((s.mirror.held job.ownerAgentId job.reminderId).map ReminderJob.version = some job.version)
  if !due then pure ()
  else do
    let known ← gets fun s => s.receipts key
    let ref ← (match known with
      | some ref => pure ref
      | none => do
        let found ← tryCatch (find ReminderReceipt.key key <$> readReceipts) fun _ => pure none
        let minted ← gets (mint job)
        (match found with
          | some receipt => adopt receipt
          | none => do
            update fun s => { s with uuids := s.uuids + 1 }
            adopt minted))
    let _ ← persistOrRetry ref .yes .yes
    pure ()

/-- The operation of a receipt timer. -/
def receiptDue (key : ReceiptKey) (proceed : Bool) (afterPersistence : Proceed) : Op E Unit := do
  let current ← (if proceed then fresh key else gets fun s => s.receipts key)
  match current with
  | none => pure ()
  | some ref => do
    let live ← gets fun s => (s.heap ref).live
    if !live then pure ()
    else if proceed then update (startEffect ref)
    else do
      let _ ← persistOrRetry ref afterPersistence afterPersistence
      pure ()

def fireRequest (receipt : ReminderReceipt) : ReminderFireRequest where
  protocolMajor := 1
  requestId := receipt.requestId
  workspaceId := receipt.workspaceId
  computerId := receipt.computerId
  agentId := receipt.agentId
  reminderId := receipt.reminderId
  version := receipt.version
  firedAtClient := receipt.firedAtClient

/-- What a flight does once its attempt is persisted: it asks the Agent to wake, or the server to
fire. -/
def proceed (key : ReceiptKey) (generation : Nat) (persisted : Bool) (s : Scheduler E) :
    Scheduler E :=
  let ended := s.setPhase key generation (.settled false)
  if !persisted || !s.running || generation != s.generation then ended
  else
    match s.receipts key with
    | none => ended
    | some ref =>
      let current := s.heap ref
      if !current.live then ended
      else if current.serverAccepted then
        (s.setPhase key generation .waking).observe
          (.wake key current.job (decide (LATE_AFTER_MS < s.now - current.job.fireAt)))
      else
        (s.setPhase key generation (.firing (fireRequest current))).observe
          (.fire (fireRequest current))

/-- The first operation of a flight, and the requests that follow it. -/
def persistAttempt (key : ReceiptKey) : Op E Unit := do
  let flight ← gets fun s => s.flights key
  match flight with
  | some ⟨generation, .persisting⟩ => do
    let current ← gets fun s => s.receipts key
    let persisted ← (match current with
      | some ref => persistOrRetry ref .no .yes
      | none => pure false)
    update (proceed key generation persisted)
  | _ => pure ()

/-- `#deleteReceipt`. -/
def deleteReceipt (ref : Ref) : Op E Bool := do
  let key ← gets fun s => (s.heap ref).key
  tryCatch
    (do
      let receipts ← readReceipts
      writeReceipts (drop ReminderReceipt.key key receipts)
      update fun s => { s with receipts := Function.update s.receipts key none }
      pure true)
    fun _ => pure false

/-- What becomes of a receipt once the server has answered: whether the wake is next. -/
def takeAnswer (ref : Ref) : Option ReminderFireResponse → Op E Bool
  | none => do
    update (retry ref)
    pure false
  | some response => do
    update fun s => s.mutate ref fun r =>
      { r with
        serverResult := some response.result
        serverFired := some response.fired
        serverCatchup := some response.catchup }
    if response.result = .accepted ∧ response.fired then persistOrRetry ref .no .yes
    else if response.result = .premature then do
      let retryAt ← gets fun s => s.now + response.retryAfterMs.getD 0
      let late ← gets fun s => decide ((s.heap ref).deadline < retryAt)
      (if late then do
          let deleted ← deleteReceipt ref
          update fun s => if deleted then s.armServerRetry (s.heap ref).job else s
          pure false
        else do
          update fun s => s.mutate ref fun r => { r with nextAt := retryAt }
          let _ ← persistOrRetry ref .no .no
          update fun s => s.armReceipt ref (s.heap ref).nextAt true .yes
          pure false)
    else do
      update fun s => s.mutate ref fun r => { r with terminal := true }
      let _ ← persistOrRetry ref .no .no
      pure false

def fireAnswered (key : ReceiptKey) : Op E Unit := do
  let flight ← gets fun s => s.flights key
  match flight with
  | some ⟨generation, .fired response⟩ => do
    let stale ← gets fun s => !s.running || generation != s.generation
    let readyToWake ← (if stale then pure false
      else do
        let current ← fresh key
        (match current with
          | none => pure false
          | some ref => do
            let live ← gets fun s => (s.heap ref).live
            (if !live then pure false else takeAnswer ref response)))
    update fun s => s.setPhase key generation (.settled readyToWake)
  | _ => pure ()

def wakeAnswered (key : ReceiptKey) : Op E Unit := do
  let flight ← gets fun s => s.flights key
  match flight with
  | some ⟨generation, .woken accepted⟩ => do
    let stale ← gets fun s => !s.running || generation != s.generation
    (if stale then pure ()
      else do
        let current ← fresh key
        (match current with
          | none => pure ()
          | some ref => do
            let live ← gets fun s => (s.heap ref).live
            (if !live then pure ()
              else do
                update fun s => s.mutate ref fun r =>
                  { r with wakeAccepted := accepted, terminal := r.terminal || accepted }
                let after := if accepted then Proceed.no else Proceed.retry
                let _ ← persistOrRetry ref after after
                pure ())))
    update fun s => s.setPhase key generation (.settled false)
  | _ => pure ()

def body : Task → Op E Unit
  | .apply sync => apply sync
  | .acknowledge reminderId version => (fun _ => ()) <$> acknowledge reminderId version
  | .prepareDue job => prepareDue job
  | .receiptDue key proceed afterPersistence => receiptDue key proceed afterPersistence
  | .persistAttempt key => persistAttempt key
  | .fireAnswered key => fireAnswered key
  | .wakeAnswered key => wakeAnswered key
  | .persistExhausted ref => (fun _ => ()) <$> persistOrRetry ref .no .no

/-! ### Events -/

inductive Event where
  | tick (now : Int)
  | sync (sync : ReminderSync)
  | acknowledge (reminderId : String) (version : Nat)
  | scheduleTimer (reminderId : String)
  | receiptTimer (key : ReceiptKey)
  | fireAnswer (key : ReceiptKey) (response : Option ReminderFireResponse)
  | wakeAnswer (key : ReceiptKey) (accepted : Option Bool)
  | finish (key : ReceiptKey)
  | stop
deriving DecidableEq

/-- The callback of a schedule timer. -/
def scheduleTimer (reminderId : String) (timer : ScheduleTimer) (s : Scheduler E) : Scheduler E :=
  let s := s.cancelSchedule reminderId
  if !s.running then s
  else
    match timer with
    | .due job =>
      match s.mirror.held job.ownerAgentId job.reminderId with
      | none => s
      | some current =>
        if current.version ≠ job.version then s
        else if s.now < job.fireAt then s.armSchedule current
        else s.enqueue (.prepareDue job)
    | .serverRetry job =>
      match s.mirror.held job.ownerAgentId job.reminderId with
      | none => s
      | some current =>
        if current.version ≠ job.version then s else s.enqueue (.prepareDue current)

/-- The callback of a receipt timer. -/
def receiptTimer (key : ReceiptKey) (timer : ReceiptTimer) (s : Scheduler E) : Scheduler E :=
  let s := { s with receiptTimers := Function.update s.receiptTimers key none }
  if !s.running then s
  else if s.now < (s.heap timer.receipt).nextAt then
    s.armReceipt timer.receipt (s.heap timer.receipt).nextAt timer.proceed timer.afterPersistence
  else s.enqueue (.receiptDue key timer.proceed timer.afterPersistence)

/-- `#correlate`. -/
def correlates (request : ReminderFireRequest) (response : ReminderFireResponse) : Bool :=
  response.requestId = request.requestId ∧ response.workspaceId = request.workspaceId ∧
    response.computerId = request.computerId ∧ response.agentId = request.agentId ∧
    response.reminderId = request.reminderId ∧ response.protocolMajor = 1 ∧
    response.version = request.version

/-- The `finally` of a flight. -/
def finish (key : ReceiptKey) (readyToWake : Bool) (s : Scheduler E) : Scheduler E :=
  let s := { s with flights := Function.update s.flights key none }
  match s.receipts key with
  | none => s
  | some ref =>
    if readyToWake && s.running && (s.heap ref).serverAccepted && (s.heap ref).live then
      s.startEffect ref
    else s

/-- `stop`. -/
def stop (s : Scheduler E) : Scheduler E :=
  { s with
    mirror := s.mirror.stop
    generation := s.generation + 1
    scheduleTimers := fun _ => none
    receiptTimers := fun _ => none }

def event (s : Scheduler E) : Event → Option (Scheduler E)
  | .tick now => some { s with now := now }
  | .sync sync =>
    some (if sync.agentId = E.agentId then s.enqueue (.apply sync)
      else { s with mirror := s.mirror.receive E.scope sync })
  | .acknowledge reminderId version => some (s.enqueue (.acknowledge reminderId version))
  | .scheduleTimer reminderId =>
    (s.scheduleTimers reminderId).map fun timer => s.scheduleTimer reminderId timer
  | .receiptTimer key => (s.receiptTimers key).map fun timer => s.receiptTimer key timer
  | .fireAnswer key response =>
    match s.flights key with
    | some ⟨generation, .firing request⟩ =>
      some ((s.setPhase key generation (.fired (response.filter (correlates request)))).enqueue
        (.fireAnswered key))
    | _ => none
  | .wakeAnswer key accepted =>
    match s.flights key with
    | some ⟨generation, .waking⟩ =>
      let s := (s.setPhase key generation (.woken (accepted.getD false))).enqueue (.wakeAnswered key)
      some (if accepted.getD false then s.observe (.woken key) else s)
    | _ => none
  | .finish key =>
    match s.flights key with
    | some ⟨_, .settled readyToWake⟩ => some (s.finish key readyToWake)
    | _ => none
  | .stop => some s.stop

def next (s : Scheduler E) : Option (Task × Scheduler E) :=
  match s.queue with
  | [] => none
  | task :: tasks => some (task, { s with queue := tasks })

/-- A scheduler of a new process, over what the file and the log held before it. -/
def boot (stored : Stored E) (uuids : Nat) (log : List Observed) : Scheduler E where
  mirror := .initial
  scheduleTimers _ := none
  receiptTimers _ := none
  receipts _ := none
  heap _ := default
  size := 0
  flights _ := none
  persistenceFailures _ := 0
  generation := 0
  queue := []
  now := 0
  stored := stored
  uuids := uuids
  log := log

end Scheduler

/-- The scheduler as a component: every interleaving of its events with the steps of the operation
in its turn is a run. -/
def scheduler (E : Setting) :
    Component (Scheduler E) Scheduler.Event Task Scheduler.Outcome Scheduler.StoreReply String where
  event := Scheduler.event
  next := Scheduler.next
  body := Scheduler.body
  answer := Scheduler.answer

end Coforge.Reminder
