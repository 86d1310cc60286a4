import Coforge.Supervisor.Upgrade

/-!
# The supervisor as a system

The operations as tasks of the mutation queue, and what happens beside it: requests, the writes
of stop intents, the pause, and the view an upgrade watches. `Watch` records what the results
speak about and nothing reads it but the view.

The system starts where `recover` has loaded the registry. `accepts` is the check that the store
makes before it writes.
-/

namespace Coforge.Supervisor

open Async
open Async.Prog (gets update request forEach)

/-! ### What is observed -/

/-- A write that took effect: who made it, and the registry it was made from. -/
structure Write where
  author : Option Nat
  before : Registry
  after : Registry
deriving DecidableEq

/-- An answer of `recordUpgrade` that asks for the job of a request, with the number of operations
recorded for its Workspace by then. -/
structure Grant where
  workspaceId : String
  requestId : String
  recorded : Nat
deriving DecidableEq

/-- The enabled flags of a registry. -/
def flags (registry : Registry) (workspaceId : String) : Option Bool :=
  (registry.find workspaceId).map (·.enabled)

/-- `observed` are the flags of the machine when a view of it, taken while it was paused, had
reported nothing under way, and `viewing` the Workspaces such a view has still to report.
`disturbing` are the requests that have taken over work, or begun to change the registry, and are
still to be let in, and `intentWritten` is whether the write of a stop's intent fell into the
present turn. -/
structure Watch where
  observed : Option (String → Option Bool)
  viewing : Option (List String)
  author : Option Nat
  intentWritten : Bool
  writes : List Write
  aborted : List (Nat × String)
  disturbing : List Nat
  rejected : List (Nat × SupervisorError)
  recorded : String → Nat
  granted : List Grant

def Watch.init : Watch where
  observed := none
  viewing := none
  author := none
  intentWritten := false
  writes := []
  aborted := []
  disturbing := []
  rejected := []
  recorded := fun _ => 0
  granted := []

abbrev World := Machine × Watch

/-! ### Turns -/

/-- The failure of a command that had answered by its deadline is recorded. -/
def Machine.failedAfterAnswer (s : Machine) (operation : LifecycleOperation) (name : String)
    (workspaceIds : List String) (deadline : Option Nat) (e : SupervisorError) : Machine :=
  match e.failureText, deadline with
  | some text, some d =>
    if d ≤ s.clock then
      s.enqueue (.recordFailure operation workspaceIds (failureMessage name text))
    else s
  | _, _ => s

def LifecycleOperation.name : LifecycleOperation → String
  | .start     => "start"
  | .restart   => "restart"
  | .stop      => "stop"
  | .configure => "configure"

/-- The marks a request has set are those of its turn. -/
def Machine.beginTurn (s : Machine) (marks : List String) : Machine :=
  { s with marked := marks, progress := .init }

/-- The Workspaces a command marks under way. -/
def Command.marks (c : Command) : List String :=
  if c.operation = .stop then [] else c.requested.eraseDups

/-- The Workspaces a command has not handled. -/
def Command.unhandled (c : Command) (progress : Progress) : List String :=
  (progress.targets.getD c.requested).drop progress.done

/-- The end of a command's turn. -/
def Command.finish (c : Command) (s : Machine) : Machine :=
  if c.operation = .stop then s.settleAll.releaseStopIntents c.requested c.sequence
  else s.settleAll

/-- A stop waits for the write of its intent, and fails with it. -/
def awaitIntent (c : Command) : Op Unit := do
  if c.operation = .stop then throwIfSome ((← Calls.intent c.sequence).map .store) else pure ()

/-- A turn over the whole world. -/
abbrev Turn (α : Type) := Prog World Reply SupervisorError α

def onMachine (f : Machine → Machine) : Turn Unit := update fun w => (f w.1, w.2)

def onWatch (f : Watch → Watch) : Turn Unit := update fun w => (w.1, f w.2)

/-- The request has been let in or has failed. -/
def Watch.decide (o : Watch) (sequence : Nat) : Watch :=
  { o with disturbing := o.disturbing.filter (· ≠ sequence) }

/-- The work of a request, which is refused while the machine is paused. -/
def admitted (sequence : Nat) (work : Op Unit) : Turn Unit := do
  assertMutable.lift
  onWatch fun o => o.decide sequence
  work.lift

/-- The work of a request, whose failure after the answer is recorded. -/
def reportLate (operation : LifecycleOperation) (workspaceIds : Machine → List String)
    (deadline : Option Nat) (work : Turn Unit) : Turn Unit :=
  tryCatch work fun e => do
    onMachine fun s => s.failedAfterAnswer operation operation.name (workspaceIds s) deadline e
    throw e

def commandWork (c : Command) : Turn Unit := do
  (awaitIntent c).lift
  reportLate c.operation (fun s => c.unhandled s.progress) c.deadline
    (admitted c.sequence (runCommand c))

def configureWork (config : DaemonConfig) (sequence : Nat) (deadline : Option Nat) : Turn Unit :=
  reportLate .configure (fun _ => [config.workspaceId]) deadline
    (admitted sequence (runConfigure config))

/-- The caller of a request sees it reject. -/
def answered (sequence : Nat) (work : Turn Unit) : Turn Unit :=
  tryCatch work fun e => onWatch fun o =>
    { o.decide sequence with rejected := (sequence, e) :: o.rejected }

/-- Once the machine is resumed or shut down, nobody counts on what was observed. -/
def forget : Turn Unit := onWatch fun o => { o with observed := none, viewing := none }

def body : Task → Turn Unit
  | .recover => reconcileBindings.lift
  | .reconcile => reconcile.lift
  | .configure config sequence deadline => do
    onMachine fun s => s.beginTurn [config.workspaceId]
    answered sequence ((configureWork config sequence deadline).andFinally (onMachine Machine.settleAll))
  | .command c => do
    onMachine fun s => s.beginTurn c.marks
    answered c.sequence ((commandWork c).andFinally (onMachine c.finish))
  | .recordUpgrade workspaceId requestId expectedVersion => do
    if ← (recordUpgrade workspaceId requestId expectedVersion).lift then
      onWatch fun o =>
        { o with granted := ⟨workspaceId, requestId, o.recorded workspaceId⟩ :: o.granted }
    else pure ()
  | .completeUpgrade workspaceId requestId settlement => do
    let _ ← (completeUpgrade workspaceId requestId settlement).lift
  | .acknowledgeUpgrade workspaceId requestId => do
    let _ ← (acknowledgeUpgrade workspaceId requestId).lift
  | .recordFailure operation workspaceIds message =>
    (recordFailure operation workspaceIds message).lift
  | .snapshot => refresh.lift
  | .resume => do
    forget
    resume.lift
  | .shutdown => do
    forget
    shutdown.lift

/-- The request of a task that has one. -/
def Task.author : Task → Option Nat
  | .configure _ sequence _ => some sequence
  | .command c              => some c.sequence
  | _                       => none

def World.next (w : World) : Option (Task × World) :=
  match w.1.pending with
  | [] => none
  | task :: rest =>
    some (task,
      ({ w.1 with pending := rest }, { w.2 with author := task.author, intentWritten := false }))

variable {w w' : World}

lemma World.next_cases {task : Task} (h : w.next = some (task, w')) :
    ∃ rest, w.1.pending = task :: rest ∧ w' = ({ w.1 with pending := rest },
        { w.2 with author := task.author, intentWritten := false }) := by
  unfold World.next at h
  split at h
  · cases h
  · next task' rest hpending =>
    cases h
    exact ⟨rest, hpending, rfl⟩

/-! ### Requests -/

/-- A stop or configure takes over the work of these Workspaces. -/
def Machine.supersede (s : Machine) (workspaceIds : List String) (takenBy : Takeover) : Machine :=
  { s with
    sequence := s.sequence + 1
    supersededAt := fun id =>
      if id ∈ workspaceIds then some (s.sequence + 1, takenBy) else s.supersededAt id
    inFlight := fun id =>
      if id ∈ workspaceIds ∧ s.inFlight id = some none then some (some takenBy)
      else s.inFlight id }

/-- The work a takeover aborts. -/
def Machine.abortedBy (s : Machine) (workspaceIds : List String) : List String :=
  workspaceIds.filter fun id => s.inFlight id = some none

def Watch.abort (o : Watch) (sequence : Nat) (workspaceIds : List String) : Watch :=
  { o with
    aborted := workspaceIds.map (fun id => (sequence, id)) ++ o.aborted
    disturbing := if workspaceIds = [] then o.disturbing else sequence :: o.disturbing }

def Machine.markUnderWay (s : Machine) (workspaceIds : List String) : Machine :=
  { s with underWay := s.underWay ++ workspaceIds }

/-- The first steps of `#persistStopIntent`; the write follows when the store is free. -/
def Machine.intendStop (s : Machine) (workspaceIds : List String) (sequence : Nat) : Machine :=
  { s with
    stopIntents := fun id => if id ∈ workspaceIds then some sequence else s.stopIntents id
    intents := s.intents ++
      [{ sequence := sequence, workspaceIds := workspaceIds, phase := .waiting }] }

def requestStop (w : World) (workspaceId : Option String) (deadline : Option Nat) : World :=
  let requested := (w.1.targets .stop workspaceId).map (·.workspaceId)
  let sequence := w.1.sequence + 1
  let c : Command :=
    { operation := .stop, workspaceId := workspaceId, requestId := none, sequence := sequence
      requested := requested, deadline := deadline }
  (((w.1.supersede requested .stop).intendStop requested sequence).enqueue (.command c),
    w.2.abort sequence (w.1.abortedBy requested))

def requestStart (w : World) (operation : LifecycleOperation) (workspaceId : Option String)
    (requestId : Option String) (deadline : Option Nat) : World :=
  let requested := (w.1.targets operation workspaceId).map (·.workspaceId)
  let sequence := w.1.sequence + 1
  let c : Command :=
    { operation := operation, workspaceId := workspaceId, requestId := requestId
      sequence := sequence, requested := requested, deadline := deadline }
  (({ w.1 with sequence := sequence }.markUnderWay c.marks).enqueue (.command c), w.2)

def requestConfigure (w : World) (config : DaemonConfig) (deadline : Option Nat) : World :=
  let sequence := w.1.sequence + 1
  (((w.1.supersede [config.workspaceId] .configure).markUnderWay [config.workspaceId]).enqueue
      (.configure config sequence deadline),
    w.2.abort sequence (w.1.abortedBy [config.workspaceId]))

/-! ### The writes of stop intents -/

/-- An intent's write is under way. -/
def StopIntent.isWriting (intent : StopIntent) : Bool :=
  match intent.phase with
  | .writing _ _ => true
  | _            => false

/-- Nobody holds the store. -/
def Machine.storeFree (s : Machine) : Bool := !s.locked && !s.intents.any StopIntent.isWriting

def Machine.setIntent (s : Machine) (sequence : Nat) (phase : IntentPhase) : Machine :=
  { s with
    intents := s.intents.map fun i => if i.sequence = sequence then { i with phase := phase } else i }

/-- A stop whose intent could not be written fails as a whole, and holds nothing any more. -/
def Machine.failIntent (s : Machine) (intent : StopIntent) (message : String) : Machine :=
  (s.setIntent intent.sequence (.done (some message))).releaseStopIntents intent.workspaceIds
    intent.sequence

/-- `#reloadIfRequired`, where the store answers. -/
def Machine.reloaded (s : Machine) : Machine :=
  if s.reloadRequired then { s with bindings := s.disk, reloadRequired := false } else s

lemma Machine.reloaded_eq (s : Machine) : ∃ bindings reloadRequired,
      s.reloaded = { s with bindings := bindings, reloadRequired := reloadRequired } := by
  unfold Machine.reloaded
  split_ifs
  · exact ⟨s.disk, false, rfl⟩
  · exact ⟨s.bindings, s.reloadRequired, rfl⟩

/-- The store is reloaded if an earlier write left it in doubt, and the intent's write begins. -/
def beginIntent (w : World) (intent : StopIntent) : World :=
  let s := w.1.reloaded
  (s.setIntent intent.sequence (.writing s.bindings s.intended),
    { w.2 with
      intentWritten := true
      disturbing :=
        if s.intended = s.bindings then w.2.disturbing else intent.sequence :: w.2.disturbing })

/-- How a call of the store or of the processes ends. -/
inductive Outcome where
  | ok
  | failed (message : String)
  | failedAfter (message : String)
  | value (value : Option String)
  | raised (e : SupervisorError)
  | settled (settlement : Option PendingUpgradeSettlement)
deriving DecidableEq

/-- A registry takes the place of the one the store holds, with a new upgrade operation of the
Workspace `recorded`. -/
def World.saved (w : World) (author : Option Nat) (recorded : Option String)
    (before next : Registry) : World :=
  ({ w.1 with disk := next },
    { w.2 with
      writes := ⟨author, before, next⟩ :: w.2.writes
      recorded := fun id => if recorded = some id then w.2.recorded id + 1 else w.2.recorded id })

/-- The end of an intent's write. -/
def endIntent (accepts : Registry → Bool) (w : World) (intent : StopIntent)
    (before next : Registry) : Outcome → Option World
  | .ok =>
    if accepts next then
      let w := w.saved (some intent.sequence) none before next
      some ({ w.1 with bindings := next }.setIntent intent.sequence (.done none), w.2)
    else none
  | .failed message =>
    some ({ w.1 with reloadRequired := true }.failIntent intent message, w.2)
  | .failedAfter message =>
    if accepts next then
      let w := w.saved (some intent.sequence) none before next
      some ({ w.1 with reloadRequired := true }.failIntent intent message, w.2)
    else none
  | _ => none

/-! ### Events -/

inductive Event where
  | stop (workspaceId : Option String) (deadline : Option Nat)
  | start (workspaceId : Option String) (deadline : Option Nat)
  | restart (workspaceId : Option String) (requestId : Option String) (deadline : Option Nat)
  | configure (config : DaemonConfig) (deadline : Option Nat)
  | reconcile
  | recordUpgrade (workspaceId requestId expectedVersion : String)
  | completeUpgrade (workspaceId requestId : String) (settlement : PendingUpgradeSettlement)
  | acknowledgeUpgrade (workspaceId requestId : String)
  | snapshot
  | resume
  | shutdown
  | pause
  | intentBegin
  | intentUnread (message : String)
  | intentEnd (outcome : Outcome)
  | view
  | sight (workspaceId : String)
  | viewed
  | tick (milliseconds : Nat)
deriving DecidableEq

def World.enqueue (w : World) (task : Task) : World := (w.1.enqueue task, w.2)

/-- The empty id is no scope. -/
def scopeOf (workspaceId : Option String) : Option String := workspaceId.filter (· ≠ "")

def World.event (accepts : Registry → Bool) (w : World) : Event → Option World
  | .stop workspaceId deadline => some (requestStop w (scopeOf workspaceId) deadline)
  | .start workspaceId deadline => some (requestStart w .start (scopeOf workspaceId) none deadline)
  | .restart workspaceId requestId deadline =>
    some (requestStart w .restart (scopeOf workspaceId) requestId deadline)
  | .configure config deadline => some (requestConfigure w config deadline)
  | .reconcile => some (w.enqueue .reconcile)
  | .recordUpgrade workspaceId requestId expectedVersion =>
    some (w.enqueue (.recordUpgrade workspaceId requestId expectedVersion))
  | .completeUpgrade workspaceId requestId settlement =>
    some (w.enqueue (.completeUpgrade workspaceId requestId settlement))
  | .acknowledgeUpgrade workspaceId requestId =>
    some (w.enqueue (.acknowledgeUpgrade workspaceId requestId))
  | .snapshot => some (w.enqueue .snapshot)
  | .resume => some (w.enqueue .resume)
  | .shutdown => some (w.enqueue .shutdown)
  -- the recovery sets the pause of the start and reconciles at once
  | .pause => if .recover ∈ w.1.pending then none else some ({ w.1 with paused := true }, w.2)
  | .intentBegin =>
    if w.1.storeFree then (w.1.intents.find? (·.phase = .waiting)).map (beginIntent w) else none
  | .intentUnread message =>
    if w.1.storeFree ∧ w.1.reloadRequired then
      (w.1.intents.find? (·.phase = .waiting)).map fun i =>
        (w.1.failIntent i message, { w.2 with intentWritten := true })
    else none
  | .intentEnd outcome =>
    match w.1.intents.find? StopIntent.isWriting with
    | none => none
    | some i =>
      match i.phase with
      | .writing before next =>
        endIntent accepts (w.1, { w.2 with intentWritten := true }) i before next outcome
      | _ => none
  | .view =>
    if w.1.paused then
      some (w.1, { w.2 with viewing := some (w.1.bindings.map (·.workspaceId)) })
    else none
  | .sight workspaceId =>
    -- the view reports a Workspace as soon as it knows its instance
    match w.2.viewing with
    | none => none
    | some ids =>
      if w.1.isUnderWay workspaceId then some (w.1, { w.2 with viewing := none })
      else some (w.1, { w.2 with viewing := some (ids.filter (· ≠ workspaceId)) })
  | .viewed =>
    if w.2.viewing = some [] then
      some (w.1, { w.2 with
        viewing := none, observed := w.2.observed.or (some (flags w.1.bindings)) })
    else none
  | .tick milliseconds => some ({ w.1 with clock := w.1.clock + milliseconds }, w.2)

/-- The errors a start of a process rejects with. -/
def SupervisorError.ofProcess : SupervisorError → Bool
  | .parked _ _ | .superseded _ _ _ | .process _ => true
  | _ => false

/-- The reply to an effect. -/
def World.answer (accepts : Registry → Bool) (w : World) :
    (e : Effect) → Outcome → Option (Reply e × World)
  | .exclusive, .ok => if w.1.storeFree then some ((), { w.1 with locked := true }, w.2) else none
  | .save recorded next, .ok =>
    if accepts next then some (.ok (), w.saved w.2.author recorded w.1.bindings next) else none
  | .save _ _, .failed message => some (.error message, w)
  | .save recorded next, .failedAfter message =>
    if accepts next then some (.error message, w.saved w.2.author recorded w.1.bindings next)
    else none
  | .load, .ok => some (.ok w.1.disk, w)
  | .load, .failed message => some (.error message, w)
  | .intent sequence, .ok =>
    (w.1.intents.find? (·.sequence = sequence)).bind fun i =>
      match i.phase with
      | .done failure =>
        some (failure, { w.1 with intents := w.1.intents.filter (·.sequence ≠ sequence) }, w.2)
      | _ => none
  | .instance _, .value v => some (.ok v, w)
  | .instance _, .failed message => some (.error message, w)
  | .start _, .value (some instanceId) => some (.ok instanceId, w)
  | .start _, .raised e => if e.ofProcess then some (.error e, w) else none
  | .stop _, .ok => some (.ok (), w)
  | .stop _, .failed message => some (.error message, w)
  | .hold _, .ok => some ((), w)
  | .release _, .ok => some ((), w)
  | .clearHealth _, .ok => some (.ok (), w)
  | .clearHealth _, .failed message => some (.error message, w)
  | .parkedReason _, .value v => some (.ok v, w)
  | .parkedReason _, .failed message => some (.error message, w)
  | .clearParked _, .ok => some (.ok (), w)
  | .clearParked _, .failed message => some (.error message, w)
  | .settlePending _ _ _, .settled s => some (s, w)
  | .randomUUID, .value (some id) => some (id, w)
  | _, _ => none

variable {accepts : Registry → Bool} {o : Outcome}

lemma World.answer_cases {e : Effect} {r : Reply e} (h : w.answer accepts e o = some (r, w')) :
    w' = w ∨ (e = .exclusive ∧ w.1.storeFree ∧ w' = ({ w.1 with locked := true }, w.2)) ∨
    (∃ recorded next, e = .save recorded next ∧ accepts next ∧
      w' = w.saved w.2.author recorded w.1.bindings next) ∨
    (∃ sequence i failure, e = .intent sequence ∧
      w.1.intents.find? (·.sequence = sequence) = some i ∧ i.phase = .done failure ∧
      w' = ({ w.1 with intents := w.1.intents.filter (·.sequence ≠ sequence) }, w.2)) := by
  cases e with
  | exclusive =>
    cases o with
    | ok =>
      obtain ⟨hfree, h⟩ := Option.ite_none_right_eq_some.mp h
      cases h
      exact .inr (.inl ⟨rfl, hfree, rfl⟩)
    | _ => cases h
  | save recorded next =>
    cases o with
    | ok =>
      obtain ⟨haccepts, h⟩ := Option.ite_none_right_eq_some.mp h
      cases h
      exact .inr (.inr (.inl ⟨recorded, next, rfl, haccepts, rfl⟩))
    | failed message => cases h; exact .inl rfl
    | failedAfter message =>
      obtain ⟨haccepts, h⟩ := Option.ite_none_right_eq_some.mp h
      cases h
      exact .inr (.inr (.inl ⟨recorded, next, rfl, haccepts, rfl⟩))
    | _ => cases h
  | intent sequence =>
    cases o with
    | ok =>
      obtain ⟨i, hi, h⟩ := Option.bind_eq_some_iff.mp h
      split at h
      · next failure hphase =>
        cases h
        exact .inr (.inr (.inr ⟨sequence, i, _, rfl, hi, hphase, rfl⟩))
      · cases h
    | _ => cases h
  | start binding =>
    cases o with
    | value v =>
      cases v with
      | none => cases h
      | some instanceId => cases h; exact .inl rfl
    | raised e =>
      obtain ⟨-, h⟩ := Option.ite_none_right_eq_some.mp h
      cases h
      exact .inl rfl
    | _ => cases h
  | randomUUID =>
    cases o with
    | value v =>
      cases v with
      | none => cases h
      | some id => cases h; exact .inl rfl
    | _ => cases h
  | _ => cases o <;> cases h <;> exact .inl rfl

lemma World.answer_exclusive
    {r : Reply .exclusive} (h : w.answer accepts .exclusive o = some (r, w')) :
    w.1.storeFree ∧ w' = ({ w.1 with locked := true }, w.2) := by
  cases o with
  | ok =>
    obtain ⟨hfree, h⟩ := Option.ite_none_right_eq_some.mp h
    cases h
    exact ⟨hfree, rfl⟩
  | _ => cases h

lemma World.answer_save {recorded : Option String}
    {next : Registry} {r : Reply (.save recorded next)}
    (h : w.answer accepts (.save recorded next) o = some (r, w')) :
    (r = .ok () ∧ w' = w.saved w.2.author recorded w.1.bindings next) ∨
    ∃ message, r = .error message ∧
      (w' = w ∨ w' = w.saved w.2.author recorded w.1.bindings next) := by
  cases o with
  | ok =>
    obtain ⟨-, h⟩ := Option.ite_none_right_eq_some.mp h
    cases h
    exact .inl ⟨rfl, rfl⟩
  | failed message => cases h; exact .inr ⟨message, rfl, .inl rfl⟩
  | failedAfter message =>
    obtain ⟨-, h⟩ := Option.ite_none_right_eq_some.mp h
    cases h
    exact .inr ⟨message, rfl, .inr rfl⟩
  | _ => cases h

lemma World.answer_intent {sequence : Nat}
    {r : Reply (.intent sequence)} (h : w.answer accepts (.intent sequence) o = some (r, w')) :
    w' = ({ w.1 with intents := w.1.intents.filter (·.sequence ≠ sequence) }, w.2) := by
  cases o with
  | ok =>
    obtain ⟨i, -, h⟩ := Option.bind_eq_some_iff.mp h
    split at h
    · cases h
      rfl
    · cases h
  | _ => cases h

/-- The store was not touched, an intent that is new has still to be written, and the command in
its turn is where it was. -/
structure Machine.SameStore (s t : Machine) : Prop where
  bindings : t.bindings = s.bindings
  disk : t.disk = s.disk
  reloadRequired : t.reloadRequired = s.reloadRequired
  locked : t.locked = s.locked
  progress : t.progress = s.progress
  marked : t.marked = s.marked
  underWay : ∀ id ∈ s.underWay, id ∈ t.underWay
  intents : ∀ i ∈ t.intents, i ∈ s.intents ∨ (i.phase = .waiting ∧ s.sequence < i.sequence)
  sequence : s.sequence ≤ t.sequence

lemma Machine.SameStore.refl (s : Machine) : s.SameStore s :=
  ⟨rfl, rfl, rfl, rfl, rfl, rfl, fun _ h => h, fun _ h => .inl h, Nat.le_refl _⟩

variable {l : Event}

lemma World.event_cases (h : w.event accepts l = some w') : w.1.SameStore w'.1 ∨
    (∃ i ∈ w.1.intents, i.phase = .waiting ∧ w.1.storeFree ∧ l = .intentBegin ∧
      w' = beginIntent w i) ∨ (∃ i ∈ w.1.intents, ∃ message, i.phase = .waiting ∧ w.1.storeFree ∧
      l = .intentUnread message ∧
      w' = (w.1.failIntent i message, { w.2 with intentWritten := true })) ∨
    (∃ i ∈ w.1.intents, ∃ before next outcome, i.phase = .writing before next ∧
      l = .intentEnd outcome ∧
      endIntent accepts (w.1, { w.2 with intentWritten := true }) i before next outcome =
        some w') := by
  cases l with
  | stop workspaceId deadline =>
    cases h
    refine .inl ⟨rfl, rfl, rfl, rfl, rfl, rfl, fun _ h => h, fun i hi => ?_, Nat.le_succ _⟩
    rcases List.mem_append.mp hi with hi | hi
    · exact .inl hi
    · rw [List.mem_singleton.mp hi]
      exact .inr ⟨rfl, Nat.lt_succ_self _⟩
  | start workspaceId deadline =>
    cases h
    exact .inl ⟨rfl, rfl, rfl, rfl, rfl, rfl, fun _ => List.mem_append_left _, fun _ => .inl,
      Nat.le_succ _⟩
  | restart workspaceId requestId deadline =>
    cases h
    exact .inl ⟨rfl, rfl, rfl, rfl, rfl, rfl, fun _ => List.mem_append_left _, fun _ => .inl,
      Nat.le_succ _⟩
  | configure config deadline =>
    cases h
    exact .inl ⟨rfl, rfl, rfl, rfl, rfl, rfl, fun _ => List.mem_append_left _, fun _ => .inl,
      Nat.le_succ _⟩
  | pause =>
    obtain ⟨-, h⟩ := Option.ite_none_left_eq_some.mp h
    cases h
    exact .inl ⟨rfl, rfl, rfl, rfl, rfl, rfl, fun _ => id, fun _ => .inl, Nat.le_refl _⟩
  | intentBegin =>
    obtain ⟨hfree, h⟩ := Option.ite_none_right_eq_some.mp h
    obtain ⟨i, hi, rfl⟩ := Option.map_eq_some_iff.mp h
    have hphase : i.phase = .waiting := by simpa using List.find?_some hi
    exact .inr (.inl ⟨i, List.mem_of_find?_eq_some hi, hphase, hfree, rfl, rfl⟩)
  | intentUnread message =>
    obtain ⟨hfree, h⟩ := Option.ite_none_right_eq_some.mp h
    obtain ⟨i, hi, rfl⟩ := Option.map_eq_some_iff.mp h
    have hphase : i.phase = .waiting := by simpa using List.find?_some hi
    exact .inr (.inr (.inl ⟨i, List.mem_of_find?_eq_some hi, message, hphase, hfree.1, rfl, rfl⟩))
  | intentEnd outcome =>
    simp only [World.event] at h
    split at h
    · cases h
    · next i hi =>
      split at h
      · next before next hphase =>
        exact .inr (.inr (.inr ⟨i, List.mem_of_find?_eq_some hi, before, next, outcome, hphase,
          rfl, h⟩))
      · cases h
  | view =>
    obtain ⟨-, h⟩ := Option.ite_none_right_eq_some.mp h
    cases h
    exact .inl ⟨rfl, rfl, rfl, rfl, rfl, rfl, fun _ => id, fun _ => .inl, Nat.le_refl _⟩
  | sight workspaceId =>
    simp only [World.event] at h
    split at h
    · cases h
    · split_ifs at h <;> cases h <;> exact .inl (.refl w.1)
  | viewed =>
    obtain ⟨-, h⟩ := Option.ite_none_right_eq_some.mp h
    cases h
    exact .inl ⟨rfl, rfl, rfl, rfl, rfl, rfl, fun _ => id, fun _ => .inl, Nat.le_refl _⟩
  | _ => cases h; exact .inl ⟨rfl, rfl, rfl, rfl, rfl, rfl, fun _ => id, fun _ => .inl, Nat.le_refl _⟩

/-- How the write of an intent ends: the registry is in the store or it is not, and only where the
store says so is it known to be. -/
lemma endIntent_cases {i : StopIntent} {before next : Registry} {outcome : Outcome}
    (h : endIntent accepts w i before next outcome = some w') : (accepts next ∧
      w' = ({ w.1 with disk := next, bindings := next }.setIntent i.sequence (.done none),
        (w.saved (some i.sequence) none before next).2)) ∨
    (∃ message,
      w' = ({ w.1 with reloadRequired := true }.failIntent i message, w.2)) ∨
    (∃ message, accepts next ∧
      w' = ({ w.1 with disk := next, reloadRequired := true }.failIntent i message,
        (w.saved (some i.sequence) none before next).2)) := by
  cases outcome with
  | ok =>
    obtain ⟨haccepts, h⟩ := Option.ite_none_right_eq_some.mp h
    cases h
    exact .inl ⟨haccepts, rfl⟩
  | failed message => cases h; exact .inr (.inl ⟨message, rfl⟩)
  | failedAfter message =>
    obtain ⟨haccepts, h⟩ := Option.ite_none_right_eq_some.mp h
    cases h
    exact .inr (.inr ⟨message, haccepts, rfl⟩)
  | _ => cases h

/-- Nothing that happens beside the work records or grants an operation, and a registry that is
written is in the store afterwards. -/
lemma World.event_watch (h : w.event accepts l = some w') :
    w'.2.recorded = w.2.recorded ∧ w'.2.granted = w.2.granted ∧
      ∀ x ∈ w'.2.writes, x ∈ w.2.writes ∨ x.after = w'.1.disk := by
  cases l with
  | pause =>
    obtain ⟨-, h⟩ := Option.ite_none_left_eq_some.mp h
    cases h
    exact ⟨rfl, rfl, fun _ => .inl⟩
  | intentBegin =>
    obtain ⟨-, h⟩ := Option.ite_none_right_eq_some.mp h
    obtain ⟨i, -, rfl⟩ := Option.map_eq_some_iff.mp h
    exact ⟨rfl, rfl, fun _ => .inl⟩
  | intentUnread message =>
    obtain ⟨-, h⟩ := Option.ite_none_right_eq_some.mp h
    obtain ⟨i, -, rfl⟩ := Option.map_eq_some_iff.mp h
    exact ⟨rfl, rfl, fun _ => .inl⟩
  | intentEnd outcome =>
    simp only [World.event] at h
    split at h
    · cases h
    · split at h
      · next before next _ =>
        have hwritten {x : Write} {i : StopIntent} {t : Machine} (hdisk : t.disk = next)
            (hx : x ∈ (⟨some i.sequence, before, next⟩ : Write) :: w.2.writes) :
            x ∈ w.2.writes ∨ x.after = t.disk := by
          rcases List.mem_cons.mp hx with rfl | hx
          · exact .inr hdisk.symm
          · exact .inl hx
        rcases endIntent_cases h with ⟨-, rfl⟩ | ⟨_, rfl⟩ | ⟨_, -, rfl⟩
        · exact ⟨rfl, rfl, fun x => hwritten rfl⟩
        · exact ⟨rfl, rfl, fun _ => .inl⟩
        · exact ⟨rfl, rfl, fun x => hwritten rfl⟩
      · cases h
  | view =>
    obtain ⟨-, h⟩ := Option.ite_none_right_eq_some.mp h
    cases h
    exact ⟨rfl, rfl, fun _ => .inl⟩
  | sight workspaceId =>
    simp only [World.event] at h
    split at h
    · cases h
    · split_ifs at h <;> cases h <;> exact ⟨rfl, rfl, fun _ => .inl⟩
  | viewed =>
    obtain ⟨-, h⟩ := Option.ite_none_right_eq_some.mp h
    cases h
    exact ⟨rfl, rfl, fun _ => .inl⟩
  | _ => cases h; exact ⟨rfl, rfl, fun _ => .inl⟩

/-- The operation in its turn holds the store, and no intent is on its way. -/
structure Locked (s : Machine) : Prop where
  locked : s.locked
  intents : ∀ i ∈ s.intents, i.isWriting = false

lemma locked_of_free {s : Machine} (h : s.storeFree) : Locked { s with locked := true } := by
  simp only [Machine.storeFree, Bool.and_eq_true, Bool.not_eq_true', List.any_eq_false] at h
  exact ⟨rfl, fun i hi => by simpa using h.2 i hi⟩

lemma locked_event (hlocked : Locked w.1)
    (h : w.event accepts l = some w') : Locked w'.1 ∧ w'.1.bindings = w.1.bindings := by
  have hheld : ¬ w.1.storeFree := by simp [Machine.storeFree, hlocked.locked]
  rcases World.event_cases h with hsame | ⟨_, _, _, hfree, _⟩ | ⟨_, _, _, _, hfree, _⟩ |
    ⟨i, hi, before, next, outcome, hphase, _⟩
  · refine ⟨⟨hsame.locked ▸ hlocked.locked, fun i hi => ?_⟩, hsame.bindings⟩
    rcases hsame.intents i hi with hi | ⟨hwaiting, -⟩
    · exact hlocked.intents i hi
    · rw [StopIntent.isWriting, hwaiting]
  · exact absurd hfree hheld
  · exact absurd hfree hheld
  · have hwriting := hlocked.intents i hi
    rw [StopIntent.isWriting, hphase] at hwriting
    cases hwriting

/-- `MachineSupervisor` over a store that accepts some registries. -/
def supervisor (accepts : Registry → Bool) :
    Component World Event Task Outcome Reply SupervisorError where
  event := World.event accepts
  next := World.next
  body := body
  answer e o w := w.answer accepts e o

abbrev System := Sys World Task Reply SupervisorError

/-- `recover` has loaded the registry, and reconciles it unless the machine is paused. -/
def Machine.init (registry : Registry) (paused : Bool) : Machine where
  bindings := registry
  disk := registry
  instances := fun _ => none
  inFlight := fun _ => none
  sequence := 0
  supersededAt := fun _ => none
  underWay := []
  marked := []
  stopIntents := fun _ => none
  intents := []
  locked := false
  paused := paused
  reloadRequired := false
  progress := .init
  pending := if paused then [] else [.recover]
  clock := 0

def System.init (registry : Registry) (paused : Bool) : System :=
  ⟨(.init registry paused, .init), none⟩

/-! ### Restarts -/

/-- A step of the Coordinator, or its end at any point and the start of another one, which loads
what the store holds. -/
inductive Life where
  | act (a : Act Event Outcome)
  | restart (paused : Bool)
deriving DecidableEq

def lives (accepts : Registry → Bool) (s : System) : Life → Option System
  | .act a          => (supervisor accepts).step s a
  | .restart paused => some (System.init s.shared.1.disk paused)

/-- A condition on the steps of every Coordinator. -/
def OfActs (ok : System → Act Event Outcome → Prop) (s : System) : Life → Prop
  | .act a     => ok s a
  | .restart _ => True

instance {ok : System → Act Event Outcome → Prop} [∀ s a, Decidable (ok s a)] (s : System) :
    ∀ l, Decidable (OfActs ok s l)
  | .act a     => inferInstanceAs (Decidable (ok s a))
  | .restart _ => isTrue trivial

/-- What holds at every point of every run of one Coordinator, and of the next one when it starts,
holds through all their lives. -/
theorem safe_lives {ok : System → Act Event Outcome → Prop} (P : (supervisor accepts).Spec ok)
    (hrestart : ∀ s paused, P.Inv s → P.Inv (System.init s.shared.1.disk paused))
    {s t : System} {steps : List Life} (hs : P.Inv s)
    (hok : Transition.Permitted (lives accepts) (OfActs ok) s steps)
    (hrun : Transition.run (lives accepts) s steps = some t) : P.Inv t := by
  refine Transition.invariant (fun s l t hs hok hstep => ?_) hs hok hrun
  cases l with
  | act a => exact P.safe_step hs hok hstep
  | restart paused =>
    rw [← Option.some.inj hstep]
    exact hrestart s paused hs

/-- A binding without a history. -/
def sampleBinding (workspaceId : String) (enabled : Bool) : ManagedBinding where
  workspaceId := workspaceId
  computerId := "computer"
  workspaceRoot := "/workspaces"
  serverHttpUrl := none
  enabled := enabled
  restart := none
  restartResults := none
  restartRequestIds := none
  upgradeRequestIds := none
  upgradeRequests := none
  upgradeOperations := none
  lastFailure := none

end Coforge.Supervisor
