import Coforge.Tasks.Sessions
import Mathlib

/-!
# The history of a Task

A commit records the difference between the Task its command read and the Task after the write.
Replaying the records from what the Task read as at its creation gives what it reads as now, as
long as each commit finds the Task as its command read it.
-/

namespace Coforge.Tasks

/-- `agentReadableBody`: a stored text with its tokens read back, by the message's mention rows. -/
abbrev BodyReader : Type := String → List MessageMentionRef → String

def Actor.type : Actor → ActorType
  | .user _  => .user
  | .agent _ => .agent

/-- The title as `taskView` shows it. -/
def Task.shownTitle (agentReadableBody : BodyReader) (t : Task) : String :=
  agentReadableBody t.title t.mentions

def assigneeChange (members : Uuid → Actor) (task : Task) : TaskHistoryChange :=
  .assigneeChanged (task.owner members)

def creationChanges (members : Uuid → Actor) (task : Task) : List TaskHistoryChange :=
  .created task.number task.status ::
    if task.ownerMemberId.isSome then [assigneeChange members task] else []

/-- The pair, where its two sides differ. -/
def difference {α : Type} [DecidableEq α] (source target : α) : Option (α × α) :=
  if source = target then none else some (source, target)

def taskChanges (members : Uuid → Actor) (agentReadableBody : BodyReader) (before after : Task) :
    List TaskHistoryChange :=
  let title := difference (before.shownTitle agentReadableBody) (after.shownTitle agentReadableBody)
  let description := difference before.description after.description
  (if before.ownerMemberId ≠ after.ownerMemberId then [assigneeChange members after] else []) ++
    (if before.status ≠ after.status then [.statusChanged before.status after.status] else []) ++
    if title.isSome || description.isSome then [.amended title description after.revision] else []

def historyRows (members : Uuid → Actor) (actor : Member) (changes : List TaskHistoryChange)
    (latestSeq : Nat) : List TaskHistoryEvent :=
  changes.mapIdx fun index change =>
    { seq := latestSeq + index + 1
      actorType := (members actor.id).type
      actorName := actor.handle
      change }

/-- `latest?.seq ?? 0`. -/
def latestSeq (history : List TaskHistoryEvent) : Nat :=
  (history.map TaskHistoryEvent.seq).max?.getD 0

/-- `none` is a CONFLICT: the row no longer matches. -/
def commitTaskChange (members : Uuid → Actor) (agentReadableBody : BodyReader) (actor : Member)
    (now : Nat) (sessionId : Uuid) (before : Task) (guard : TaskWhere) (data : TaskData)
    (row : Task) : Option Task :=
  if guard.holds before row then
    let task := takeSession members now sessionId before (settle members now before data row)
    let changes := taskChanges members agentReadableBody before task
    some { task with
      history := task.history ++ historyRows members actor changes (latestSeq task.history) }
  else none

/-! ### Replaying a history -/

/-- What a Task reads as. -/
structure Shown where
  owner : Option Actor
  status : TaskStatus
  title : String
  description : Option String
deriving DecidableEq

def Task.shown (members : Uuid → Actor) (agentReadableBody : BodyReader) (t : Task) : Shown where
  owner := t.owner members
  status := t.status
  title := t.shownTitle agentReadableBody
  description := t.description

namespace TaskHistoryChange

/-- The state after a recorded change. -/
def apply : TaskHistoryChange → Shown → Shown
  | created _ status, s => { s with owner := none, status }
  | statusChanged _ target, s => { s with status := target }
  | assigneeChanged assignee, s => { s with owner := assignee }
  | amended title description _, s =>
    { s with
      title := title.elim s.title Prod.snd
      description := description.elim s.description Prod.snd }

/-- The record starts from the values the state has. -/
def StartsFrom : TaskHistoryChange → Shown → Prop
  | statusChanged source _, s => source = s.status
  | amended title description _, s =>
    (∀ change ∈ title, change.1 = s.title) ∧ ∀ change ∈ description, change.1 = s.description
  | _, _ => True

instance : ∀ (change : TaskHistoryChange) (s : Shown), Decidable (change.StartsFrom s)
  | created _ _, _ => isTrue trivial
  | statusChanged source _, s => inferInstanceAs (Decidable (source = s.status))
  | assigneeChanged _, _ => isTrue trivial
  | amended title description _, s =>
    inferInstanceAs (Decidable ((∀ change ∈ title, change.1 = s.title) ∧
      ∀ change ∈ description, change.1 = s.description))

end TaskHistoryChange

def replay (s : Shown) (changes : List TaskHistoryChange) : Shown :=
  changes.foldl (fun s change => change.apply s) s

/-- Each record starts from what the records before it left. -/
def Chained : Shown → List TaskHistoryChange → Prop
  | _, [] => True
  | s, change :: changes => change.StartsFrom s ∧ Chained (change.apply s) changes

instance instDecidableChained :
    ∀ (s : Shown) (changes : List TaskHistoryChange), Decidable (Chained s changes)
  | _, [] => isTrue trivial
  | s, change :: changes =>
    have : Decidable (Chained (change.apply s) changes) := instDecidableChained _ _
    inferInstanceAs (Decidable (change.StartsFrom s ∧ Chained (change.apply s) changes))

/-- A Task before its first record. -/
def Task.unwritten (t : Task) : Shown where
  owner := none
  status := .todo
  title := t.original.1
  description := t.original.2

/-- The history of the Task is the Task. -/
structure Task.Tells (members : Uuid → Actor) (agentReadableBody : BodyReader) (t : Task) :
    Prop where
  numbered : t.history.map TaskHistoryEvent.seq = List.range' 1 t.history.length
  created : ∃ status changes,
    t.history.map TaskHistoryEvent.change = .created t.number status :: changes
  replays : replay t.unwritten (t.history.map TaskHistoryEvent.change) =
    t.shown members agentReadableBody
  chained : Chained t.unwritten (t.history.map TaskHistoryEvent.change)

section History

variable {members : Uuid → Actor} {agentReadableBody : BodyReader} {actor : Member}
  {t before row after : Task} {s : Shown} {changes changes' : List TaskHistoryChange}

@[simp] lemma replay_nil : replay s [] = s := rfl

@[simp] lemma replay_cons {change : TaskHistoryChange} :
    replay s (change :: changes) = replay (change.apply s) changes := rfl

lemma replay_append : replay s (changes ++ changes') = replay (replay s changes) changes' :=
  List.foldl_append

lemma chained_append :
    Chained s (changes ++ changes') ↔ Chained s changes ∧ Chained (replay s changes) changes' := by
  induction changes generalizing s with
  | nil => simp [Chained]
  | cons change changes ih => simp [Chained, ih, and_assoc]

variable {n : Nat}

@[simp] lemma length_historyRows :
    (historyRows members actor changes n).length = changes.length := by
  simp [historyRows]

@[simp] lemma map_change_historyRows :
    (historyRows members actor changes n).map TaskHistoryEvent.change = changes :=
  List.ext_getElem (by simp) fun i hi hi' => by simp [historyRows]

@[simp] lemma map_seq_historyRows : (historyRows members actor changes n).map TaskHistoryEvent.seq =
      List.range' (n + 1) changes.length := by
  refine List.ext_getElem (by simp) fun i hi hi' => ?_
  simp [historyRows]
  omega

lemma latestSeq_eq {history : List TaskHistoryEvent}
    (h : history.map TaskHistoryEvent.seq = List.range' 1 n) : latestSeq history = n := by
  rw [latestSeq, h]
  cases n with
  | zero   => rfl
  | succ n =>
    have hmax : (List.range' 1 (n + 1)).max? = some (n + 1) := by
      rw [List.max?_eq_some_iff]
      simp only [List.mem_range'_1]
      exact ⟨by omega, fun b hb => by omega⟩
    rw [hmax]
    rfl

lemma numbered_append (h : t.history.map TaskHistoryEvent.seq = List.range' 1 t.history.length) :
    (t.history ++ historyRows members actor changes (latestSeq t.history)).map
        TaskHistoryEvent.seq = List.range' 1
        (t.history ++ historyRows members actor changes (latestSeq t.history)).length := by
  rw [List.map_append, h, map_seq_historyRows, latestSeq_eq h, List.length_append,
    length_historyRows, ← List.range'_append_1, Nat.add_comm 1]

/-! ### What one commit records -/

variable {α : Type} {x y : α}

lemma replay_difference [DecidableEq α] : (difference x y).elim x Prod.snd = y := by
  rw [difference]
  split_ifs with h
  · exact h
  · rfl

lemma difference_source [DecidableEq α] : ∀ change ∈ difference x y, change.1 = x := by
  rw [difference]
  split_ifs
  · simp
  · rintro change ⟨⟩
    rfl

lemma difference_eq_none [DecidableEq α] : difference x y = none ↔ x = y := by
  rw [difference]
  split_ifs with h
  · exact iff_of_true rfl h
  · exact iff_of_false (fun hnone => nomatch hnone) h

lemma eq_of_difference [DecidableEq α] (h : ∀ change ∈ difference x y, change.1 = y) : x = y := by
  by_contra hne
  exact hne (h (x, y) (if_neg hne))

/-- The records of a change of owner and status, then those of an amendment. -/
def moves (members : Uuid → Actor) (before after : Task) : List TaskHistoryChange :=
  (if before.ownerMemberId ≠ after.ownerMemberId then [assigneeChange members after] else []) ++
    if before.status ≠ after.status then [.statusChanged before.status after.status] else []

def amendments (agentReadableBody : BodyReader) (before after : Task) : List TaskHistoryChange :=
  let title := difference (before.shownTitle agentReadableBody) (after.shownTitle agentReadableBody)
  let description := difference before.description after.description
  if title.isSome || description.isSome then [.amended title description after.revision] else []

lemma taskChanges_eq : taskChanges members agentReadableBody before after =
    moves members before after ++ amendments agentReadableBody before after := rfl

lemma replay_moves (howner : s.owner = before.owner members) (hstatus : s.status = before.status) :
    replay s (moves members before after) =
      { s with owner := after.owner members, status := after.status } := by
  have hsame : before.ownerMemberId = after.ownerMemberId → s.owner = after.owner members := by
    intro h
    rw [howner, Task.owner, h, Task.owner]
  cases s with
  | mk owner status title description =>
    simp only at howner hstatus hsame
    rw [moves]
    by_cases h : before.ownerMemberId = after.ownerMemberId <;>
      by_cases h' : before.status = after.status <;>
        simp [h, h', TaskHistoryChange.apply, assigneeChange, hstatus, hsame]

lemma chained_moves (hstatus : s.status = before.status) :
    Chained s (moves members before after) := by
  rw [moves]
  by_cases h : before.ownerMemberId = after.ownerMemberId <;>
    by_cases h' : before.status = after.status <;>
      simp [h, h', Chained, TaskHistoryChange.StartsFrom, TaskHistoryChange.apply, assigneeChange,
        hstatus]

lemma replay_amendments (htitle : s.title = before.shownTitle agentReadableBody)
    (hdescription : s.description = before.description) :
    replay s (amendments agentReadableBody before after) =
      { s with title := after.shownTitle agentReadableBody, description := after.description } := by
  simp only [amendments, Bool.or_eq_true]
  split_ifs with h
  · simp [TaskHistoryChange.apply, htitle, hdescription, replay_difference]
  · simp only [not_or, Bool.not_eq_true, Option.isSome_eq_false_iff, Option.isNone_iff_eq_none,
      difference_eq_none] at h
    rw [replay_nil, ← h.1, ← h.2, ← htitle, ← hdescription]

lemma chained_amendments (htitle : s.title = before.shownTitle agentReadableBody)
    (hdescription : s.description = before.description) :
    Chained s (amendments agentReadableBody before after) := by
  simp only [amendments]
  split_ifs
  · exact ⟨⟨fun change hchange => (difference_source change hchange).trans htitle.symm,
      fun change hchange => (difference_source change hchange).trans hdescription.symm⟩, trivial⟩
  · trivial

/-- The records of a commit, replayed from what its command read. -/
theorem taskChanges_tell : Chained (before.shown members agentReadableBody)
        (taskChanges members agentReadableBody before after) ∧
      replay (before.shown members agentReadableBody)
          (taskChanges members agentReadableBody before after) =
        after.shown members agentReadableBody := by
  rw [taskChanges_eq, chained_append, replay_append, replay_moves rfl rfl]
  exact ⟨⟨chained_moves rfl, chained_amendments rfl rfl⟩, replay_amendments rfl rfl⟩

/-- Records that start from what the Task reads as were made by a command that read the same, if
the write changes neither status nor text. -/
lemma shown_of_chained (howner : before.ownerMemberId = row.ownerMemberId)
    (hstatus : after.status = row.status)
    (htitle : after.shownTitle agentReadableBody = row.shownTitle agentReadableBody)
    (hdescription : after.description = row.description)
    (hchained : Chained (row.shown members agentReadableBody)
      (taskChanges members agentReadableBody before after)) :
    before.shown members agentReadableBody = row.shown members agentReadableBody := by
  rw [taskChanges_eq, chained_append] at hchained
  obtain ⟨hmoves, hamendments⟩ := hchained
  have hstatus' : before.status = row.status := by
    by_contra hne
    rw [moves, hstatus, if_pos hne, chained_append] at hmoves
    refine hne (hmoves.2.1.trans ?_)
    split_ifs <;> rfl
  rw [replay_moves (by rw [Task.owner, howner]; rfl) hstatus'.symm] at hamendments
  have hstarts :
      (∀ change ∈ difference (before.shownTitle agentReadableBody)
        (after.shownTitle agentReadableBody), change.1 = after.shownTitle agentReadableBody) ∧
      ∀ change ∈ difference before.description after.description,
        change.1 = after.description := by
    simp only [amendments] at hamendments
    split_ifs at hamendments with hrecord
    · obtain ⟨⟨hfirst, hsecond⟩, -⟩ := hamendments
      exact ⟨fun change hchange => (hfirst change hchange).trans htitle.symm,
        fun change hchange => (hsecond change hchange).trans hdescription.symm⟩
    · simp only [Bool.or_eq_true, not_or, Bool.not_eq_true, Option.isSome_eq_false_iff,
        Option.isNone_iff_eq_none] at hrecord
      rw [hrecord.1, hrecord.2]
      exact ⟨fun change hchange => (nomatch hchange), fun change hchange => (nomatch hchange)⟩
  rw [Task.shown, Task.shown, Task.owner, howner, hstatus', eq_of_difference hstarts.1,
    eq_of_difference hstarts.2, htitle, hdescription, Task.owner]

/-! ### What one commit leaves in the history -/

section Commit

variable {now : Nat} {sessionId : Uuid} {guard : TaskWhere} {data : TaskData}

lemma takeSession_settle :
    takeSession members now sessionId before (settle members now before data row) =
      { data.write row with sessions := (takeSession members now sessionId before
          (settle members now before data row)).sessions } := by
  obtain ⟨f, -, -, hstops⟩ : Stops (data.write row) (settle members now before data row) :=
    stops_settle
  rw [hstops, takeSession]
  split
  · split_ifs
    · rw [ensureTaskExecutionSession]
      split <;> rfl
    · rfl
  · rfl

variable {task : Task}

lemma commitTaskChange_eq_some :
    commitTaskChange members agentReadableBody actor now sessionId before guard data row =
        some task ↔ guard.holds before row ∧
        task = { takeSession members now sessionId before (settle members now before data row) with
          history := row.history ++ historyRows members actor
            (taskChanges members agentReadableBody before (data.write row))
            (latestSeq row.history) } := by
  rw [commitTaskChange]
  split_ifs with hholds
  · simp only [hholds, true_and, Option.some.injEq]
    rw [takeSession_settle]
    exact eq_comm
  · simp [hholds]

/-- The columns that `shown` reads, of the row and of what a command read, are the same. -/
def SameRead (agentReadableBody : BodyReader) (before row : Task) : Prop :=
  before.ownerMemberId = row.ownerMemberId ∧ before.status = row.status ∧
    before.shownTitle agentReadableBody = row.shownTitle agentReadableBody ∧
    before.description = row.description

lemma SameRead.taskChanges (h : SameRead agentReadableBody before row) :
    taskChanges members agentReadableBody before after =
      taskChanges members agentReadableBody row after := by
  obtain ⟨howner, hstatus, htitle, hdescription⟩ := h
  rw [Tasks.taskChanges, Tasks.taskChanges, howner, hstatus, htitle, hdescription]

lemma SameRead.shown (h : SameRead agentReadableBody before row) :
    before.shown members agentReadableBody = row.shown members agentReadableBody := by
  obtain ⟨howner, hstatus, htitle, hdescription⟩ := h
  rw [Task.shown, Task.shown, Task.owner, howner, hstatus, htitle, hdescription, Task.owner]

/-- What a write recorded is what it changed, under the name of its actor. -/
def Recorded (members : Uuid → Actor) (agentReadableBody : BodyReader) (actor : Member)
    (row task : Task) : Prop :=
  task.history = row.history ++ historyRows members actor
    (taskChanges members agentReadableBody row task) (latestSeq row.history)

lemma writes_commit
    (hcommit : commitTaskChange members agentReadableBody actor now sessionId before guard data row =
      some task) : task = { data.write row with
      sessions := task.sessions
      history := row.history ++ historyRows members actor
        (taskChanges members agentReadableBody before task) (latestSeq row.history) } := by
  obtain ⟨-, htask⟩ := commitTaskChange_eq_some.mp hcommit
  rw [takeSession_settle] at htask
  rw [htask]
  rfl

/-- A commit that finds the row as its command read it keeps the history the Task's; one of a
command that writes neither status nor text only then. -/
theorem tells_commit (htells : row.Tells members agentReadableBody)
    (howner : before.ownerMemberId = row.ownerMemberId)
    (hread : SameRead agentReadableBody before row ∨
      data.status = none ∧ data.title = none ∧ data.description = none)
    (hcommit : commitTaskChange members agentReadableBody actor now sessionId before guard data row =
      some task) : task.Tells members agentReadableBody ∧
        Recorded members agentReadableBody actor row task ↔
      SameRead agentReadableBody before row := by
  have htask := writes_commit hcommit
  have hhistory : task.history = row.history ++ historyRows members actor
      (taskChanges members agentReadableBody before task) (latestSeq row.history) :=
    congrArg Task.history htask
  have hstart : task.unwritten = row.unwritten := by
    rw [htask]
    rfl
  have hchanges : task.history.map TaskHistoryEvent.change =
      row.history.map TaskHistoryEvent.change ++
        taskChanges members agentReadableBody before task := by
    rw [hhistory, List.map_append, map_change_historyRows]
  constructor
  · rintro ⟨htells', -⟩
    refine hread.elim id fun ⟨hstatus, htitle, hdescription⟩ => ?_
    have hchained := htells'.chained
    rw [hchanges, hstart, chained_append, htells.replays] at hchained
    have hstatus' : task.status = row.status := by
      rw [htask]
      simp [TaskData.write, hstatus]
    have htitle' : task.shownTitle agentReadableBody = row.shownTitle agentReadableBody := by
      rw [htask]
      simp [Task.shownTitle, TaskData.write, htitle]
    have hdescription' : task.description = row.description := by
      rw [htask]
      simp [TaskData.write, hdescription]
    have hshown := shown_of_chained howner hstatus' htitle' hdescription' hchained.2
    rw [Task.shown, Task.shown, Shown.mk.injEq] at hshown
    exact ⟨howner, hshown.2⟩
  · intro hsame
    have htold : Chained (before.shown members agentReadableBody)
          (taskChanges members agentReadableBody before task) ∧
        replay (before.shown members agentReadableBody)
            (taskChanges members agentReadableBody before task) =
          task.shown members agentReadableBody := taskChanges_tell
    rw [hsame.shown] at htold
    obtain ⟨hchained, hreplay⟩ := htold
    refine ⟨⟨?_, ?_, ?_, ?_⟩, ?_⟩
    · rw [hhistory]
      exact numbered_append htells.numbered
    · obtain ⟨status, changes, hcreated⟩ := htells.created
      rw [hchanges, hcreated, htask]
      exact ⟨status, _, rfl⟩
    · rw [hchanges, hstart, replay_append, htells.replays]
      exact hreplay
    · rw [hchanges, hstart, chained_append, htells.replays]
      exact ⟨htells.chained, hchained⟩
    · rw [Recorded, hhistory, hsame.taskChanges]

end Commit

end History

end Coforge.Tasks
