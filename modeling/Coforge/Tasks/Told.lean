import Coforge.Tasks.Followed

/-!
# The history of a Task is the Task

In every run of a conversation's Task commands, each step records what it changed under the name of
the member whose command it is, and the history of each Task replays to the Task, as long as each
write finds the Task as its command read it. Only the write of an `unclaim` whose expected revision
is not the one it read may find it otherwise.
-/

namespace Coforge.Tasks

open Transition List

/-- The history of each Task is the Task. -/
def World.Tell (members : Uuid → Actor) (agentReadableBody : BodyReader) (w : World) : Prop :=
  ∀ task ∈ w.tasks, task.Tells members agentReadableBody

/-- A record names a member. -/
def TaskHistoryEvent.Names (members : Uuid → Actor) (actor : Member) (e : TaskHistoryEvent) : Prop :=
  e.actorType = (members actor.id).type ∧ e.actorName = actor.handle

/-- Each Task is as it was, or has new records of what the step changed, or is new itself; the new
records name the member whose command the step belongs to. -/
def World.Records (members : Uuid → Actor) (agentReadableBody : BodyReader) (w : World)
    (event : Event) (w' : World) : Prop :=
  ∀ task ∈ w'.tasks, task ∈ w.tasks ∨ ∃ actor, event.actor w = some actor ∧
    ((∃ row ∈ w.tasks, row.messageId = task.messageId ∧
        Recorded members agentReadableBody actor row task) ∨
      (∀ row ∈ w.tasks, row.messageId ≠ task.messageId) ∧ ∀ e ∈ task.history, e.Names members actor)

/-- The write of a command finds the owner, status, title and description the command read. -/
def Undisturbed (agentReadableBody : BodyReader) (digest : RequestName → Uuid) (w : World)
    (event : Event) : Prop :=
  ∀ p guard data row now, GoesThrough digest w event p guard data row now →
    SameRead agentReadableBody p.before row

section Tells

variable {members : Uuid → Actor} {agentReadableBody : BodyReader} {digest : RequestName → Uuid}
  {w w' : World} {event : Event} {actor : Member} {now : Nat} {before row task : Task}
  {guard : TaskWhere} {data : TaskData}

lemma names_historyRows {changes : List TaskHistoryChange} {n : Nat} :
    ∀ e ∈ historyRows members actor changes n, e.Names members actor := by
  intro e he
  obtain ⟨index, hindex, rfl⟩ := mem_mapIdx.mp he
  exact ⟨rfl, rfl⟩

lemma Inserted.tells (h : Inserted members agentReadableBody actor task) :
    task.Tells members agentReadableBody ∧ ∀ e ∈ task.history, e.Names members actor := by
  obtain ⟨assignee, description, createsResource, requestId, number, row, now, rfl⟩ := h
  set task := createTask members agentReadableBody actor assignee description createsResource
    requestId number row now with htask
  have hhistory : task.history = historyRows members actor (creationChanges members task) 0 := by
    rw [htask]
    rfl
  have hchanges : task.history.map TaskHistoryEvent.change = creationChanges members task := by
    rw [hhistory, map_change_historyRows]
  have hunwritten : task.unwritten = { task.shown members agentReadableBody with
      owner := none, status := .todo } := by
    rw [htask]
    simp only [createTask]
    split
    · rw [ensureTaskExecutionSession]
      split <;> rfl
    · rfl
  refine ⟨⟨?_, ?_, ?_, ?_⟩, ?_⟩
  · rw [hhistory, map_seq_historyRows, length_historyRows]
  · exact ⟨_, _, hchanges⟩
  · rw [hchanges, hunwritten, creationChanges]
    cases howner : task.ownerMemberId with
    | none => simp [TaskHistoryChange.apply, Task.shown, Task.owner, howner]
    | some memberId => simp [TaskHistoryChange.apply, Task.shown, assigneeChange]
  · rw [hchanges, creationChanges]
    cases task.ownerMemberId.isSome <;> simp [Chained, TaskHistoryChange.StartsFrom, assigneeChange]
  · rw [hhistory]
    exact names_historyRows

lemma SameColumns.sameRead (h : SameColumns before row) : SameRead agentReadableBody before row := by
  refine ⟨h.ownerMemberId, h.status, ?_, h.description⟩
  rw [Task.shownTitle, h.title, h.mentions, Task.shownTitle]

lemma Commits.tells_iff (h : Commits members agentReadableBody actor now before guard data row task)
    (htells : row.Tells members agentReadableBody)
    (hknown : before.ownerMemberId = row.ownerMemberId ∧ (SameColumns before row ∨
      data.status = none ∧ data.title = none ∧ data.description = none)) :
    task.Tells members agentReadableBody ∧ Recorded members agentReadableBody actor row task ↔
      SameRead agentReadableBody before row := by
  obtain ⟨sessionId, -, hcommit⟩ := h
  exact tells_commit htells hknown.1 (hknown.2.imp_left SameColumns.sameRead) hcommit

/-- A step tells what it did exactly if its write found the Task as its command read it. -/
theorem tell_step (hsound : w.Sound members) (htell : w.Tell members agentReadableBody)
    (h : step members agentReadableBody digest w event = some w') :
    w'.Tell members agentReadableBody ∧ w.Records members agentReadableBody event w' ↔
      Undisturbed agentReadableBody digest w event := by
  obtain ⟨hmoves, -⟩ := moves_of_step hsound.unique h
  cases hmoves with
  | still hnone htasks =>
    refine iff_of_true ?_ fun p guard data row now hpasses => absurd hpasses (hnone _ _ _ _ _)
    rw [World.Tell, World.Records, htasks]
    exact ⟨htell, fun task htask => .inl htask⟩
  | inserted actor hactor news hnone hnews hnodup hother htasks =>
    refine iff_of_true ?_ fun p guard data row now hpasses => absurd hpasses (hnone _ _ _ _ _)
    rw [World.Tell, World.Records, htasks, forall_mem_append, forall_mem_append]
    refine ⟨⟨htell, fun task htask => (hnews task htask).tells.1⟩, fun task htask => .inl htask,
      fun task htask => .inr ⟨actor, hactor, .inr ⟨fun row hrow hid => ?_, ?_⟩⟩⟩
    · exact hother row hrow (hid ▸ mem_map_of_mem htask)
    · exact (hnews task htask).tells.2
  | ensured h =>
    obtain ⟨p, hp, agentId, hwrite⟩ := h
    have hguarded := hsound.guarded p hp
    rw [hwrite] at hguarded
    exact hguarded.elim
  | committed p guard data row now hpasses task hcommits htasks =>
    have hpasses' := hpasses
    obtain ⟨index, sessionId, noticeId, rfl, hp, ⟨hwrite, hrow, hholds, -, -⟩⟩ := hpasses'
    have hpending := mem_of_getElem? hp
    have hknown := known_of_holds (hwrite ▸ hsound.guarded p hpending)
      (hsound.advances p hpending row hrow (holds_messageId hholds)) hholds
    have hiff := hcommits.tells_iff (htell row hrow) hknown
    have hid := hcommits.messageId
    have htask : task ∈ (w.replace task).tasks :=
      mem_map.mpr ⟨row, hrow, if_pos hid.symm⟩
    have hactor : (Event.finish index sessionId noticeId now).actor w = some p.member := by
      simp [Event.actor, hp]
    rw [World.Tell, World.Records, htasks]
    constructor
    · rintro ⟨htells, hrecords⟩ p' guard' data' row' now' hpasses'
      obtain ⟨rfl, rfl, rfl, rfl⟩ := hpasses.eq hsound.unique hpasses'
      refine hiff.mp ⟨htells task htask, ?_⟩
      rcases hrecords task htask with hold | ⟨actor', hactor', ⟨row', hrow', hid', hrecorded⟩ | ⟨hnew, -⟩⟩
      · have hsame : task = row := inj_on_of_nodup_map hsound.unique hold hrow hid
        have hrevision := hcommits.revision
        rw [hsame] at hrevision
        omega
      · obtain rfl : p.member = actor' := Option.some.inj (hactor.symm.trans hactor')
        obtain rfl : row' = row :=
          inj_on_of_nodup_map hsound.unique hrow' hrow (hid'.trans hid)
        exact hrecorded
      · exact absurd hid.symm (hnew row hrow)
    · intro hundisturbed
      obtain ⟨htells, hrecorded⟩ := hiff.mpr (hundisturbed p guard data row now hpasses)
      refine ⟨fun t ht => ?_, fun t ht => ?_⟩ <;> rcases mem_replace ht with rfl | ht
      · exact htells
      · exact htell t ht
      · exact .inr ⟨p.member, hactor, .inl ⟨row, hrow, hid.symm, hrecorded⟩⟩
      · exact .inl ht
  | claimed actor hactor hnone new task hnew hother now guard data hunassigned hdata hcommits
      htasks =>
    refine iff_of_true ?_ fun p guard data row now hpasses => absurd hpasses (hnone _ _ _ _ _)
    have hsame : SameColumns new new := ⟨rfl, rfl, rfl, rfl, rfl⟩
    obtain ⟨htells, hrecorded⟩ := (hcommits.tells_iff hnew.tells.1 ⟨rfl, .inl hsame⟩).mpr
      hsame.sameRead
    rw [World.Tell, World.Records, htasks, forall_mem_append, forall_mem_append,
      forall_mem_singleton, forall_mem_singleton]
    refine ⟨⟨htell, htells⟩, fun task htask => .inl htask, .inr ⟨actor, hactor, .inr ⟨?_, ?_⟩⟩⟩
    · intro row hrow hid
      exact hother row hrow (hid.trans hcommits.messageId)
    · rw [hrecorded, forall_mem_append]
      exact ⟨hnew.tells.2, names_historyRows⟩

end Tells

section Examples

/-- The person starts Task 1, and gives it up naming the next revision; before that is written, the
first Agent amends the title. -/
def givenUpLate : List Event :=
  [.create person ⟨["task"], none, false, some "@ada", 40⟩ (some person) false
      [⟨10, 20, "task", [], []⟩] 11 100,
    .start person (.unclaim (some 1)) none false 1,
    .start firstAgent (.amend (some "goal") none none) none false 1, .finish 1 21 12 110,
    .finish 0 22 13 120]

end Examples

end Coforge.Tasks
