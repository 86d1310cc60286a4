import Coforge.Lib.Run
import Coforge.Tasks.Board

/-!
# What a step of the board does

Each step leaves the Tasks as they are, inserts new ones, or commits the write of one pending
command. A pending command read a Task that has only advanced since, so its write finds the owner
it read.
-/

namespace Coforge.Tasks

open List

section Steps

variable {members : Uuid → Actor} {agentReadableBody : BodyReader} {digest : RequestName → Uuid}
  {w w' : World} {event : Event}

/-- The member whose command an event belongs to. -/
def Event.actor (w : World) : Event → Option Member
  | .create member _ _ _ _ _ _ => some member
  | .convert member _ _ => some member
  | .claimMessage member _ _ _ _ => some member
  | .start member _ _ _ _ => some member
  | .finish index _ _ _ => (w.pending[index]?).map Pending.member
  | .abort index => (w.pending[index]?).map Pending.member

/-- A Task that an actor's command has just inserted. -/
def Inserted (members : Uuid → Actor) (agentReadableBody : BodyReader) (actor : Member)
    (task : Task) : Prop :=
  ∃ assignee description createsResource requestId number row now,
    task = createTask members agentReadableBody actor assignee description createsResource requestId
      number row now

/-- A commit of a row to a Task by an actor, with a session id that is new to the row. -/
def Commits (members : Uuid → Actor) (agentReadableBody : BodyReader) (actor : Member) (now : Nat)
    (before : Task) (guard : TaskWhere) (data : TaskData) (row task : Task) : Prop :=
  ∃ sessionId, row.freshSession sessionId ∧
    commitTaskChange members agentReadableBody actor now sessionId before guard data row = some task

/-- The write of a command goes through: its guard holds of a row, and its ids are new. -/
structure Passes (digest : RequestName → Uuid) (w : World) (p : Pending) (sessionId noticeId : Uuid)
    (guard : TaskWhere) (data : TaskData) (row : Task) : Prop where
  write_eq : p.write = .commit guard data
  mem : row ∈ w.tasks
  holds : guard.holds p.before row
  session : row.freshSession sessionId
  ids : w.fresh (p.ids digest noticeId)

/-- The write that an event makes, at a time. -/
def GoesThrough (digest : RequestName → Uuid) (w : World) (event : Event) (p : Pending)
    (guard : TaskWhere) (data : TaskData) (row : Task) (now : Nat) : Prop :=
  ∃ index sessionId noticeId, event = .finish index sessionId noticeId now ∧
    w.pending[index]? = some p ∧ Passes digest w p sessionId noticeId guard data row

/-- What a step does to the Tasks. -/
inductive Moves (members : Uuid → Actor) (agentReadableBody : BodyReader) (digest : RequestName → Uuid)
    (w : World) (event : Event) (tasks : List Task) : Prop
  | still (hnone : ∀ p guard data row now, ¬GoesThrough digest w event p guard data row now)
      (htasks : tasks = w.tasks)
  | inserted (actor : Member) (hactor : event.actor w = some actor) (news : List Task)
      (hnone : ∀ p guard data row now, ¬GoesThrough digest w event p guard data row now)
      (hnews : ∀ task ∈ news, Inserted members agentReadableBody actor task)
      (hfresh : (news.map Task.messageId).Nodup)
      (hother : ∀ task ∈ w.tasks, task.messageId ∉ news.map Task.messageId)
      (htasks : tasks = w.tasks ++ news)
  | ensured (h : ∃ p ∈ w.pending, ∃ agentId, p.write = .ensure agentId)
  | committed (p : Pending) (guard : TaskWhere) (data : TaskData) (row : Task) (now : Nat)
      (hpasses : GoesThrough digest w event p guard data row now) (task : Task)
      (hcommits : Commits members agentReadableBody p.member now p.before guard data row task)
      (htasks : tasks = (w.replace task).tasks)
  | claimed (actor : Member) (hactor : event.actor w = some actor)
      (hnone : ∀ p guard data row now, ¬GoesThrough digest w event p guard data row now)
      (new task : Task) (hnew : Inserted members agentReadableBody actor new)
      (hother : ∀ task ∈ w.tasks, task.messageId ≠ new.messageId) (now : Nat) (guard : TaskWhere)
      (data : TaskData) (hunassigned : new.ownerMemberId = none ∧ new.status = .todo)
      (hdata : data.status.getD new.status = .inProgress)
      (hcommits : Commits members agentReadableBody actor now new guard data new task)
      (htasks : tasks = w.tasks ++ [task])

/-- What a step does to the pending commands. -/
def Pends (members : Uuid → Actor) (agentReadableBody : BodyReader) (w w' : World) : Prop :=
  ∀ p ∈ w'.pending, p ∈ w.pending ∨ w'.tasks = w.tasks ∧ p.before ∈ w.tasks ∧ ∃ manager,
    p.command.decide members agentReadableBody p.member p.resolved manager p.before =
      .ok (some p.write)

lemma replace_tasks_insert {task new : Task} {noticeId : Uuid}
    (hother : ∀ task ∈ w.tasks, task.messageId ≠ new.messageId)
    (hid : task.messageId = new.messageId) :
    ((w.insert new noticeId).replace task).tasks = w.tasks ++ [task] := by
  rw [World.replace, World.insert]
  simp only [map_append, map_singleton, hid, if_true, append_cancel_right_eq]
  refine map_congr_left (fun row hrow => ?_) |>.trans (map_id _)
  rw [if_neg (hother row hrow), id]

lemma pends_of_eq (h : w'.pending = w.pending) : Pends members agentReadableBody w w' :=
  fun _ hp => .inl (h ▸ hp)

@[simp] lemma createTask_messageId {member : Member} {assignee : Option Member}
    {description : Option String} {createsResource : Bool} {requestId : Option Uuid} {number : Nat}
    {row : NewTask} {now : Nat} :
    (createTask members agentReadableBody member assignee description createsResource requestId
      number row now).messageId = row.messageId := by
  simp only [createTask]
  split
  · rw [ensureTaskExecutionSession]
    split <;> rfl
  · rfl

/-- A creation that goes through. -/
structure Creates (members : Uuid → Actor) (agentReadableBody : BodyReader)
    (digest : RequestName → Uuid) (w : World) (member : Member) (command : CreateCommand)
    (assignee : Option Member) (rows : List NewTask) (noticeId : Uuid) (now : Nat) (w' : World) :
    Prop where
  titles : command.titles ≠ []
  unretried : w.retried digest member command = []
  length : rows.length = command.titles.length
  nodup : (requestIds digest command).Nodup
  fresh : w.fresh
    ((createdMessages members digest member command assignee rows noticeId).map Message.id)
  tasks : w'.tasks =
    w.tasks ++ createdTasks members agentReadableBody digest w member command assignee rows now
  messages : w'.messages =
    w.messages ++ createdMessages members digest member command assignee rows noticeId
  next : w'.nextTaskNumber = w.nextTaskNumber + rows.length
  pending : w'.pending = w.pending

lemma create_spec {member : Member} {command : CreateCommand} {assignee : Option Member}
    {duplicate : Bool} {rows : List NewTask} {noticeId : Uuid} {now : Nat} {reply : Reply}
    (h : w.create members agentReadableBody digest member command assignee duplicate rows noticeId
      now = (reply, w')) : (w' = w ∧ ∀ result, reply = .answered result → result.changed = false) ∨
      Creates members agentReadableBody digest w member command assignee rows noticeId now w' ∧
        reply = .answered {
            tasks := rows.map NewTask.messageId
            receipt := assignee.map fun assignee =>
              (createReceiptId digest member command.idempotencyKey, assignee.handle)
            changed := true } := by
  simp only [World.create] at h
  split_ifs at h with htitles hretried hlength hduplicate hfound hallowed hfresh <;>
    cases h
  · exact .inl ⟨rfl, fun result hresult => (nomatch hresult)⟩
  · exact .inl ⟨rfl, fun result hresult => (nomatch hresult)⟩
  · refine .inl ⟨rfl, fun result hresult => ?_⟩
    rw [← Reply.answered.inj hresult]
  · refine .inl ⟨rfl, fun result hresult => ?_⟩
    rw [← Reply.answered.inj hresult]
  · exact .inl ⟨rfl, fun result hresult => (nomatch hresult)⟩
  · exact .inl ⟨rfl, fun result hresult => (nomatch hresult)⟩
  · exact .inr ⟨⟨htitles, not_not.mp hretried, hfresh.1, hfresh.2.1, hfresh.2.2, rfl, rfl, rfl,
      rfl⟩, rfl⟩
  · exact .inl ⟨rfl, fun result hresult => (nomatch hresult)⟩

section Creates

variable {member : Member} {command : CreateCommand} {assignee : Option Member}
  {rows : List NewTask} {noticeId : Uuid} {now : Nat}

lemma map_messageId_createdTasks :
    (createdTasks members agentReadableBody digest w member command assignee rows now).map
      Task.messageId = rows.map NewTask.messageId := by
  refine ext_getElem (by simp [createdTasks]) fun index hindex hindex' => ?_
  simp [createdTasks]

lemma inserted_createdTasks {task : Task}
    (h : task ∈ createdTasks members agentReadableBody digest w member command assignee rows now) :
    Inserted members agentReadableBody member task := by
  obtain ⟨index, hindex, rfl⟩ := mem_mapIdx.mp h
  exact ⟨_, _, _, _, _, _, _, rfl⟩

lemma Creates.new
    (h : Creates members agentReadableBody digest w member command assignee rows noticeId now w') :
    (rows.map NewTask.messageId).Nodup ∧
      ∀ task ∈ w.tasks, task.messageId ∉ rows.map NewTask.messageId := by
  have hfresh := h.fresh
  have hids : (createdMessages members digest member command assignee rows noticeId).map
      Message.id = rows.map NewTask.messageId ++ noticeId ::
        ((creationReceipt members digest member command assignee).map Message.id).toList := by
    cases assignee <;> simp [createdMessages, creationReceipt, NewTask.message, notice]
  rw [hids] at hfresh
  simp only [World.fresh, decide_eq_true_eq] at hfresh
  exact ⟨(nodup_append.mp hfresh.1).1,
    fun task htask hmem => hfresh.2.2 task htask (mem_append_left _ hmem)⟩

end Creates

lemma convertedTask_messageId {member : Member} {row : NewTask} {now : Nat} :
    (convertedTask members agentReadableBody w member row now).messageId = row.messageId :=
  createTask_messageId

lemma inserted_convertedTask {member : Member} {row : NewTask} {now : Nat} :
    Inserted members agentReadableBody member
      (convertedTask members agentReadableBody w member row now) :=
  ⟨_, _, _, _, _, _, _, rfl⟩

lemma messageId_ne_of_find? {id : Uuid} (h : w.tasks.find? (·.messageId = id) = none) :
    ∀ task ∈ w.tasks, task.messageId ≠ id := by
  simpa using find?_eq_none.mp h

lemma convert_spec {member : Member} {row : NewTask} {noticeId : Uuid} {reply : Reply}
    (h : w.convert members agentReadableBody member row noticeId = (reply, w')) :
    w' = w ∨ (∀ task ∈ w.tasks, task.messageId ≠ row.messageId) ∧ w.fresh [noticeId] ∧
      w' = w.insert (convertedTask members agentReadableBody w member row 0) noticeId := by
  rw [World.convert] at h
  cases hfind : w.tasks.find? (·.messageId = row.messageId) with
  | some existing =>
    rw [hfind] at h
    exact .inl (Prod.mk.inj h).2.symm
  | none =>
    simp only [hfind] at h
    split_ifs at h with hfresh <;> obtain ⟨-, rfl⟩ := Prod.mk.inj h
    · exact .inr ⟨messageId_ne_of_find? hfind, hfresh, rfl⟩
    · exact .inl rfl

lemma commitTaskChange_eq_none {actor : Member} {now : Nat} {sessionId : Uuid} {before row : Task}
    {guard : TaskWhere} {data : TaskData}
    (h : commitTaskChange members agentReadableBody actor now sessionId before guard data row =
      none) : ¬guard.holds before row := by
  intro hholds
  simp [commitTaskChange, hholds] at h

lemma holds_messageId {guard : TaskWhere} {before row : Task} (h : guard.holds before row) :
    row.messageId = before.messageId := by
  simp only [TaskWhere.holds, Bool.and_eq_true, beq_iff_eq] at h
  exact h.1.1.1.1.1

/-- The board after a write, with the messages that its command posts. -/
def World.written (members : Uuid → Actor) (digest : RequestName → Uuid) (w : World) (p : Pending)
    (task : Task) (noticeId : Uuid) : World :=
  { w.replace task with
    messages := w.messages ++ p.messages members digest task noticeId
    published := w.published ++ ((p.receipt digest).map Prod.fst).toList }

lemma eq_of_holds (hunique : (w.tasks.map Task.messageId).Nodup) {guard : TaskWhere}
    {before row row' : Task} (hrow : row ∈ w.tasks) (hrow' : row' ∈ w.tasks)
    (hholds : guard.holds before row) (hholds' : guard.holds before row') : row = row' :=
  inj_on_of_nodup_map hunique hrow hrow'
    ((holds_messageId hholds).trans (holds_messageId hholds').symm)

lemma commit_spec (hunique : (w.tasks.map Task.messageId).Nodup) {p : Pending}
    {sessionId noticeId : Uuid} {now : Nat} {reply : Reply}
    (h : w.commit members agentReadableBody digest p sessionId noticeId now = (reply, w')) :
    (w' = w ∧ (∀ result, reply ≠ .answered result) ∧
        ∀ guard data row, ¬Passes digest w p sessionId noticeId guard data row) ∨
      w'.pending = w.pending ∧ ((∃ agentId, p.write = .ensure agentId) ∨
        ∃ guard data row, Passes digest w p sessionId noticeId guard data row ∧ ∃ task,
          Commits members agentReadableBody p.member now p.before guard data row task ∧
            w' = w.written members digest p task noticeId ∧ reply = .answered
                { tasks := [task.messageId], receipt := p.receipt digest, changed := true }) := by
  rw [World.commit] at h
  cases hwrite : p.write with
  | ensure agentId =>
    right
    refine ⟨?_, .inl ⟨agentId, rfl⟩⟩
    rw [hwrite] at h
    simp only at h
    split at h
    · split_ifs at h <;> obtain ⟨-, rfl⟩ := Prod.mk.inj h <;> rfl
    · obtain ⟨-, rfl⟩ := Prod.mk.inj h
      rfl
  | commit guard data =>
    simp only [hwrite] at h
    cases hfind : w.tasks.find? (guard.holds p.before) with
    | none =>
      simp only [hfind] at h
      cases h
      refine .inl ⟨rfl, fun result hresult => (nomatch hresult), fun guard' data' row hpasses => ?_⟩
      obtain ⟨rfl, rfl⟩ := Write.commit.inj (hwrite.symm.trans hpasses.write_eq)
      exact find?_eq_none.mp hfind row hpasses.mem hpasses.holds
    | some row =>
      simp only [hfind] at h
      have hrow := mem_of_find?_eq_some hfind
      have hholds : guard.holds p.before row := find?_some hfind
      cases hcommit : commitTaskChange members agentReadableBody p.member now sessionId p.before
        guard data row with
      | none => exact absurd hholds (commitTaskChange_eq_none hcommit)
      | some task =>
        simp only [hcommit] at h
        split_ifs at h with hfresh <;> cases h
        · exact .inr ⟨rfl, .inr ⟨guard, data, row, ⟨hwrite, hrow, hholds, hfresh.1, hfresh.2⟩, task,
            ⟨sessionId, hfresh.1, hcommit⟩, rfl, rfl⟩⟩
        · refine .inl ⟨rfl, fun result hresult => (nomatch hresult),
            fun guard' data' row' hpasses => hfresh ?_⟩
          obtain ⟨rfl, rfl⟩ := Write.commit.inj (hwrite.symm.trans hpasses.write_eq)
          rw [eq_of_holds hunique hrow hpasses.mem hholds hpasses.holds]
          exact ⟨hpasses.session, hpasses.ids⟩

lemma start_spec {member : Member} {command : Command} {resolved : Option Member} {manager : Bool}
    {number : Nat} {reply : Reply}
    (h : w.start members agentReadableBody digest member command resolved manager number =
      (reply, w')) : w' = w ∨ ∃ before ∈ w.tasks, ∃ write,
      command.decide members agentReadableBody member resolved manager before = .ok (some write) ∧
        w' = { w with
          locked := w.locked || command.locks
          pending := w.pending ++ [⟨member, command, resolved, before, write⟩] } := by
  rw [World.start] at h
  split at h
  · exact .inl (Prod.mk.inj h).2.symm
  · exact .inl (Prod.mk.inj h).2.symm
  · rename_i task _ hfind
    split at h
    · exact .inl (Prod.mk.inj h).2.symm
    · exact .inl (Prod.mk.inj h).2.symm
    · rename_i write hdecide
      exact .inr ⟨task, mem_of_find?_eq_some hfind, write, hdecide, (Prod.mk.inj h).2.symm⟩

lemma claim_ok {member : Member} {existing : Task} {write : Write}
    (hnew : existing.ownerMemberId = none ∧ existing.status = .todo)
    (h : TaskBoard.claim members member existing = .ok (some write)) :
    write = .commit { ownerMemberId := some none, status := some .todo }
      { ownerMemberId := some (some member.id), status := some .inProgress } := by
  simp [TaskBoard.claim, hnew, TaskStatus.finished] at h
  exact h.symm

lemma convertedTask_unassigned {member : Member} {row : NewTask} {now : Nat} :
    (convertedTask members agentReadableBody w member row now).ownerMemberId = none ∧
      (convertedTask members agentReadableBody w member row now).status = .todo :=
  ⟨rfl, rfl⟩

lemma Commits.messageId {actor : Member} {now : Nat} {before row task : Task} {guard : TaskWhere}
    {data : TaskData} (h : Commits members agentReadableBody actor now before guard data row task) :
    task.messageId = row.messageId := by
  obtain ⟨sessionId, -, hcommit⟩ := h
  rw [writes_commit hcommit]
  rfl

lemma Commits.holds {actor : Member} {now : Nat} {before row task : Task} {guard : TaskWhere}
    {data : TaskData} (h : Commits members agentReadableBody actor now before guard data row task) :
    guard.holds before row := by
  obtain ⟨sessionId, -, hcommit⟩ := h
  exact (commitTaskChange_eq_some.mp hcommit).1

lemma claimMessage_spec {member : Member} {row : NewTask} {noticeId claimNoticeId : Uuid}
    {now : Nat} {reply : Reply}
    (hunique : (w.tasks.map Task.messageId).Nodup)
    (h : w.claimMessage members agentReadableBody digest member row noticeId claimNoticeId now =
      (reply, w')) :
    w' = w ∨ (∀ task ∈ w.tasks, task.messageId ≠ row.messageId) ∧ w.fresh [noticeId] ∧
      let new := convertedTask members agentReadableBody w member row now
      ∃ task write, Commits members agentReadableBody member now new
          { ownerMemberId := some none, status := some .todo }
          { ownerMemberId := some (some member.id), status := some .inProgress } new task ∧
        let p : Pending := ⟨member, .claim, none, new, write⟩
        (w.insert new noticeId).fresh (p.ids digest claimNoticeId) ∧
          w' = (w.insert new noticeId).written members digest p task claimNoticeId := by
  rw [World.claimMessage] at h
  simp only at h
  split at h
  · rename_i write hfind hclaim
    have hother := messageId_ne_of_find? hfind
    split_ifs at h with hfresh
    · split at h
      · rename_i result hanswered
        have hunique' : ((w.insert (convertedTask members agentReadableBody w member row now)
            noticeId).tasks.map Task.messageId).Nodup := by
          simp only [World.insert, map_append, map_singleton, nodup_append]
          refine ⟨hunique, nodup_singleton _, fun id hold id' hnew heq => ?_⟩
          obtain ⟨task, htask, rfl⟩ := mem_map.mp hold
          rw [mem_singleton, convertedTask_messageId] at hnew
          exact hother task htask (heq.trans hnew)
        rcases commit_spec hunique' h with ⟨-, hnone, -⟩ | ⟨-, hwrote⟩
        · rw [h] at hanswered
          exact absurd hanswered (hnone result)
        rw [claim_ok convertedTask_unassigned hclaim] at hwrote
        rcases hwrote with ⟨_, hensure⟩ | ⟨guard, data, new, ⟨hwrite, hnew, -, -, hids⟩, task, hcommits, rfl, -⟩
        · cases hensure
        cases hwrite
        have hnew' : new = convertedTask members agentReadableBody w member row now := by
          rcases mem_append.mp hnew with hold | hnew
          · exact absurd (holds_messageId hcommits.holds) (hother new hold)
          · exact mem_singleton.mp hnew
        subst hnew'
        exact .inr ⟨hother, hfresh, task, _, hcommits, hids, rfl⟩
      · exact .inl (Prod.mk.inj h).2.symm
    · exact .inl (Prod.mk.inj h).2.symm
  · exact .inl (Prod.mk.inj h).2.symm

/-- What an event does to the Tasks and to the pending commands. -/
theorem moves_of_step (hunique : (w.tasks.map Task.messageId).Nodup)
    (h : step members agentReadableBody digest w event = some w') :
    Moves members agentReadableBody digest w event w'.tasks ∧ Pends members agentReadableBody w w' := by
  obtain ⟨⟨reply, u⟩, hexecute, rfl⟩ := Option.map_eq_some_iff.mp h
  have hnone : (∀ index sessionId noticeId now, event ≠ .finish index sessionId noticeId now) →
      ∀ p guard data row now, ¬GoesThrough digest w event p guard data row now := by
    rintro hother p guard data row now ⟨index, sessionId, noticeId, heq, -⟩
    exact hother _ _ _ _ heq
  cases event with
  | create member command assignee duplicate rows noticeId now =>
    simp only [execute] at hexecute
    split_ifs at hexecute
    rcases create_spec (Option.some.inj hexecute) with ⟨rfl, -⟩ | ⟨hcreates, -⟩
    · exact ⟨.still (hnone fun _ _ _ _ h => nomatch h) rfl, pends_of_eq rfl⟩
    · refine ⟨.inserted member rfl _ (hnone fun _ _ _ _ h => nomatch h)
        (fun task => inserted_createdTasks) ?_ ?_ hcreates.tasks, pends_of_eq hcreates.pending⟩
      · rw [map_messageId_createdTasks]
        exact hcreates.new.1
      · rw [map_messageId_createdTasks]
        exact hcreates.new.2
  | convert member row noticeId =>
    simp only [execute] at hexecute
    split_ifs at hexecute
    rcases convert_spec (Option.some.inj hexecute) with rfl | ⟨hother, -, rfl⟩
    · exact ⟨.still (hnone fun _ _ _ _ h => nomatch h) rfl, pends_of_eq rfl⟩
    · refine ⟨.inserted member rfl _ (hnone fun _ _ _ _ h => nomatch h) (fun task htask => ?_) ?_ ?_
        rfl, pends_of_eq rfl⟩
      · rw [mem_singleton.mp htask]
        exact inserted_convertedTask
      · exact nodup_singleton _
      · simpa [convertedTask_messageId] using hother
  | claimMessage member row noticeId claimNoticeId now =>
    simp only [execute] at hexecute
    split_ifs at hexecute
    rcases claimMessage_spec hunique (Option.some.inj hexecute) with
      rfl | ⟨hother, -, task, write, hcommits, -, rfl⟩
    · exact ⟨.still (hnone fun _ _ _ _ h => nomatch h) rfl, pends_of_eq rfl⟩
    · exact ⟨.claimed member rfl (hnone fun _ _ _ _ h => nomatch h) _ task inserted_convertedTask
        hother now _ _ convertedTask_unassigned rfl hcommits
        (replace_tasks_insert hother hcommits.messageId), pends_of_eq rfl⟩
  | start member command resolved manager number =>
    simp only [execute] at hexecute
    split_ifs at hexecute
    rcases start_spec (Option.some.inj hexecute) with
      rfl | ⟨before, hbefore, write, hdecide, rfl⟩
    · exact ⟨.still (hnone fun _ _ _ _ h => nomatch h) rfl, pends_of_eq rfl⟩
    · refine ⟨.still (hnone fun _ _ _ _ h => nomatch h) rfl, fun p hp => ?_⟩
      rcases mem_append.mp hp with hp | hp
      · exact .inl hp
      · rw [mem_singleton.mp hp]
        exact .inr ⟨rfl, hbefore, manager, hdecide⟩
  | finish index sessionId noticeId now =>
    simp only [execute] at hexecute
    cases hp : w.pending[index]? with
    | none =>
      rw [hp] at hexecute
      cases hexecute
    | some p =>
      simp only [hp] at hexecute
      split_ifs at hexecute
      have hleft : Pends members agentReadableBody w (w.leave index p) :=
        fun q hq => .inl (mem_of_mem_eraseIdx hq)
      have hunique' : ((w.leave index p).tasks.map Task.messageId).Nodup := hunique
      rcases commit_spec hunique' (Option.some.inj hexecute) with
        ⟨rfl, -, hfails⟩ | ⟨hpending, ⟨agentId, hwrite⟩ | ⟨guard, data, row, hpasses, task, hcommits, rfl, -⟩⟩
      · refine ⟨.still ?_ rfl, hleft⟩
        rintro q guard data row now ⟨index, sessionId, noticeId, heq, hq, hpasses⟩
        cases heq
        obtain rfl : p = q := Option.some.inj (hp.symm.trans hq)
        exact hfails guard data row ⟨hpasses.write_eq, hpasses.mem, hpasses.holds, hpasses.session,
          hpasses.ids⟩
      · exact ⟨.ensured ⟨p, mem_of_getElem? hp, agentId, hwrite⟩,
          fun q hq => .inl (mem_of_mem_eraseIdx (hpending ▸ hq))⟩
      · exact ⟨.committed p guard data row now ⟨index, sessionId, noticeId, rfl, hp,
          hpasses.write_eq, hpasses.mem, hpasses.holds, hpasses.session, hpasses.ids⟩ task hcommits
          rfl, fun q hq => .inl (mem_of_mem_eraseIdx (hpending ▸ hq))⟩
  | abort index =>
    simp only [execute] at hexecute
    cases hp : w.pending[index]? with
    | none =>
      rw [hp] at hexecute
      cases hexecute
    | some p =>
      simp only [hp, Option.some.injEq, Prod.mk.injEq] at hexecute
      obtain ⟨-, rfl⟩ := hexecute
      exact ⟨.still (hnone fun _ _ _ _ h => nomatch h) rfl,
        fun q hq => .inl (mem_of_mem_eraseIdx hq)⟩

/-! ### What a pending command still knows -/

/-- A row has the columns that a command read, as far as its records and its guard go. -/
structure SameColumns (before row : Task) : Prop where
  ownerMemberId : before.ownerMemberId = row.ownerMemberId
  status : before.status = row.status
  title : before.title = row.title
  mentions : before.mentions = row.mentions
  description : before.description = row.description

/-- A row has advanced past the revision that a command read, or is as it read it. -/
def Advances (before row : Task) : Prop :=
  before.revision ≤ row.revision ∧ (row.revision = before.revision → SameColumns before row)

/-- The write of a command: its guard has the revision that was read, or it clears an owner that
its guard names. -/
def Guarded (before : Task) : Write → Prop
  | .ensure _ => False
  | .commit guard data => guard.revision = none ∨
      guard.ownerMemberId = some before.ownerMemberId ∧
        data.status = none ∧ data.title = none ∧ data.description = none

structure World.Sound (members : Uuid → Actor) (w : World) : Prop where
  keys : ∀ task ∈ w.tasks, task.Keys
  /-- An Agent that owns a Task has been given a session. -/
  attended : ∀ task ∈ w.tasks, ∀ agentId, task.ownerAgentId members = some agentId →
    task.sessions ≠ []
  unique : (w.tasks.map Task.messageId).Nodup
  guarded : ∀ p ∈ w.pending, Guarded p.before p.write
  read : ∀ p ∈ w.pending, p.before.messageId ∈ w.tasks.map Task.messageId
  advances : ∀ p ∈ w.pending, ∀ row ∈ w.tasks, row.messageId = p.before.messageId →
    Advances p.before row

lemma World.sound_empty : World.empty.Sound members := by
  constructor <;> intros <;> simp_all [World.empty]

lemma Advances.refl (t : Task) : Advances t t :=
  ⟨le_refl _, fun _ => ⟨rfl, rfl, rfl, rfl, rfl⟩⟩

lemma guarded_of_decide {member : Member} {command : Command} {resolved : Option Member}
    {manager : Bool} {before : Task} {write : Write}
    (hattended : ∀ agentId, before.ownerAgentId members = some agentId → before.sessions ≠ [])
    (h : command.decide members agentReadableBody member resolved manager before =
      .ok (some write)) : Guarded before write := by
  cases command with
  | claim =>
    simp only [Command.decide, TaskBoard.claim] at h
    by_cases hmine : before.ownerMemberId = some member.id ∧
        (before.status = .inProgress ∨ before.status = .inReview)
    · rw [if_pos hmine] at h
      cases hagent : (members member.id).agentId with
      | none =>
        rw [hagent] at h
        cases h
      | some agentId =>
        have howner : before.ownerAgentId members = some agentId := by
          rw [Task.ownerAgentId, hmine.1, Option.bind_some, hagent]
        have hsome : before.executionSessions ≠ [] :=
          mt newest_eq_nil.mp (hattended agentId howner)
        simp [hagent, hsome] at h
    · rw [if_neg hmine] at h
      split_ifs at h <;> cases h <;> exact .inl rfl
  | unclaim expectedRevision =>
    simp only [Command.decide, TaskBoard.unclaim] at h
    split_ifs at h with howner hdone
    cases h
    exact .inr ⟨by rw [not_not.mp howner], rfl, rfl, rfl⟩
  | update status expectedRevision =>
    simp only [Command.decide, TaskBoard.update] at h
    split_ifs at h
    cases h
    exact .inl rfl
  | assign assignee expectedRevision idempotencyKey =>
    simp only [Command.decide, TaskBoard.assign] at h
    split_ifs at h
    · cases h
    · cases h
      exact .inl rfl
  | unassign expectedRevision =>
    simp only [Command.decide, TaskBoard.unassign] at h
    split_ifs at h
    · cases h
    · cases h
      exact .inl rfl
  | amend title description expectedRevision =>
    simp only [Command.decide, TaskBoard.amend] at h
    split_ifs at h
    cases h
    exact .inl rfl
  | receipt =>
    simp only [Command.decide, TaskBoard.receipt] at h
    split_ifs at h
    · cases h
    · cases h
      exact .inl rfl

section Commit

variable {actor : Member} {now : Nat} {before row task : Task} {guard : TaskWhere}
  {data : TaskData}

/-- A write that goes through finds the owner its command read; it finds all the columns, unless
it writes neither status nor text. -/
lemma known_of_holds (hguarded : Guarded before (.commit guard data))
    (hadvances : Advances before row) (hholds : guard.holds before row) :
    before.ownerMemberId = row.ownerMemberId ∧ (SameColumns before row ∨
      data.status = none ∧ data.title = none ∧ data.description = none) := by
  simp only [TaskWhere.holds, Bool.and_eq_true, beq_iff_eq] at hholds
  obtain ⟨⟨⟨⟨⟨-, hrevision⟩, howner⟩, -⟩, -⟩, -⟩ := hholds
  rcases hguarded with hnone | ⟨hsame, hquiet⟩
  · rw [hnone, Option.getD_none] at hrevision
    have hcolumns := hadvances.2 hrevision
    exact ⟨hcolumns.ownerMemberId, .inl hcolumns⟩
  · rw [hsame] at howner
    simp only [Option.all_some, beq_iff_eq] at howner
    exact ⟨howner, .inr hquiet⟩

lemma Commits.revision
    (h : Commits members agentReadableBody actor now before guard data row task) :
    task.revision = row.revision + 1 := by
  obtain ⟨sessionId, -, hcommit⟩ := h
  rw [writes_commit hcommit]
  rfl

lemma Commits.sessions
    (h : Commits members agentReadableBody actor now before guard data row task) :
    ∃ sessionId, row.freshSession sessionId ∧ task =
      { takeSession members now sessionId before (settle members now before data row) with
        history := task.history } := by
  obtain ⟨sessionId, hfresh, hcommit⟩ := h
  refine ⟨sessionId, hfresh, ?_⟩
  rw [(commitTaskChange_eq_some.mp hcommit).2]

lemma Stops.freshSession {t t' : Task} {id : Uuid} (h : Stops t t') (hfresh : t.freshSession id) :
    ∀ s ∈ t'.sessions, s.id ≠ id := by
  obtain ⟨f, hf, -, rfl⟩ := h
  intro s hs
  obtain ⟨x, hx, rfl⟩ := mem_map.mp hs
  simp only [Task.freshSession, all_eq_true, bne_iff_ne, ne_eq] at hfresh
  rw [(hf x).1]
  exact hfresh x hx

lemma Task.Keys.takeSession {t : Task} {sessionId : Uuid} (h : t.Keys)
    (hfresh : ∀ s ∈ t.sessions, s.id ≠ sessionId) :
    (takeSession members now sessionId before t).Keys := by
  rw [Tasks.takeSession]
  split
  · split_ifs
    · exact h.ensure hfresh
    · exact h
  · exact h

lemma Commits.keys (h : Commits members agentReadableBody actor now before guard data row task)
    (hkeys : row.Keys) : task.Keys := by
  obtain ⟨sessionId, hfresh, htask⟩ := h.sessions
  have hstops : Stops (data.write row) (settle members now before data row) := stops_settle
  have hkeys' : (takeSession members now sessionId before
      (settle members now before data row)).Keys :=
    (hstops.keys ⟨hkeys.id, hkeys.agentId⟩).takeSession (hstops.freshSession hfresh)
  rw [htask]
  exact ⟨hkeys'.id, hkeys'.agentId⟩

lemma ensure_sessions_ne_nil {t : Task} {id agentId : Uuid} :
    (ensureTaskExecutionSession now id agentId t).sessions ≠ [] := by
  rw [ensureTaskExecutionSession]
  split
  · rename_i existing hfind
    simp only [Task.updateSessions, ne_eq, map_eq_nil_iff]
    exact ne_nil_of_mem (mem_of_find?_eq_some hfind)
  · simp

lemma Commits.ownerMemberId
    (h : Commits members agentReadableBody actor now before guard data row task) :
    task.ownerMemberId = (data.write row).ownerMemberId := by
  obtain ⟨sessionId, -, hcommit⟩ := h
  rw [writes_commit hcommit]

lemma Commits.attended (h : Commits members agentReadableBody actor now before guard data row task)
    (howner : before.ownerMemberId = row.ownerMemberId)
    (hattended : ∀ agentId, row.ownerAgentId members = some agentId → row.sessions ≠ []) :
    ∀ agentId, task.ownerAgentId members = some agentId → task.sessions ≠ [] := by
  intro agentId hagent
  have hstops : Stops (data.write row) (settle members now before data row) := stops_settle
  rw [ownerAgentId_congr (h.ownerMemberId.trans hstops.ownerMemberId.symm)] at hagent
  obtain ⟨sessionId, -, htask⟩ := h.sessions
  rw [htask, takeSession, hagent]
  simp only
  split_ifs with hchanged
  · exact ensure_sessions_ne_nil
  · have hrow : row.ownerAgentId members = some agentId := by
      rw [← hagent, ownerAgentId_congr ((not_not.mp hchanged).trans howner)]
    obtain ⟨f, -, -, hsettle⟩ := hstops
    rw [hsettle]
    simp only [Task.rewrite, ne_eq, map_eq_nil_iff]
    exact hattended agentId hrow

end Commit

/-! ### New Tasks -/

section Inserted

variable {actor : Member} {task : Task}

lemma Inserted.keys (h : Inserted members agentReadableBody actor task) : task.Keys := by
  obtain ⟨assignee, description, createsResource, requestId, number, row, now, rfl⟩ := h
  simp only [createTask]
  split
  · simp only [ensureTaskExecutionSession, find?_nil, nil_append]
    exact ⟨nodup_singleton _, nodup_singleton _⟩
  · exact ⟨nodup_nil, nodup_nil⟩

lemma Inserted.attended (h : Inserted members agentReadableBody actor task) :
    ∀ agentId, task.ownerAgentId members = some agentId → task.sessions ≠ [] := by
  obtain ⟨assignee, description, createsResource, requestId, number, row, now, rfl⟩ := h
  intro agentId hagent
  simp only [createTask] at hagent ⊢
  split
  · exact ensure_sessions_ne_nil
  · rename_i hnone
    simp only [hnone] at hagent
    exact nomatch hnone.symm.trans hagent

end Inserted

/-! ### Soundness along a run -/

/-- A Task of the next state: the same, one of the same message with a later revision, or new. -/
def Succeeds (tasks : List Task) (task : Task) : Prop :=
  task ∈ tasks ∨ (∃ row ∈ tasks, row.messageId = task.messageId ∧ row.revision < task.revision) ∨
    ∀ row ∈ tasks, row.messageId ≠ task.messageId

lemma World.Sound.of_tasks (hsound : w.Sound members)
    (hpends : Pends members agentReadableBody w w') (hkeys : ∀ task ∈ w'.tasks, task.Keys)
    (hattended : ∀ task ∈ w'.tasks, ∀ agentId, task.ownerAgentId members = some agentId →
      task.sessions ≠ []) (hunique : (w'.tasks.map Task.messageId).Nodup)
    (hids : w.tasks.map Task.messageId ⊆ w'.tasks.map Task.messageId)
    (hsucceeds : ∀ task ∈ w'.tasks, Succeeds w.tasks task) : w'.Sound members where
  keys := hkeys
  attended := hattended
  unique := hunique
  guarded p hp := by
    rcases hpends p hp with hold | ⟨-, hbefore, manager, hdecide⟩
    · exact hsound.guarded p hold
    · exact guarded_of_decide (hsound.attended p.before hbefore) hdecide
  read p hp := by
    rcases hpends p hp with hold | ⟨-, hbefore, -⟩
    · exact hids (hsound.read p hold)
    · exact hids (mem_map_of_mem hbefore)
  advances p hp task htask hid := by
    rcases hpends p hp with hold | ⟨hsame, hbefore, -⟩
    · rcases hsucceeds task htask with htask | ⟨row, hrow, hsame, hlater⟩ | hnew
      · exact hsound.advances p hold task htask hid
      · have hadvances := hsound.advances p hold row hrow (hsame.trans hid)
        exact ⟨hadvances.1.trans hlater.le, fun hrevision => absurd hadvances.1 (by omega)⟩
      · obtain ⟨row, hrow, hread⟩ := mem_map.mp (hsound.read p hold)
        exact absurd (hread.trans hid.symm) (hnew row hrow)
    · rw [hsame] at htask
      rw [inj_on_of_nodup_map hsound.unique htask hbefore hid]
      exact Advances.refl _

lemma mem_replace {task row : Task} (h : row ∈ (w.replace task).tasks) : row = task ∨ row ∈ w.tasks := by
  obtain ⟨x, hx, rfl⟩ := mem_map.mp h
  split_ifs
  · exact .inl rfl
  · exact .inr hx

lemma map_messageId_replace {task : Task} :
    (w.replace task).tasks.map Task.messageId = w.tasks.map Task.messageId := by
  rw [World.replace, map_map]
  refine map_congr_left fun row _ => ?_
  simp only [Function.comp_apply]
  split_ifs with hid
  · exact hid.symm
  · rfl

/-- Every step keeps the board sound. -/
theorem World.Sound.step (hsound : w.Sound members)
    (h : step members agentReadableBody digest w event = some w') : w'.Sound members := by
  obtain ⟨hmoves, hpends⟩ := moves_of_step hsound.unique h
  cases hmoves with
  | still hnone htasks =>
    refine hsound.of_tasks hpends ?_ ?_ ?_ ?_ ?_ <;> rw [htasks]
    · exact hsound.keys
    · exact hsound.attended
    · exact hsound.unique
    · exact Subset.refl _
    · exact fun task htask => .inl htask
  | inserted actor hactor news hnone hnews hnodup hother htasks =>
    refine hsound.of_tasks hpends ?_ ?_ ?_ ?_ ?_ <;> rw [htasks]
    · exact forall_mem_append.mpr ⟨hsound.keys, fun task htask => (hnews task htask).keys⟩
    · exact forall_mem_append.mpr
        ⟨hsound.attended, fun task htask => (hnews task htask).attended⟩
    · rw [map_append, nodup_append]
      refine ⟨hsound.unique, hnodup, fun id hid id' hid' heq => ?_⟩
      obtain ⟨row, hrow, rfl⟩ := mem_map.mp hid
      exact hother row hrow (heq ▸ hid')
    · rw [map_append]
      exact subset_append_left _ _
    · refine forall_mem_append.mpr ⟨fun task htask => .inl htask, fun task htask => ?_⟩
      refine .inr (.inr fun row hrow hid => hother row hrow ?_)
      rw [hid]
      exact mem_map_of_mem htask
  | ensured h =>
    obtain ⟨p, hp, agentId, hwrite⟩ := h
    have hguarded := hsound.guarded p hp
    rw [hwrite] at hguarded
    exact hguarded.elim
  | committed p guard data row now hpasses task hcommits htasks =>
    obtain ⟨index, sessionId, noticeId, -, hp, ⟨hwrite, hrow, hholds, -, -⟩⟩ := hpasses
    have hp := mem_of_getElem? hp
    have hknown := known_of_holds (hwrite ▸ hsound.guarded p hp)
      (hsound.advances p hp row hrow (holds_messageId hholds)) hholds
    refine hsound.of_tasks hpends ?_ ?_ ?_ ?_ ?_ <;> rw [htasks]
    · intro t ht
      rcases mem_replace ht with rfl | ht
      · exact hcommits.keys (hsound.keys row hrow)
      · exact hsound.keys t ht
    · intro t ht
      rcases mem_replace ht with rfl | ht
      · exact hcommits.attended hknown.1 (hsound.attended row hrow)
      · exact hsound.attended t ht
    · rw [map_messageId_replace]
      exact hsound.unique
    · rw [map_messageId_replace]
      exact Subset.refl _
    · intro t ht
      rcases mem_replace ht with rfl | ht
      · exact .inr (.inl ⟨row, hrow, hcommits.messageId.symm,
          hcommits.revision ▸ Nat.lt_succ_self _⟩)
      · exact .inl ht
  | claimed actor hactor hnone new task hnew hother now guard data hunassigned hdata hcommits htasks =>
    have hid : task.messageId = new.messageId := hcommits.messageId
    refine hsound.of_tasks hpends ?_ ?_ ?_ ?_ ?_ <;> rw [htasks]
    · exact forall_mem_append.mpr
        ⟨hsound.keys, forall_mem_singleton.mpr (hcommits.keys hnew.keys)⟩
    · exact forall_mem_append.mpr
        ⟨hsound.attended, forall_mem_singleton.mpr (hcommits.attended rfl hnew.attended)⟩
    · rw [map_append, nodup_append]
      refine ⟨hsound.unique, nodup_singleton _, fun id hold id' hnew heq => ?_⟩
      obtain ⟨row, hrow, rfl⟩ := mem_map.mp hold
      rw [map_singleton, mem_singleton, hid] at hnew
      exact hother row hrow (heq.trans hnew)
    · rw [map_append]
      exact subset_append_left _ _
    · refine forall_mem_append.mpr
        ⟨fun task htask => .inl htask, forall_mem_singleton.mpr ?_⟩
      exact .inr (.inr fun row hrow => hid ▸ hother row hrow)

end Steps

end Coforge.Tasks
