import Coforge.Tasks.Told
import Coforge.Lib.Join
import Mathlib

/-!
# A command that is repeated

A repeated `create` finds the Tasks of its first attempt by their request ids, and a repeated
`assign` finds the receipt. An `assign` without an assignee leaves nothing to find: its repetition
has no effect only while the Task has no owner.
-/

namespace Coforge.Tasks

open Transition List

/-- What a Task is known by. It never changes. -/
structure Core where
  messageId : Uuid
  number : Nat
  creatorMemberId : Uuid
  requestId : Option Uuid
deriving DecidableEq

def Task.core (t : Task) : Core where
  messageId := t.messageId
  number := t.number
  creatorMemberId := t.creatorMemberId
  requestId := t.requestId

def World.cores (w : World) : List Core := w.tasks.map Task.core

open World

/-- The ids that an event makes up for new messages. -/
def Event.madeUp : Event → List Uuid
  | .create _ _ _ _ rows noticeId _ => noticeId :: rows.map NewTask.messageId
  | .convert _ _ noticeId => [noticeId]
  | .claimMessage _ _ noticeId claimNoticeId _ => [noticeId, claimNoticeId]
  | .start _ _ _ _ _ => []
  | .finish _ _ noticeId _ => [noticeId]
  | .abort _ => []

/-- No id that an event makes up is a digest. -/
def MadeUp (digest : RequestName → Uuid) (event : Event) : Prop :=
  ∀ id ∈ event.madeUp, ∀ name, digest name ≠ id

/-- Two Tasks that one creation request may have made. -/
def Core.Distinct (c c' : Core) : Prop :=
  c.requestId ≠ none → ¬(c.creatorMemberId = c'.creatorMemberId ∧ c.requestId = c'.requestId)

/-- What the ids on the board say of the requests that were made. -/
structure World.Requests (members : Uuid → Actor) (agentReadableBody : BodyReader)
    (digest : RequestName → Uuid) (w : World) : Prop where
  numbers : w.cores.Pairwise fun c c' => c.number < c'.number
  below : ∀ c ∈ w.cores, c.number < w.nextTaskNumber
  requests : w.cores.Pairwise Core.Distinct
  messages : (w.messages.map Message.id).Nodup
  receipts : ∀ message ∈ w.messages, ∀ memberId idempotencyKey,
    message.id = digest (.createReceipt memberId idempotencyKey) →
      ∃ c ∈ w.cores, c.creatorMemberId = memberId ∧ c.requestId = some idempotencyKey
  read : ∀ p ∈ w.pending, p.before.core ∈ w.cores
  decided : ∀ p ∈ w.pending, ∃ manager, p.command.decide members agentReadableBody p.member
    p.resolved manager p.before = .ok (some p.write)

section Requests

variable {members : Uuid → Actor} {agentReadableBody : BodyReader} {digest : RequestName → Uuid}
  {w w' : World} {event : Event}

lemma requests_empty : World.empty.Requests members agentReadableBody digest := by
  constructor <;> simp [empty, cores]

/-! ### What a step adds -/

variable {row task : Task} {guard : TaskWhere}

lemma Commits.core {actor : Member} {now : Nat} {before : Task} {data : TaskData}
    (h : Commits members agentReadableBody actor now before guard data row task) :
    task.core = row.core := by
  obtain ⟨sessionId, -, hcommit⟩ := h
  rw [writes_commit hcommit]
  rfl

lemma cores_replace (hunique : (w.tasks.map Task.messageId).Nodup)
    (hrow : row ∈ w.tasks) (hcore : task.core = row.core) : (w.replace task).cores = w.cores := by
  have hid : task.messageId = row.messageId := congrArg Core.messageId hcore
  rw [World.cores, World.replace, map_map, World.cores]
  refine map_congr_left fun x hx => ?_
  rw [Function.comp_apply]
  split_ifs with hx'
  · rw [hcore, inj_on_of_nodup_map hunique hx hrow (hx'.trans hid)]
  · rfl

/-- A later board: what it has added, and that its Tasks are those of before, or revised. -/
structure Grown (digest : RequestName → Uuid) (w w' : World) (cores : List Core)
    (messages : List Message) : Prop where
  cores_eq : w'.cores = w.cores ++ cores
  messages_eq : w'.messages = w.messages ++ messages
  kept : ∀ row ∈ w.tasks, ∃ task ∈ w'.tasks, task.core = row.core ∧ row.revision ≤ task.revision
  /-- The receipt of a creation comes with the Tasks of the creation. -/
  receipts : ∀ message ∈ messages, ∀ memberId idempotencyKey,
    message.id = digest (.createReceipt memberId idempotencyKey) →
      ∃ c ∈ cores, c.creatorMemberId = memberId ∧ c.requestId = some idempotencyKey

lemma Grown.refl : Grown digest w w [] [] :=
  ⟨(append_nil _).symm, (append_nil _).symm, fun row hrow => ⟨row, hrow, rfl, le_refl _⟩,
    forall_mem_nil _⟩

lemma Grown.trans {u : World} {cores cores' : List Core} {messages messages' : List Message}
    (h : Grown digest u w cores messages) (h' : Grown digest w w' cores' messages') :
    Grown digest u w' (cores ++ cores') (messages ++ messages') where
  cores_eq := by rw [h'.cores_eq, h.cores_eq, append_assoc]
  messages_eq := by rw [h'.messages_eq, h.messages_eq, append_assoc]
  kept row hrow := by
    obtain ⟨task, htask, hcore, hle⟩ := h.kept row hrow
    obtain ⟨task', htask', hcore', hle'⟩ := h'.kept task htask
    exact ⟨task', htask', hcore'.trans hcore, hle.trans hle'⟩
  receipts message hmessage memberId idempotencyKey hid := by
    rcases mem_append.mp hmessage with hmessage | hmessage
    · obtain ⟨c, hc, hcore⟩ := h.receipts message hmessage memberId idempotencyKey hid
      exact ⟨c, mem_append_left _ hc, hcore⟩
    · obtain ⟨c, hc, hcore⟩ := h'.receipts message hmessage memberId idempotencyKey hid
      exact ⟨c, mem_append_right _ hc, hcore⟩

/-- What one step adds: Tasks with the next numbers, of no request that was made before, and new
messages. -/
structure Grows (digest : RequestName → Uuid) (w w' : World) (cores : List Core)
    (messages : List Message) : Prop extends Grown digest w w' cores messages where
  next : w'.nextTaskNumber = w.nextTaskNumber + cores.length
  numbers : cores.map Core.number = List.range' w.nextTaskNumber cores.length
  distinct : (w.cores.Pairwise Core.Distinct) → (w.cores ++ cores).Pairwise Core.Distinct
  nodup : (w.messages.map Message.id).Nodup → ((w.messages ++ messages).map Message.id).Nodup

lemma Grows.refl : Grows digest w w [] [] :=
  { Grown.refl with
    next := rfl
    numbers := rfl
    distinct := fun h => by rwa [append_nil]
    nodup := fun h => by rwa [append_nil] }

lemma nodup_of_fresh {messages : List Message} (h : w.fresh (messages.map Message.id))
    (hold : (w.messages.map Message.id).Nodup) :
    ((w.messages ++ messages).map Message.id).Nodup := by
  simp only [fresh, decide_eq_true_eq] at h
  rw [map_append, nodup_append]
  refine ⟨hold, h.1, fun id hid id' hid' heq => ?_⟩
  obtain ⟨message, hmessage, rfl⟩ := mem_map.mp hid
  exact h.2.1 message hmessage (heq ▸ hid')

lemma pending_messages (members : Uuid → Actor) (digest : RequestName → Uuid) (p : Pending)
    (task : Task) (noticeId : Uuid) : p.messages members digest task noticeId = [] ∨
      ∃ message, p.messages members digest task noticeId = [message] ∧ (message.id = noticeId ∨
        ∃ assignee expectedRevision idempotencyKey resolved,
          p.command = .assign (some assignee) expectedRevision idempotencyKey ∧
            p.resolved = some resolved ∧
            message.id = assignReceiptId digest p.member task.number idempotencyKey) := by
  simp only [Pending.messages]
  split
  · rename_i assignee expectedRevision idempotencyKey resolved hcommand hresolved
    exact .inr ⟨_, rfl, .inr ⟨_, _, _, _, hcommand, hresolved, rfl⟩⟩
  · exact .inr ⟨_, rfl, .inl rfl⟩
  · exact .inr ⟨_, rfl, .inl rfl⟩
  · exact .inr ⟨_, rfl, .inl rfl⟩
  · split_ifs
    · exact .inl rfl
    · exact .inr ⟨_, rfl, .inl rfl⟩
  · exact .inl rfl
  · exact .inl rfl
  · exact .inl rfl

variable {p : Pending}

lemma mem_ids_of_messages {noticeId : Uuid} (hnumber : task.number = p.before.number) :
    ∀ message ∈ p.messages members digest task noticeId, message.id ∈ p.ids digest noticeId := by
  intro message hmessage
  rcases pending_messages members digest p task noticeId with hnone | ⟨m, hone, hid⟩
  · rw [hnone] at hmessage
    exact absurd hmessage not_mem_nil
  · rw [hone, mem_singleton] at hmessage
    subst hmessage
    rcases hid with
      hid | ⟨assignee, expectedRevision, idempotencyKey, resolved, hcommand, hresolved, hid⟩
    · rw [hid]
      exact mem_cons_self
    · rw [hid, hnumber, Pending.ids, Pending.receipt, hcommand, hresolved]
      simp

lemma World.Requests.number_of_holds (h : w.Requests members agentReadableBody digest)
    (hunique : (w.tasks.map Task.messageId).Nodup) (hp : p ∈ w.pending) (hrow : row ∈ w.tasks) (hholds : guard.holds p.before row) :
    row.number = p.before.number := by
  obtain ⟨x, hx, hcore⟩ := mem_map.mp (h.read p hp)
  have hid : x.messageId = p.before.messageId := congrArg Core.messageId hcore
  obtain rfl := inj_on_of_nodup_map hunique hrow hx ((holds_messageId hholds).trans hid.symm)
  exact congrArg Core.number hcore

/-! ### Growth of a step -/

lemma Grows.of_same (htasks : w'.tasks = w.tasks) (hmessages : w'.messages = w.messages)
    (hnext : w'.nextTaskNumber = w.nextTaskNumber) : Grows digest w w' [] [] :=
  { cores_eq := by rw [cores, htasks, append_nil, cores]
    messages_eq := by rw [hmessages, append_nil]
    kept := fun row hrow => ⟨row, htasks ▸ hrow, rfl, le_refl _⟩
    receipts := forall_mem_nil _
    next := hnext
    numbers := rfl
    distinct := fun h => by rwa [append_nil]
    nodup := fun h => by rwa [append_nil] }

lemma Grows.trans {u : World} {cores cores' : List Core} {messages messages' : List Message}
    (h : Grows digest u w cores messages) (h' : Grows digest w w' cores' messages') :
    Grows digest u w' (cores ++ cores') (messages ++ messages') :=
  { h.toGrown.trans h'.toGrown with
    next := by rw [h'.next, h.next, length_append, Nat.add_assoc]
    numbers := by
      rw [map_append, h.numbers, h'.numbers, h.next, length_append, range'_append_1]
    distinct := fun hold => by
      rw [← append_assoc, ← h.cores_eq]
      exact h'.distinct (h.cores_eq ▸ h.distinct hold)
    nodup := fun hold => by
      rw [← append_assoc, ← h.messages_eq]
      exact h'.nodup (h.messages_eq ▸ h.nodup hold) }

lemma grows_insert {new : Task} {noticeId : Uuid} (hnumber : new.number = w.nextTaskNumber)
    (hrequest : new.requestId = none) (hfresh : w.fresh [noticeId])
    (hmade : ∀ name, digest name ≠ noticeId) :
    Grows digest w (w.insert new noticeId) [new.core] [notice noticeId none] where
  cores_eq := by simp [World.cores, World.insert]
  messages_eq := rfl
  kept row hrow := ⟨row, mem_append_left _ hrow, rfl, le_refl _⟩
  receipts message hmessage memberId idempotencyKey hid := by
    rw [mem_singleton.mp hmessage] at hid
    exact absurd hid.symm (hmade _)
  next := rfl
  numbers := by simp [Task.core, hnumber]
  distinct hold := by
    rw [pairwise_append]
    refine ⟨hold, pairwise_singleton _ _, fun c _ c' hc' hsome => ?_⟩
    rw [mem_singleton.mp hc']
    rintro ⟨-, heq⟩
    exact hsome (heq.trans hrequest)
  nodup := nodup_of_fresh hfresh

lemma grows_written (hinjective : Function.Injective digest)
    (hunique : (w.tasks.map Task.messageId).Nodup) {noticeId : Uuid} {now : Nat} {data : TaskData} (hrow : row ∈ w.tasks)
    (hcommits : Commits members agentReadableBody p.member now p.before guard data row task)
    (hnumber : task.number = p.before.number) (hfresh : w.fresh (p.ids digest noticeId))
    (hmade : ∀ name, digest name ≠ noticeId) :
    Grows digest w (w.written members digest p task noticeId) []
      (p.messages members digest task noticeId) where
  cores_eq := by
    rw [append_nil]
    exact cores_replace hunique hrow hcommits.core
  messages_eq := rfl
  kept x hx := by
    by_cases hid : x.messageId = task.messageId
    · obtain rfl := inj_on_of_nodup_map hunique hx hrow (hid.trans hcommits.messageId)
      refine ⟨task, mem_map.mpr ⟨x, hx, if_pos hid⟩, hcommits.core, ?_⟩
      exact hcommits.revision ▸ Nat.le_succ _
    · exact ⟨x, mem_map.mpr ⟨x, hx, if_neg hid⟩, rfl, le_refl _⟩
  receipts message hmessage memberId idempotencyKey hid := by
    have hids := mem_ids_of_messages hnumber message hmessage
    rw [Pending.ids, mem_cons] at hids
    rcases hids with hnotice | hreceipt
    · exact absurd (hid.symm.trans hnotice) (hmade _)
    · rw [Pending.receipt] at hreceipt
      split at hreceipt
      · rw [Option.map_some, Option.toList_some, mem_singleton, hid] at hreceipt
        exact nomatch hinjective hreceipt
      · exact absurd hreceipt not_mem_nil
  next := rfl
  numbers := rfl
  distinct hold := by rwa [append_nil]
  nodup hold := by
    rcases pending_messages members digest p task noticeId with hnone | ⟨message, hone, -⟩
    · rw [hnone, append_nil]
      exact hold
    · refine nodup_of_fresh ?_ hold
      have hids := mem_ids_of_messages hnumber message (hone ▸ mem_singleton_self _)
      simp only [fresh, decide_eq_true_eq] at hfresh
      simp only [hone, fresh, map_singleton, mem_singleton, decide_eq_true_eq]
      refine ⟨nodup_singleton _, fun x hx heq => ?_, fun x hx heq => ?_⟩
      · exact hfresh.2.1 x hx (heq ▸ hids)
      · exact hfresh.2.2 x hx (heq ▸ hids)

@[simp] lemma createTask_core {member : Member} {assignee : Option Member}
    {description : Option String} {createsResource : Bool} {requestId : Option Uuid} {number : Nat}
    {row : NewTask} {now : Nat} :
    (createTask members agentReadableBody member assignee description createsResource requestId
      number row now).core = ⟨row.messageId, number, member.id, requestId⟩ := by
  simp only [createTask]
  split
  · rw [ensureTaskExecutionSession]
    split <;> rfl
  · rfl

/-- What the Tasks of a creation are known by. -/
def newCores (digest : RequestName → Uuid) (w : World) (member : Member) (command : CreateCommand)
    (rows : List NewTask) : List Core :=
  rows.mapIdx fun index row =>
    { messageId := row.messageId, number := w.nextTaskNumber + index, creatorMemberId := member.id
      requestId := some (indexedRequestId digest command.idempotencyKey index) }

section Creates

variable {member : Member} {command : CreateCommand} {assignee : Option Member}
  {rows : List NewTask} {noticeId : Uuid} {now : Nat}

lemma core_createdTasks :
    (createdTasks members agentReadableBody digest w member command assignee rows now).map
      Task.core = newCores digest w member command rows := by
  refine ext_getElem (by simp [createdTasks, newCores]) fun index hindex hindex' => ?_
  simp [createdTasks, newCores]

lemma mem_newCores {c : Core} (hlength : rows.length = command.titles.length)
    (h : c ∈ newCores digest w member command rows) :
    c.creatorMemberId = member.id ∧ ∃ requestId ∈ requestIds digest command,
      c.requestId = some requestId := by
  obtain ⟨index, hindex, rfl⟩ := mem_mapIdx.mp h
  refine ⟨rfl, _, mem_map.mpr ⟨index, mem_range.mpr (hlength ▸ hindex), rfl⟩, rfl⟩

lemma exists_newCore (hlength : rows.length = command.titles.length) {requestId : Uuid}
    (h : requestId ∈ requestIds digest command) :
    ∃ c ∈ newCores digest w member command rows, c.creatorMemberId = member.id ∧
      c.requestId = some requestId := by
  obtain ⟨index, hindex, rfl⟩ := mem_map.mp h
  rw [mem_range, ← hlength] at hindex
  exact ⟨_, mem_mapIdx.mpr ⟨index, hindex, rfl⟩, rfl, rfl⟩

lemma distinct_newCores (hlength : rows.length = command.titles.length)
    (hnodup : (requestIds digest command).Nodup) :
    (newCores digest w member command rows).Pairwise Core.Distinct := by
  rw [pairwise_iff_getElem]
  intro i j hi hj hij _ hsame
  simp only [newCores, length_mapIdx] at hi hj
  simp only [newCores, getElem_mapIdx, Option.some.injEq] at hsame
  have hinj := inj_on_of_nodup_map hnodup (mem_range.mpr (hlength ▸ hi))
    (mem_range.mpr (hlength ▸ hj)) hsame.2
  exact absurd hinj (by omega)

lemma zero_mem_requestIds (htitles : command.titles ≠ []) :
    command.idempotencyKey ∈ requestIds digest command :=
  mem_map.mpr ⟨0, mem_range.mpr (length_pos_of_ne_nil htitles), rfl⟩

lemma requestId_of_retried (h : w.retried digest member command = []) {c : Core}
    (hc : c ∈ w.cores) (hcreator : c.creatorMemberId = member.id) {requestId : Uuid}
    (hrequest : requestId ∈ requestIds digest command) : c.requestId ≠ some requestId := by
  obtain ⟨task, htask, rfl⟩ := mem_map.mp hc
  intro heq
  have hmem : task ∈ w.retried digest member command := by
    refine mem_filter.mpr ⟨htask, ?_⟩
    have heq : task.requestId = some requestId := heq
    have hcreator : task.creatorMemberId = member.id := hcreator
    simp [hcreator, heq, hrequest]
  rw [h] at hmem
  exact absurd hmem not_mem_nil

lemma grows_create
    (h : Creates members agentReadableBody digest w member command assignee rows noticeId now w')
    (hinjective : Function.Injective digest) (hmade : ∀ id ∈ noticeId :: rows.map NewTask.messageId,
      ∀ name, digest name ≠ id) : Grows digest w w' (newCores digest w member command rows)
      (createdMessages members digest member command assignee rows noticeId) where
  cores_eq := by rw [cores, h.tasks, map_append, core_createdTasks, cores]
  messages_eq := h.messages
  kept row hrow := ⟨row, h.tasks ▸ mem_append_left _ hrow, rfl, le_refl _⟩
  receipts message hmessage memberId idempotencyKey hid := by
    rcases mem_append.mp hmessage with hnew | hrest
    · obtain ⟨row, hrow, rfl⟩ := mem_map.mp hnew
      exact absurd hid.symm
        (hmade _ (mem_cons_of_mem _ (mem_map_of_mem hrow)) _)
    rcases mem_cons.mp hrest with rfl | hreceipt
    · exact absurd hid.symm (hmade _ mem_cons_self _)
    cases assignee with
    | none => exact absurd hreceipt not_mem_nil
    | some assignee =>
      rw [creationReceipt, Option.map_some, Option.toList_some, mem_singleton] at hreceipt
      subst hreceipt
      obtain ⟨rfl, rfl⟩ := RequestName.createReceipt.inj (hinjective hid)
      exact exists_newCore h.length (zero_mem_requestIds h.titles)
  next := by rw [h.next, newCores, length_mapIdx]
  numbers := by
    refine ext_getElem (by simp) fun index hindex hindex' => ?_
    simp [newCores]
  distinct hold := by
    rw [pairwise_append]
    refine ⟨hold, distinct_newCores h.length h.nodup, fun c hc c' hc' _ hsame => ?_⟩
    obtain ⟨hcreator, requestId, hrequest, heq⟩ := mem_newCores h.length hc'
    exact requestId_of_retried h.unretried hc (hsame.1.trans hcreator) hrequest (hsame.2.trans heq)
  nodup := nodup_of_fresh h.fresh

end Creates

/-- What every step adds. -/
theorem grows_of_step (hinjective : Function.Injective digest) (hmade : MadeUp digest event)
    (hsound : w.Sound members) (hrequests : w.Requests members agentReadableBody digest)
    (h : step members agentReadableBody digest w event = some w') :
    ∃ cores messages, Grows digest w w' cores messages := by
  obtain ⟨⟨reply, u⟩, hexecute, rfl⟩ := Option.map_eq_some_iff.mp h
  cases event with
  | create member command assignee duplicate rows noticeId now =>
    simp only [execute] at hexecute
    split_ifs at hexecute
    rcases create_spec (Option.some.inj hexecute) with ⟨rfl, -⟩ | ⟨hcreates, -⟩
    · exact ⟨_, _, Grows.of_same rfl rfl rfl⟩
    · exact ⟨_, _, grows_create hcreates hinjective hmade⟩
  | convert member row noticeId =>
    simp only [execute] at hexecute
    split_ifs at hexecute
    rcases convert_spec (Option.some.inj hexecute) with rfl | ⟨-, hfresh, rfl⟩
    · exact ⟨_, _, Grows.of_same rfl rfl rfl⟩
    · exact ⟨_, _, grows_insert rfl rfl hfresh (hmade _ mem_cons_self)⟩
  | claimMessage member row noticeId claimNoticeId now =>
    simp only [execute] at hexecute
    split_ifs at hexecute
    rcases claimMessage_spec hsound.unique (Option.some.inj hexecute) with
      rfl | ⟨hother, hfresh, task, write, hcommits, hids, rfl⟩
    · exact ⟨_, _, Grows.of_same rfl rfl rfl⟩
    · have hinsert : Grows digest w (w.insert (convertedTask members agentReadableBody w member row
          now) noticeId) _ _ := grows_insert rfl rfl hfresh (hmade _ mem_cons_self)
      refine ⟨_, _, hinsert.trans (grows_written hinjective ?_ ?_ hcommits ?_ hids ?_)⟩
      · simp only [World.insert, map_append, map_singleton, nodup_append]
        refine ⟨hsound.unique, nodup_singleton _, fun id hold id' hnew heq => ?_⟩
        obtain ⟨task, htask, rfl⟩ := mem_map.mp hold
        rw [mem_singleton, convertedTask_messageId] at hnew
        exact hother task htask (heq.trans hnew)
      · exact mem_append_right _ (mem_singleton_self _)
      · exact congrArg Core.number hcommits.core
      · exact hmade _ (mem_cons_of_mem _ mem_cons_self)
  | start member command resolved manager number =>
    simp only [execute] at hexecute
    split_ifs at hexecute
    rcases start_spec (Option.some.inj hexecute) with rfl | ⟨before, -, write, -, rfl⟩
    · exact ⟨_, _, Grows.of_same rfl rfl rfl⟩
    · exact ⟨_, _, Grows.of_same rfl rfl rfl⟩
  | finish index sessionId noticeId now =>
    simp only [execute] at hexecute
    cases hp : w.pending[index]? with
    | none =>
      rw [hp] at hexecute
      cases hexecute
    | some p =>
      simp only [hp] at hexecute
      split_ifs at hexecute
      have hmem := mem_of_getElem? hp
      have hleft : Grows digest w (w.leave index p) [] [] := Grows.of_same rfl rfl rfl
      have hunique : ((w.leave index p).tasks.map Task.messageId).Nodup := hsound.unique
      rcases commit_spec hunique (Option.some.inj hexecute) with
        ⟨rfl, -, -⟩ | ⟨-, ⟨agentId, hwrite⟩ | ⟨guard, data, row, hpasses, task, hcommits, rfl, -⟩⟩
      · exact ⟨_, _, hleft⟩
      · have hguarded := hsound.guarded p hmem
        rw [hwrite] at hguarded
        exact hguarded.elim
      · refine ⟨_, _, hleft.trans (grows_written hinjective hunique hpasses.mem hcommits ?_
          hpasses.ids (hmade _ mem_cons_self))⟩
        exact (congrArg Core.number hcommits.core).trans
          (hrequests.number_of_holds hsound.unique hmem hpasses.mem hpasses.holds)
  | abort index =>
    simp only [execute] at hexecute
    cases hp : w.pending[index]? with
    | none =>
      rw [hp] at hexecute
      cases hexecute
    | some p =>
      simp only [hp, Option.some.injEq, Prod.mk.injEq] at hexecute
      obtain ⟨-, rfl⟩ := hexecute
      exact ⟨_, _, Grows.of_same rfl rfl rfl⟩

/-- A step keeps what the ids say of the requests. -/
theorem World.Requests.step (hinjective : Function.Injective digest) (hmade : MadeUp digest event)
    (hsound : w.Sound members) (hrequests : w.Requests members agentReadableBody digest)
    (h : step members agentReadableBody digest w event = some w') :
    w'.Requests members agentReadableBody digest := by
  obtain ⟨cores, messages, hgrows⟩ := grows_of_step hinjective hmade hsound hrequests h
  have hpends := (moves_of_step hsound.unique h).2
  have hnew : ∀ c ∈ cores, w.nextTaskNumber ≤ c.number ∧ c.number < w'.nextTaskNumber := by
    intro c hc
    have hnumber := hgrows.numbers ▸ mem_map_of_mem (f := Core.number) hc
    rw [mem_range'_1] at hnumber
    rw [hgrows.next]
    exact hnumber
  constructor
  · rw [hgrows.cores_eq, pairwise_append]
    refine ⟨hrequests.numbers, ?_, fun c hc c' hc' => ?_⟩
    · have hpairwise : (cores.map Core.number).Pairwise (· < ·) :=
        hgrows.numbers ▸ pairwise_lt_range'
      exact pairwise_map.mp hpairwise
    · exact (hrequests.below c hc).trans_le (hnew c' hc').1
  · rw [hgrows.cores_eq]
    refine forall_mem_append.mpr ⟨fun c hc => ?_, fun c hc => (hnew c hc).2⟩
    have hbelow := hrequests.below c hc
    rw [hgrows.next]
    omega
  · rw [hgrows.cores_eq]
    exact hgrows.distinct hrequests.requests
  · rw [hgrows.messages_eq]
    exact hgrows.nodup hrequests.messages
  · rw [hgrows.messages_eq, hgrows.cores_eq]
    intro message hmessage memberId idempotencyKey hid
    rcases mem_append.mp hmessage with hmessage | hmessage
    · obtain ⟨c, hc, hcore⟩ := hrequests.receipts message hmessage memberId idempotencyKey hid
      exact ⟨c, mem_append_left _ hc, hcore⟩
    · obtain ⟨c, hc, hcore⟩ := hgrows.receipts message hmessage memberId idempotencyKey hid
      exact ⟨c, mem_append_right _ hc, hcore⟩
  · intro p hp
    rw [hgrows.cores_eq]
    rcases hpends p hp with hold | ⟨-, hbefore, -⟩
    · exact mem_append_left _ (hrequests.read p hold)
    · exact mem_append_left _ (mem_map_of_mem hbefore)
  · intro p hp
    rcases hpends p hp with hold | ⟨-, -, hdecide⟩
    · exact hrequests.decided p hold
    · exact hdecide

/-- What a run adds. -/
theorem grown_of_run (hinjective : Function.Injective digest) {events : List Event}
    (hmade : ∀ event ∈ events, MadeUp digest event) (hsound : w.Sound members)
    (hrequests : w.Requests members agentReadableBody digest)
    (hrun : run (step members agentReadableBody digest) w events = some w') :
    w'.Sound members ∧ w'.Requests members agentReadableBody digest ∧
      ∃ cores messages, Grown digest w w' cores messages := by
  induction events generalizing w with
  | nil =>
    cases hrun
    exact ⟨hsound, hrequests, [], [], Grown.refl⟩
  | cons event events ih =>
    obtain ⟨u, hu, hrest⟩ := run_cons_eq_some.mp hrun
    have hevent := hmade event mem_cons_self
    obtain ⟨cores, messages, hgrows⟩ := grows_of_step hinjective hevent hsound hrequests hu
    obtain ⟨hsound', hrequests', cores', messages', hgrown⟩ :=
      ih (fun x hx => hmade x (mem_cons_of_mem _ hx)) (hsound.step hu)
        (hrequests.step hinjective hevent hsound hu) hrest
    exact ⟨hsound', hrequests', _, _, hgrows.toGrown.trans hgrown⟩

/-! ### What a repetition finds -/

lemma receiptOf_eq_none {id : Uuid} (h : ∀ message ∈ w.messages, message.id ≠ id) :
    w.receiptOf id = none := by
  have hfind : w.messages.find? (·.id = id) = none := by
    rw [find?_eq_none]
    exact fun message hmessage => by simpa using h message hmessage
  rw [receiptOf, hfind]
  rfl

lemma receiptOf_eq_some (hnodup : (w.messages.map Message.id).Nodup) {message : Message}
    (hmessage : message ∈ w.messages) {mention : MessageMention}
    (hmention : message.mentions.head? = some mention) :
    w.receiptOf message.id = some (message.id, mention.handle) := by
  have hsingle : Join.Single w.messages (fun x => x.id = message.id) :=
    Join.single_of_key hnodup fun x _ hx => of_decide_eq_true hx
  have hfind : w.messages.find? (·.id = message.id) = some message :=
    (Join.find?_eq_some_iff hsingle).mpr ⟨hmessage, by simp⟩
  rw [receiptOf, hfind, Option.bind_some, hmention, Option.map_some]

lemma World.Requests.ascending (h : w.Requests members agentReadableBody digest) :
    w.tasks.Pairwise fun task task' => task.number < task'.number := by
  have hnumbers := h.numbers
  rw [cores, pairwise_map] at hnumbers
  exact hnumbers

lemma find?_number (h : w.Requests members agentReadableBody digest)
    (htask : task ∈ w.tasks) {number : Nat} (hnumber : task.number = number) :
    w.tasks.find? (·.number = number) = some task := by
  have hpairwise : (w.tasks.map Task.number).Pairwise (· < ·) := pairwise_map.mpr h.ascending
  have hsingle : Join.Single w.tasks (fun x => x.number = number) :=
    Join.single_of_key hpairwise.nodup fun x _ hx => of_decide_eq_true hx
  exact (Join.find?_eq_some_iff hsingle).mpr ⟨htask, by simpa using hnumber⟩

lemma core_retried {member : Member} {command : CreateCommand} :
    (w.retried digest member command).map Task.core = w.cores.filter fun c =>
      c.creatorMemberId = member.id ∧ c.requestId.any (· ∈ requestIds digest command) := by
  rw [retried, cores, filter_map]
  rfl

lemma core_retried_of_grown {v : World} {member : Member} {command : CreateCommand}
    {rows : List NewTask} {cores : List Core} {messages : List Message}
    (hunretried : w.retried digest member command = [])
    (hlength : rows.length = command.titles.length)
    (hw' : w'.cores = w.cores ++ newCores digest w member command rows)
    (hgrown : Grown digest w' v cores messages)
    (hrequests : v.Requests members agentReadableBody digest) :
    (v.retried digest member command).map Task.core = newCores digest w member command rows := by
  have hdistinct := hrequests.requests
  rw [hgrown.cores_eq, hw'] at hdistinct
  rw [core_retried, hgrown.cores_eq, hw', filter_append, filter_append]
  have hold : (w.cores.filter fun c => c.creatorMemberId = member.id ∧
      c.requestId.any (· ∈ requestIds digest command)) = [] := by
    rw [← core_retried, hunretried, map_nil]
  have hnew : ((newCores digest w member command rows).filter fun c =>
      c.creatorMemberId = member.id ∧ c.requestId.any (· ∈ requestIds digest command)) =
        newCores digest w member command rows := by
    rw [filter_eq_self]
    intro c hc
    obtain ⟨hcreator, requestId, hrequest, heq⟩ := mem_newCores hlength hc
    simp [hcreator, heq, hrequest]
  have hlater : (cores.filter fun c => c.creatorMemberId = member.id ∧
      c.requestId.any (· ∈ requestIds digest command)) = [] := by
    rw [filter_eq_nil_iff]
    intro c hc hfound
    simp only [decide_eq_true_eq, Option.any_eq_true] at hfound
    obtain ⟨hcreator, requestId, heq, hrequest⟩ := hfound
    obtain ⟨c', hc', hcreator', heq'⟩ := @exists_newCore _ w member _ _ hlength _ hrequest
    refine (pairwise_append.mp hdistinct).2.2 c' (mem_append_right _ hc') c hc ?_
      ⟨hcreator'.trans hcreator.symm, heq'.trans heq.symm⟩
    rw [heq']
    exact Option.some_ne_none _
  rw [hold, hnew, hlater, nil_append, append_nil]

end Requests

/-! ### The answer to a repetition -/

/-- An event that commits a creation or an assignment, and a later attempt of the same command by
the same member under the same key. -/
inductive Repeats (u : World) : Event → Event → Prop
  | create {member member' : Member} {command : CreateCommand} {assignee assignee' : Option Member}
      {duplicate duplicate' : Bool} {rows rows' : List NewTask} {noticeId noticeId' : Uuid}
      {now now' : Nat} (hmember : member'.id = member.id) :
      Repeats u (.create member command assignee duplicate rows noticeId now)
        (.create member' command assignee' duplicate' rows' noticeId' now')
  | assign {index : Nat} {sessionId noticeId : Uuid} {now : Nat} {p : Pending} {member' : Member}
      {assignee : Option String} {expectedRevision : Option Nat} {idempotencyKey : Uuid}
      {resolved' : Option Member} {manager' : Bool} {number : Nat} (hp : u.pending[index]? = some p)
      (hcommand : p.command = .assign assignee expectedRevision idempotencyKey)
      (hnumber : p.before.number = number) (hmember : member'.id = p.member.id) :
      Repeats u (.finish index sessionId noticeId now)
        (.start member' (.assign assignee expectedRevision idempotencyKey) resolved' manager' number)

/-- A repetition is recognised, unless it assigns the Task to nobody: then only where the Task has
no owner, the command expects no revision, and no other command left a receipt under its key. -/
def Recognised (digest : RequestName → Uuid) (v : World) : Event → Prop
  | .start member (.assign none expectedRevision idempotencyKey) _ _ number =>
    expectedRevision = none ∧
      v.receiptOf (assignReceiptId digest member number idempotencyKey) = none ∧
        ∀ task ∈ v.tasks, task.number = number → task.ownerMemberId = none
  | _ => True

section Repeated

variable {members : Uuid → Actor} {agentReadableBody : BodyReader} {digest : RequestName → Uuid}
  {u u' v : World} {cores : List Core} {messages : List Message} {result : TaskResult}

/-- The receipt of a creation that went through, if it has an assignee, is the only one under its
key. -/
lemma receiptOf_creation {member : Member} {command : CreateCommand} {assignee : Option Member}
    {rows : List NewTask} {noticeId : Uuid} {now : Nat}
    (hbefore : u.Requests members agentReadableBody digest)
    (hcreates : Creates members agentReadableBody digest u member command assignee rows noticeId now
      u')
    (hmade : ∀ id ∈ noticeId :: rows.map NewTask.messageId, ∀ name, digest name ≠ id)
    (hgrown : Grown digest u' v cores messages)
    (hv : v.Requests members agentReadableBody digest) :
    v.receiptOf (createReceiptId digest member command.idempotencyKey) =
      assignee.map fun assignee =>
        (createReceiptId digest member command.idempotencyKey, assignee.handle) := by
  have hmessages := hgrown.messages_eq
  rw [hcreates.messages] at hmessages
  have hkey : command.idempotencyKey ∈ requestIds digest command :=
    zero_mem_requestIds hcreates.titles
  cases assignee with
  | some assignee =>
    have hmem : assignmentReceipt members (createReceiptId digest member command.idempotencyKey)
        assignee member ∈ v.messages := by
      rw [hmessages]
      refine mem_append_left _ (mem_append_right _ (mem_append_right _ ?_))
      exact mem_cons_of_mem _ (mem_singleton_self _)
    exact receiptOf_eq_some hv.messages hmem rfl
  | none =>
    refine receiptOf_eq_none fun message hmessage hid => ?_
    rw [hmessages] at hmessage
    rcases mem_append.mp hmessage with hmessage | hlater
    · rcases mem_append.mp hmessage with hold | hcreated
      · obtain ⟨c, hc, hcreator, hrequest⟩ := hbefore.receipts message hold _ _ hid
        exact requestId_of_retried hcreates.unretried hc hcreator hkey hrequest
      · have hmadeUp : message.id ∈ noticeId :: rows.map NewTask.messageId := by
          rcases mem_append.mp hcreated with hnew | hnotice
          · obtain ⟨row, hrow, rfl⟩ := mem_map.mp hnew
            exact mem_cons_of_mem _ (mem_map_of_mem hrow)
          · rw [mem_singleton.mp hnotice]
            exact mem_cons_self
        exact hmade _ hmadeUp _ hid.symm
    · obtain ⟨c, hc, hcreator, hrequest⟩ := hgrown.receipts message hlater _ _ hid
      obtain ⟨c', hc', hcreator', hrequest'⟩ :=
        @exists_newCore _ u member _ _ hcreates.length _ hkey
      have hdistinct := hv.requests
      rw [hgrown.cores_eq, World.cores, hcreates.tasks, map_append, core_createdTasks]
        at hdistinct
      refine (pairwise_append.mp hdistinct).2.2 c' (mem_append_right _ hc') c hc ?_
        ⟨hcreator'.trans hcreator.symm, hrequest'.trans hrequest.symm⟩
      rw [hrequest']
      exact Option.some_ne_none _

lemma create_again {member member' : Member} {command : CreateCommand}
    {assignee assignee' : Option Member} {duplicate' : Bool} {rows rows' : List NewTask}
    {noticeId noticeId' : Uuid} {now now' : Nat} (hmember : member'.id = member.id)
    (hbefore : u.Requests members agentReadableBody digest)
    (hcreates : Creates members agentReadableBody digest u member command assignee rows noticeId now
      u') (hmade : ∀ id ∈ noticeId :: rows.map NewTask.messageId, ∀ name, digest name ≠ id)
    (hgrown : Grown digest u' v cores messages) (hv : v.Requests members agentReadableBody digest) :
    v.create members agentReadableBody digest member' command assignee' duplicate' rows' noticeId'
        now' = (.answered {
          tasks := rows.map NewTask.messageId
          receipt := assignee.map fun assignee =>
            (createReceiptId digest member command.idempotencyKey, assignee.handle)
          changed := false }, v) := by
  have hcores : u'.cores = u.cores ++ newCores digest u member command rows := by
    rw [World.cores, hcreates.tasks, map_append, core_createdTasks, World.cores]
  have hretried : v.retried digest member' command = v.retried digest member command := by
    rw [retried, retried, hmember]
  have hfound := core_retried_of_grown hcreates.unretried hcreates.length hcores hgrown hv
  have hlength : (v.retried digest member command).length = command.titles.length := by
    rw [← hcreates.length, ← length_map (f := Task.core), hfound, newCores, length_mapIdx]
  have hsorted : (v.retried digest member command).mergeSort
      (fun task task' => task.number ≤ task'.number) = v.retried digest member command := by
    refine mergeSort_of_pairwise ?_
    exact (hv.ascending.sublist filter_sublist).imp fun hlt => decide_eq_true hlt.le
  have hids : (v.retried digest member command).map Task.messageId = rows.map NewTask.messageId := by
    have hcomp : Task.messageId = Core.messageId ∘ Task.core := rfl
    rw [hcomp, ← map_map, hfound]
    refine ext_getElem (by simp [newCores]) fun index hindex hindex' => ?_
    simp [newCores]
  have hreceipt : v.receiptOf (createReceiptId digest member' command.idempotencyKey) =
      assignee.map fun assignee =>
        (createReceiptId digest member command.idempotencyKey, assignee.handle) := by
    have hsame : createReceiptId digest member' = createReceiptId digest member := by
      funext idempotencyKey
      rw [createReceiptId, createReceiptId, hmember]
    rw [hsame]
    exact receiptOf_creation hbefore hcreates hmade hgrown hv
  have hsome : v.retried digest member command ≠ [] := by
    refine ne_nil_of_length_pos ?_
    rw [hlength]
    exact length_pos_of_ne_nil hcreates.titles
  simp only [create]
  rw [if_neg hcreates.titles, hretried, if_pos hsome, if_neg (not_not.mpr hlength), hsorted, hids,
    hreceipt]

/-- An assignment to nobody decides to write nothing only where the Task has no owner, and where it
expects no revision but that of the Task. -/
lemma assign_none_eq_ok_none {member : Member} {expectedRevision : Option Nat} {row : Task} :
    TaskBoard.assign members member none expectedRevision row = .ok none ↔
      row.ownerMemberId = none ∧ TaskBoard.stale expectedRevision row = false := by
  cases howner : row.ownerMemberId with
  | none =>
    by_cases hstale : TaskBoard.stale expectedRevision row <;>
      simp [TaskBoard.assign, TaskBoard.requiresHuman, howner, hstale]
  | some owner =>
    simp only [TaskBoard.assign, howner]
    split_ifs <;> simp_all

/-- What the repetition of an assignment reads, on a board that has kept the Task and its messages. -/
lemma assign_again {p : Pending} {task : Task} {noticeId : Uuid} {assignee : Option String}
    {expectedRevision : Option Nat} {idempotencyKey : Uuid} {member' : Member}
    {resolved' : Option Member} {manager' : Bool}
    (hcommand : p.command = .assign assignee expectedRevision idempotencyKey)
    (hmember : member'.id = p.member.id) (hnumber : task.number = p.before.number)
    (hrevision : p.before.revision < task.revision)
    (hdecided : ∃ manager, p.command.decide members agentReadableBody p.member p.resolved manager
      p.before = .ok (some p.write))
    (hmessages : p.messages members digest task noticeId ⊆ v.messages)
    (hkept : ∃ row ∈ v.tasks, row.core = task.core ∧ task.revision ≤ row.revision)
    (hv : v.Requests members agentReadableBody digest) :
    v.start members agentReadableBody digest member' p.command resolved' manager' p.before.number =
        (.answered { tasks := [task.messageId], receipt := p.receipt digest, changed := false }, v) ↔
      Recognised digest v (.start member' p.command resolved' manager' p.before.number) := by
  obtain ⟨row, hrow, hcore, hlater⟩ := hkept
  have hid : row.messageId = task.messageId := congrArg Core.messageId hcore
  have hfind : v.tasks.find? (·.number = p.before.number) = some row :=
    find?_number hv hrow ((congrArg Core.number hcore).trans hnumber)
  have hsame : assignReceiptId digest member' p.before.number idempotencyKey =
      assignReceiptId digest p.member p.before.number idempotencyKey := by
    rw [assignReceiptId, assignReceiptId, hmember]
  cases assignee with
  | some assignee =>
    obtain ⟨manager, hdecide⟩ := hdecided
    rw [hcommand] at hdecide ⊢
    cases hresolved : p.resolved with
    | none => simp [Command.decide, hresolved] at hdecide
    | some resolved =>
      have hmem : assignmentReceipt members (assignReceiptId digest p.member task.number
          idempotencyKey) resolved p.member ∈ v.messages := by
        refine hmessages ?_
        rw [Pending.messages, hcommand, hresolved]
        exact mem_singleton_self _
      have hreceipt := receiptOf_eq_some hv.messages hmem rfl
      simp only [assignmentReceipt, hnumber] at hreceipt
      refine iff_of_true ?_ trivial
      simp [start, receiptFound, hsame, hreceipt, hfind, hid, Pending.receipt, hcommand, hresolved]
  | none =>
    have hnoreceipt : p.receipt digest = none := by rw [Pending.receipt, hcommand]
    have howner : (∀ task ∈ v.tasks, task.number = p.before.number → task.ownerMemberId = none) ↔
        row.ownerMemberId = none := by
      refine ⟨fun h => h row hrow ((congrArg Core.number hcore).trans hnumber), ?_⟩
      intro h x hx hxnumber
      have hx' := find?_number hv hx hxnumber
      rw [hfind] at hx'
      exact Option.some.inj hx' ▸ h
    -- The Task has moved on from the revision that the command expected.
    have hstale : TaskBoard.stale expectedRevision row = false ↔ expectedRevision = none := by
      obtain ⟨manager, hdecide⟩ := hdecided
      cases expectedRevision with
      | none => simp [TaskBoard.stale]
      | some revision =>
        have hread : revision = p.before.revision := by
          rw [hcommand] at hdecide
          by_contra hne
          simp [Command.decide, TaskBoard.assign, TaskBoard.stale, hne] at hdecide
          split_ifs at hdecide
        simp only [TaskBoard.stale, Option.any_some, bne_eq_false_iff_eq, reduceCtorEq, iff_false]
        omega
    rw [hnoreceipt, hcommand, Recognised, howner]
    cases hreceipt : v.receiptOf (assignReceiptId digest member' p.before.number idempotencyKey) with
    | some receipt => simp [start, receiptFound, hreceipt]
    | none =>
      have hdecide : (Command.assign none expectedRevision idempotencyKey).decide members
          agentReadableBody member' resolved' manager' row =
            TaskBoard.assign members member' none expectedRevision row := rfl
      simp only [start, receiptFound, hreceipt, hfind, hdecide, true_and]
      rw [← hstale, and_comm, ← @assign_none_eq_ok_none members member']
      split <;> simp_all

/-- A create or assign command that took effect answers a later attempt as it did the first, and the
attempt changes nothing, exactly when the attempt is recognised. -/
theorem repeated_takes_effect_once {before between : List Event} {first again : Event}
    (hinjective : Function.Injective digest)
    (hmade : ∀ event ∈ before ++ first :: between, MadeUp digest event)
    (hbefore : run (step members agentReadableBody digest) World.empty before = some u)
    (hfirst : execute members agentReadableBody digest u first = some (.answered result, u'))
    (hchanged : result.changed)
    (hbetween : run (step members agentReadableBody digest) u' between = some v)
    (hrepeats : Repeats u first again)
    (hunlocked : (execute members agentReadableBody digest v again).isSome) :
    execute members agentReadableBody digest v again =
        some (.answered { result with changed := false }, v) ↔ Recognised digest v again := by
  have hmade' := forall_mem_append.mp hmade
  obtain ⟨hmadeFirst, hmadeBetween⟩ := forall_mem_cons.mp hmade'.2
  obtain ⟨hsound, hrequests, -⟩ := grown_of_run hinjective hmade'.1
    (@World.sound_empty members) requests_empty hbefore
  have hstep : step members agentReadableBody digest u first = some u' := by
    rw [step, hfirst, Option.map_some]
  obtain ⟨-, hv, cores, messages, hgrown⟩ := grown_of_run hinjective hmadeBetween
    (hsound.step hstep) (hrequests.step hinjective hmadeFirst hsound hstep) hbetween
  cases hrepeats with
  | create hmember =>
    simp only [execute] at hfirst hunlocked ⊢
    split_ifs at hfirst
    have hfree : ¬v.locked := fun hlocked => by simp [hlocked] at hunlocked
    rw [if_neg hfree]
    rcases create_spec (Option.some.inj hfirst) with ⟨-, hunchanged⟩ | ⟨hcreates, hanswer⟩
    · exact absurd hchanged (by simp [hunchanged result rfl])
    · rw [Reply.answered.inj hanswer]
      exact iff_of_true
        (congrArg some (create_again hmember hrequests hcreates hmadeFirst hgrown hv)) trivial
  | assign hp hcommand hread hmember =>
    subst hread
    rename_i index _ noticeId _ p _ _ _ _ _ _
    have hmem := mem_of_getElem? hp
    simp only [execute, hp] at hfirst
    split_ifs at hfirst
    simp only [execute] at hunlocked ⊢
    rw [← hcommand] at hunlocked ⊢
    have hfree : ¬(v.locked ∧ p.command.locks) := fun hlocked => by
      rw [if_pos hlocked] at hunlocked
      cases hunlocked
    rw [if_neg hfree]
    have hunique : ((u.leave index p).tasks.map Task.messageId).Nodup := hsound.unique
    rcases commit_spec hunique (Option.some.inj hfirst) with
      ⟨-, hnone, -⟩ | ⟨-, ⟨agentId, hwrite⟩ | ⟨guard, data, row, hpasses, task, hcommits, rfl, hanswer⟩⟩
    · exact absurd rfl (hnone result)
    · have hguarded := hsound.guarded p hmem
      rw [hwrite] at hguarded
      exact hguarded.elim
    have hnumber : task.number = p.before.number := (congrArg Core.number hcommits.core).trans
      (hrequests.number_of_holds hsound.unique hmem hpasses.mem hpasses.holds)
    have hrevision : p.before.revision < task.revision := by
      rw [hcommits.revision]
      exact Nat.lt_succ_of_le
        (hsound.advances p hmem row hpasses.mem (holds_messageId hpasses.holds)).1
    have hwritten : task ∈ ((u.leave index p).written members digest p task noticeId).tasks :=
      mem_map.mpr ⟨row, hpasses.mem, if_pos hcommits.messageId.symm⟩
    have hmessages : p.messages members digest task noticeId ⊆ v.messages := by
      rw [hgrown.messages_eq]
      exact fun _ h => mem_append_left _ (mem_append_right _ h)
    rw [Reply.answered.inj hanswer, Option.some_inj]
    exact assign_again hcommand hmember hnumber hrevision (hrequests.decided p hmem) hmessages
      (hgrown.kept task hwritten) hv

end Repeated

section Examples

/-- The ids of requests, all odd: no two names have the same, and no even id is one. -/
def oddDigest : RequestName → Uuid
  | .task requestId index => 2 * Nat.pair 0 (Nat.pair requestId index) + 1
  | .createReceipt memberId idempotencyKey => 2 * Nat.pair 1 (Nat.pair memberId idempotencyKey) + 1
  | .assignReceipt memberId number idempotencyKey =>
    2 * Nat.pair 2 (Nat.pair memberId (Nat.pair number idempotencyKey)) + 1

lemma oddDigest_injective : Function.Injective oddDigest := by
  intro name name' h
  have hdouble : ∀ m n : Nat, 2 * m = 2 * n ↔ m = n := fun m n => by omega
  cases name <;> cases name' <;> simp_all [oddDigest, Nat.pair_eq_pair]

lemma oddDigest_odd (name : RequestName) : oddDigest name % 2 = 1 := by
  cases name <;> simp [oddDigest, Nat.add_mod]

lemma madeUp_of_even {event : Event} (h : ∀ id ∈ event.madeUp, id % 2 = 0) :
    MadeUp oddDigest event := by
  intro id hid name heq
  have hodd := oddDigest_odd name
  rw [heq, h id hid] at hodd
  exact nomatch hodd

/-- The first Agent claims the Task of a person, who then assigns it to nobody. -/
def setAside : List Event :=
  [.create person ⟨["task"], none, false, none, 40⟩ none false [⟨10, 20, "task", [], []⟩] 12 100,
    .start firstAgent .claim none false 1, .finish 0 22 14 110,
    .start person (.assign none none 42) none false 1]

/-- The commit of that assignment. -/
def setAsideDone : Event := .finish 0 24 16 120

/-- The same assignment, attempted again. -/
def setAsideAgain : Event := .start person (.assign none none 42) none false 1

/-- Once the second Agent has claimed the Task, the same assignment takes it away again, and posts
another notice. -/
theorem late_assignment_takes_effect_again :
    ∃ u u' v v' result, run (step crew plainBody oddDigest) World.empty setAside = some u ∧
      execute crew plainBody oddDigest u setAsideDone = some (.answered result, u') ∧
      result.changed ∧ Repeats u setAsideDone setAsideAgain ∧ run (step crew plainBody oddDigest) u'
        [.start secondAgent .claim none false 1, .finish 0 26 18 130] = some v ∧
      v.tasks.map Task.ownerMemberId = [some secondAgent.id] ∧
      run (step crew plainBody oddDigest) v [setAsideAgain, .finish 0 28 20 140] = some v' ∧
      v'.tasks.map Task.ownerMemberId = [none] ∧ v'.messages.length = v.messages.length + 1 :=
  ⟨_, _, _, _, _, rfl, rfl, rfl, .assign rfl rfl rfl rfl, rfl, rfl, rfl, rfl, rfl⟩

/-- An attempt right after the first finds the Task without an owner. -/
theorem prompt_assignment_is_recognised :
    ∃ u u' result, run (step crew plainBody oddDigest) World.empty setAside = some u ∧
      execute crew plainBody oddDigest u setAsideDone = some (.answered result, u') ∧
      execute crew plainBody oddDigest u' setAsideAgain =
        some (.answered { result with changed := false }, u') := by
  have hmade : ∀ event ∈ setAside ++ [setAsideDone], MadeUp oddDigest event :=
    fun event hevent => madeUp_of_even ((by decide : ∀ event ∈ setAside ++ [setAsideDone],
      ∀ id ∈ event.madeUp, id % 2 = 0) event hevent)
  refine ⟨_, _, _, rfl, rfl, ?_⟩
  have honce := @repeated_takes_effect_once crew plainBody oddDigest _ _ _ _ setAside []
    setAsideDone setAsideAgain oddDigest_injective hmade rfl rfl rfl rfl (.assign rfl rfl rfl rfl) rfl
  refine honce.mpr ⟨rfl, rfl, ?_⟩
  decide

end Examples

end Coforge.Tasks
