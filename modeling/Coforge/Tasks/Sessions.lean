import Coforge.Lib.Newest
import Coforge.Tasks.Task
import Mathlib

/-!
# The execution sessions of a Task

A write that changes a Task's owner or status cancels, completes, restarts or creates execution
sessions. Where the sessions follow the owner before the write, they do after it exactly if an
Agent is given unfinished Tasks only, and its session is the newest.
-/

namespace Coforge.Tasks

open List

/-- The uniqueness constraints on the sessions of one Task. -/
structure Task.Keys (t : Task) : Prop where
  id : (t.sessions.map TaskExecutionSession.id).Nodup
  agentId : (t.sessions.map TaskExecutionSession.agentId).Nodup

/-- The sessions that `taskSelection` may read first, and the view then names. -/
def Task.executionSessions (t : Task) : List TaskExecutionSession :=
  t.sessions.newest TaskExecutionSession.createdAt

/-! ### Sessions -/

/-- `updateMany` on the sessions of the Task. -/
def Task.updateSessions (t : Task) (which : TaskExecutionSession → Bool)
    (f : TaskExecutionSession → TaskExecutionSession) : Task :=
  { t with sessions := t.sessions.map fun s => if which s then f s else s }

def TaskExecutionSession.finish (now : Nat) (status : SessionStatus) (s : TaskExecutionSession) :
    TaskExecutionSession :=
  { s with status, finishedAt := some now }

def TaskExecutionSession.restart (s : TaskExecutionSession) : TaskExecutionSession :=
  { s with status := .starting, attempt := s.attempt + 1, finishedAt := none }

def ensureTaskExecutionSession (now : Nat) (id agentId : Uuid) (task : Task) : Task :=
  match task.sessions.find? fun s => s.agentId = agentId with
  | some existing =>
    task.updateSessions (fun s => s.id = existing.id) fun s =>
      if existing.status.ended then s.restart else s
  | none =>
    { task with
      sessions := task.sessions ++
        [{ id, agentId, status := .starting, attempt := 1, finishedAt := none, createdAt := now }] }

/-! ### What a write does to the sessions -/

/-- The sessions of an Agent the Task was taken from are cancelled. -/
def releaseSessions (members : Uuid → Actor) (now : Nat) (before task : Task) : Task :=
  match before.ownerAgentId members with
  | some agentId =>
    if before.ownerMemberId ≠ task.ownerMemberId then
      task.updateSessions (fun s => s.agentId = agentId ∧ s.status.active) (·.finish now .cancelled)
    else task
  | none => task

/-- The sessions of a finished Task are completed. -/
def finishSessions (now : Nat) (task : Task) : Task :=
  if task.status.finished then
    task.updateSessions (fun s => s.status.active) (·.finish now .completed)
  else task

/-- An Agent the Task was handed to has a session. -/
def takeSession (members : Uuid → Actor) (now id : Nat) (before task : Task) : Task :=
  match task.ownerAgentId members with
  | some agentId =>
    if task.ownerMemberId ≠ before.ownerMemberId then
      ensureTaskExecutionSession now id agentId task
    else task
  | none => task

/-! ### Sessions that follow the owner -/

/-- The active sessions are the owner's, a finished Task has none, and the session the view of an
Agent's Task names is that Agent's. -/
structure Task.Follows (members : Uuid → Actor) (t : Task) : Prop where
  owned : ∀ s ∈ t.sessions, s.status.active → t.ownerAgentId members = some s.agentId
  stopped : t.status.finished → ∀ s ∈ t.sessions, ¬s.status.active
  named : ∀ agentId, t.ownerAgentId members = some agentId →
    t.executionSessions ≠ [] ∧ ∀ s ∈ t.executionSessions, s.agentId = agentId

/-- The creation time of the session that `ensureTaskExecutionSession` gives an Agent: that of the
session the Agent has, if it has one. -/
def Task.standing (t : Task) (now : Nat) (agentId : Uuid) : Nat :=
  (t.sessions.find? fun s => s.agentId = agentId).elim now TaskExecutionSession.createdAt

/-- The session that the Agent would have is newer than those of all others. -/
def Task.Leads (t : Task) (now : Nat) (agentId : Uuid) : Prop :=
  ∀ s ∈ t.sessions, s.agentId ≠ agentId → s.createdAt < t.standing now agentId

instance {t : Task} {now agentId : Nat} : Decidable (t.Leads now agentId) :=
  inferInstanceAs (Decidable (∀ s ∈ t.sessions, _))

section Sessions

variable {members : Uuid → Actor} {now id agentId : Nat} {t before row : Task}
  {which : TaskExecutionSession → Bool} {f : TaskExecutionSession → TaskExecutionSession}

/-- A write that leaves alone what identifies a session and when it was created. -/
def InPlace (f : TaskExecutionSession → TaskExecutionSession) : Prop :=
  ∀ s, (f s).id = s.id ∧ (f s).agentId = s.agentId ∧ (f s).createdAt = s.createdAt

lemma inPlace_finish {status : SessionStatus} : InPlace (·.finish now status) :=
  fun _ => ⟨rfl, rfl, rfl⟩

lemma inPlace_restart {ended : Bool} : InPlace fun s => if ended then s.restart else s := by
  intro s
  cases ended <;> exact ⟨rfl, rfl, rfl⟩

lemma InPlace.ite (hf : InPlace f) : InPlace fun s => if which s then f s else s := by
  intro s
  simp only
  split_ifs
  · exact hf s
  · exact ⟨rfl, rfl, rfl⟩

/-- The Task with its sessions rewritten. -/
def Task.rewrite (t : Task) (f : TaskExecutionSession → TaskExecutionSession) : Task :=
  { t with sessions := t.sessions.map f }

lemma Task.Keys.rewrite (h : t.Keys) (hf : InPlace f) : (t.rewrite f).Keys := by
  constructor
  · simpa [Task.rewrite, Function.comp_def, (hf _).1] using h.id
  · simpa [Task.rewrite, Function.comp_def, (hf _).2.1] using h.agentId

lemma executionSessions_rewrite (hf : InPlace f) :
    (t.rewrite f).executionSessions = t.executionSessions.map f :=
  newest_map fun s => (hf s).2.2

lemma standing_rewrite (hf : InPlace f) :
    (t.rewrite f).standing now agentId = t.standing now agentId := by
  rw [Task.standing, Task.rewrite, find?_map]
  simp only [Function.comp_def, (hf _).2.1]
  rw [Task.standing]
  cases t.sessions.find? fun s => s.agentId = agentId with
  | none   => rfl
  | some s => exact (hf s).2.2

lemma leads_rewrite (hf : InPlace f) : (t.rewrite f).Leads now agentId ↔ t.Leads now agentId := by
  rw [Task.Leads, standing_rewrite hf, Task.rewrite, forall_mem_map]
  simp only [(hf _).2.1, (hf _).2.2]
  rfl

/-! ### The session of a new owner -/

/-- The session `ensureTaskExecutionSession` leaves the Agent with. -/
def Task.sessionFor (t : Task) (now id agentId : Nat) : TaskExecutionSession :=
  match t.sessions.find? fun s => s.agentId = agentId with
  | some existing => if existing.status.ended then existing.restart else existing
  | none =>
    { id, agentId, status := .starting, attempt := 1, finishedAt := none, createdAt := now }

lemma sessionFor_agentId : (t.sessionFor now id agentId).agentId = agentId := by
  rw [Task.sessionFor]
  cases hfind : t.sessions.find? fun s => s.agentId = agentId with
  | none   => rfl
  | some s =>
    have hs : s.agentId = agentId := by simpa using find?_some hfind
    exact (inPlace_restart s).2.1.trans hs

lemma sessionFor_createdAt : (t.sessionFor now id agentId).createdAt = t.standing now agentId := by
  rw [Task.sessionFor, Task.standing]
  cases t.sessions.find? fun s => s.agentId = agentId with
  | none   => rfl
  | some s => exact (inPlace_restart s).2.2

lemma sessionFor_active : (t.sessionFor now id agentId).status.active := by
  rw [Task.sessionFor]
  cases t.sessions.find? fun s => s.agentId = agentId with
  | none   => rfl
  | some s =>
    cases hs : s.status <;>
      simp [hs, SessionStatus.ended, TaskExecutionSession.restart, SessionStatus.active]

lemma mem_ensure (h : t.Keys) {s : TaskExecutionSession} :
    s ∈ (ensureTaskExecutionSession now id agentId t).sessions ↔
      s = t.sessionFor now id agentId ∨ s ∈ t.sessions ∧ s.agentId ≠ agentId := by
  rw [ensureTaskExecutionSession, Task.sessionFor]
  cases hfind : t.sessions.find? fun s => s.agentId = agentId with
  | none =>
    have hother : ∀ s ∈ t.sessions, s.agentId ≠ agentId := by
      simpa using find?_eq_none.mp hfind
    simp only [mem_append, mem_singleton]
    rw [or_comm]
    exact or_congr_right ⟨fun hs => ⟨hs, hother s hs⟩, And.left⟩
  | some existing =>
    have hmem := mem_of_find?_eq_some hfind
    have hagent : existing.agentId = agentId := by simpa using find?_some hfind
    -- A session is the existing one exactly if it has its id, or its Agent.
    have hkeys : ∀ x ∈ t.sessions, x.id = existing.id ↔ x.agentId = agentId := by
      intro x hx
      constructor
      · intro hid
        rw [inj_on_of_nodup_map h.id hx hmem hid, hagent]
      · intro hsame
        rw [inj_on_of_nodup_map h.agentId hx hmem (hsame.trans hagent.symm)]
    simp only [Task.updateSessions, mem_map, decide_eq_true_eq]
    constructor
    · rintro ⟨x, hx, rfl⟩
      by_cases hid : x.id = existing.id
      · left
        rw [if_pos hid, inj_on_of_nodup_map h.id hx hmem hid]
      · right
        rw [if_neg hid]
        exact ⟨hx, mt (hkeys x hx).mpr hid⟩
    · rintro (rfl | ⟨hs, hother⟩)
      · exact ⟨existing, hmem, if_pos rfl⟩
      · exact ⟨s, hs, if_neg (mt (hkeys s hs).mp hother)⟩

lemma Task.Keys.ensure (h : t.Keys) (hid : ∀ s ∈ t.sessions, s.id ≠ id) :
    (ensureTaskExecutionSession now id agentId t).Keys := by
  rw [ensureTaskExecutionSession]
  cases hfind : t.sessions.find? fun s => s.agentId = agentId with
  | some existing => exact h.rewrite inPlace_restart.ite
  | none =>
    have hother : ∀ s ∈ t.sessions, s.agentId ≠ agentId := by
      simpa using find?_eq_none.mp hfind
    constructor
    · simpa [nodup_append] using ⟨h.id, hid⟩
    · simpa [nodup_append] using ⟨h.agentId, hother⟩

/-- No session is active. -/
def Task.Idle (t : Task) : Prop := ∀ s ∈ t.sessions, ¬s.status.active

@[simp] lemma ensure_ownerMemberId :
    (ensureTaskExecutionSession now id agentId t).ownerMemberId = t.ownerMemberId := by
  rw [ensureTaskExecutionSession]
  split <;> rfl

@[simp] lemma ensure_status : (ensureTaskExecutionSession now id agentId t).status = t.status := by
  rw [ensureTaskExecutionSession]
  split <;> rfl

lemma follows_ensure (h : t.Keys) (howner : t.ownerAgentId members = some agentId)
    (hidle : t.Idle) : (ensureTaskExecutionSession now id agentId t).Follows members ↔
      ¬t.status.finished ∧ t.Leads now agentId := by
  set s := t.sessionFor now id agentId with hs
  have hmem : s ∈ (ensureTaskExecutionSession now id agentId t).sessions :=
    (mem_ensure h).mpr (.inl rfl)
  have howner' : (ensureTaskExecutionSession now id agentId t).ownerAgentId members =
      some agentId := by
    rw [Task.ownerAgentId, ensure_ownerMemberId]
    exact howner
  have hnewest : (∀ y ∈ (ensureTaskExecutionSession now id agentId t).executionSessions,
      y.agentId = agentId) ↔ ∀ y ∈ (ensureTaskExecutionSession now id agentId t).sessions,
        ¬y.agentId = agentId → y.createdAt < s.createdAt :=
    forall_newest_iff hmem sessionFor_agentId fun y hy hagent =>
      ((mem_ensure h).mp hy).resolve_right fun hother => hother.2 hagent
  have hleads : (∀ y ∈ (ensureTaskExecutionSession now id agentId t).sessions,
      ¬y.agentId = agentId → y.createdAt < s.createdAt) ↔ t.Leads now agentId := by
    rw [hs, sessionFor_createdAt]
    constructor
    · intro hold y hy hother
      exact hold y ((mem_ensure h).mpr (.inr ⟨hy, hother⟩)) hother
    · intro hold y hy hother
      rcases (mem_ensure h).mp hy with rfl | ⟨hy, -⟩
      · exact absurd sessionFor_agentId hother
      · exact hold y hy hother
  constructor
  · intro hfollows
    refine ⟨fun hfinished => ?_, hleads.mp (hnewest.mp (hfollows.named agentId howner').2)⟩
    refine hfollows.stopped ?_ s hmem sessionFor_active
    rw [ensure_status]
    exact hfinished
  · rintro ⟨hunfinished, hlead⟩
    refine ⟨fun y hy hactive => ?_, fun hfinished => ?_, fun a ha => ⟨?_, ?_⟩⟩
    · rcases (mem_ensure h).mp hy with rfl | ⟨hy, -⟩
      · rw [howner', sessionFor_agentId]
      · exact absurd hactive (hidle y hy)
    · rw [ensure_status] at hfinished
      exact absurd hfinished hunfinished
    · exact mt newest_eq_nil.mp (ne_nil_of_mem hmem)
    · obtain rfl : agentId = a := Option.some.inj (howner'.symm.trans ha)
      exact hnewest.mpr (hleads.mpr hlead)

/-! ### What a commit leaves -/

/-- Some of the sessions are stopped, and nothing else changes. -/
def Stops (t t' : Task) : Prop :=
  ∃ f, InPlace f ∧ (∀ s, (f s).status.active → f s = s) ∧ t' = t.rewrite f

lemma Stops.refl : Stops t t :=
  ⟨id, fun _ => ⟨rfl, rfl, rfl⟩, fun _ _ => rfl, by simp [Task.rewrite]⟩

lemma Stops.trans {t' t'' : Task} (h : Stops t t') (h' : Stops t' t'') : Stops t t'' := by
  obtain ⟨f, hf, hstill, rfl⟩ := h
  obtain ⟨g, hg, hstill', rfl⟩ := h'
  refine ⟨g ∘ f, fun s => ?_, fun s hactive => ?_, ?_⟩
  · obtain ⟨hid, hagent, hcreated⟩ := hg (f s)
    exact ⟨hid.trans (hf s).1, hagent.trans (hf s).2.1, hcreated.trans (hf s).2.2⟩
  · have hsame : g (f s) = f s := hstill' (f s) hactive
    rw [Function.comp_apply, hsame] at hactive ⊢
    exact hstill s hactive
  · simp [Task.rewrite]

lemma stops_updateSessions {status : SessionStatus} (hended : ¬status.active) :
    Stops t (t.updateSessions which (·.finish now status)) := by
  refine ⟨_, inPlace_finish.ite, fun s hactive => ?_, rfl⟩
  split_ifs at hactive ⊢ with hwhich
  · exact absurd hactive hended
  · rfl

lemma stops_release : Stops t (releaseSessions members now before t) := by
  rw [releaseSessions]
  cases before.ownerAgentId members with
  | none => exact Stops.refl
  | some agentId =>
    simp only
    split_ifs
    · exact stops_updateSessions Bool.false_ne_true
    · exact Stops.refl

lemma stops_finish : Stops t (finishSessions now t) := by
  rw [finishSessions]
  split_ifs
  · exact stops_updateSessions Bool.false_ne_true
  · exact Stops.refl

section Stops

variable {t' : Task}

lemma Stops.ownerMemberId (h : Stops t t') : t'.ownerMemberId = t.ownerMemberId := by
  obtain ⟨f, -, -, rfl⟩ := h
  rfl

lemma ownerAgentId_congr (h : t'.ownerMemberId = t.ownerMemberId) :
    t'.ownerAgentId members = t.ownerAgentId members := by
  rw [Task.ownerAgentId, h, Task.ownerAgentId]

lemma Stops.status (h : Stops t t') : t'.status = t.status := by
  obtain ⟨f, -, -, rfl⟩ := h
  rfl

lemma Stops.keys (h : Stops t t') (hkeys : t.Keys) : t'.Keys := by
  obtain ⟨f, hf, -, rfl⟩ := h
  exact hkeys.rewrite hf

lemma Stops.leads (h : Stops t t') : t'.Leads now agentId ↔ t.Leads now agentId := by
  obtain ⟨f, hf, -, rfl⟩ := h
  exact leads_rewrite hf

lemma Stops.active (h : Stops t t') {s : TaskExecutionSession} (hs : s ∈ t'.sessions)
    (hactive : s.status.active) : s ∈ t.sessions := by
  obtain ⟨f, -, hstill, rfl⟩ := h
  obtain ⟨x, hx, rfl⟩ := mem_map.mp hs
  rw [hstill x hactive]
  exact hx

lemma Stops.idle (h : Stops t t') (hidle : t.Idle) : t'.Idle :=
  fun s hs hactive => hidle s (h.active hs hactive) hactive

lemma Stops.named (h : Stops t t')
    (hnamed : t.executionSessions ≠ [] ∧ ∀ s ∈ t.executionSessions, s.agentId = agentId) :
    t'.executionSessions ≠ [] ∧ ∀ s ∈ t'.executionSessions, s.agentId = agentId := by
  obtain ⟨f, hf, -, rfl⟩ := h
  rw [executionSessions_rewrite hf]
  refine ⟨fun hnone => hnamed.1 (map_eq_nil_iff.mp hnone), fun s hs => ?_⟩
  obtain ⟨x, hx, rfl⟩ := mem_map.mp hs
  exact (hf x).2.1.trans (hnamed.2 x hx)

end Stops

lemma finishSessions_idle (hfinished : t.status.finished) : (finishSessions now t).Idle := by
  intro s hs hactive
  have hold := stops_finish.active hs hactive
  rw [finishSessions, if_pos hfinished] at hs
  obtain ⟨x, -, hx⟩ := mem_map.mp hs
  split_ifs at hx with hwhich
  · rw [← hx] at hactive
    exact absurd hactive Bool.false_ne_true
  · rw [hx] at hwhich
    exact hwhich hactive

/-- Once the owner has changed, none of the sessions the old owner could have is active. -/
lemma releaseSessions_idle (howned : ∀ s ∈ t.sessions, s.status.active →
      before.ownerAgentId members = some s.agentId)
    (hchanged : before.ownerMemberId ≠ t.ownerMemberId) :
    (releaseSessions members now before t).Idle := by
  intro s hs hactive
  have howner := howned s (stops_release.active hs hactive) hactive
  rw [releaseSessions, howner] at hs
  simp only [if_pos hchanged] at hs
  obtain ⟨x, -, hx⟩ := mem_map.mp hs
  split_ifs at hx with hwhich
  · rw [← hx] at hactive
    exact absurd hactive Bool.false_ne_true
  · rw [hx] at hwhich
    exact hwhich (decide_eq_true ⟨rfl, hactive⟩)

/-- A new owner that is an Agent takes over an unfinished Task, and its session is the newest. -/
def Orderly (members : Uuid → Actor) (now : Nat) (data : TaskData) (row : Task) : Prop :=
  ∀ memberId, data.ownerMemberId = some (some memberId) → row.ownerMemberId ≠ some memberId →
    ∀ agentId, (members memberId).agentId = some agentId →
      ¬(data.status.getD row.status).finished ∧ row.Leads now agentId

section Commit

variable {data : TaskData}

/-- The Task before its new owner, if any, gets a session. -/
def settle (members : Uuid → Actor) (now : Nat) (before : Task) (data : TaskData) (row : Task) :
    Task :=
  finishSessions now (releaseSessions members now before (data.write row))

lemma stops_settle : Stops (data.write row) (settle members now before data row) :=
  stops_release.trans stops_finish

lemma takeSession_eq (h : t.ownerMemberId = before.ownerMemberId) :
    takeSession members now id before t = t := by
  rw [takeSession]
  cases t.ownerAgentId members with
  | none   => rfl
  | some _ => exact if_neg (not_not_intro h)

lemma follows_settle (hfollows : row.Follows members)
    (hsame : (data.write row).ownerMemberId = row.ownerMemberId) :
    (settle members now before data row).Follows members := by
  have hstops : Stops (data.write row) (settle members now before data row) := stops_settle
  have howner : (settle members now before data row).ownerMemberId = row.ownerMemberId :=
    hstops.ownerMemberId.trans hsame
  refine ⟨fun s hs hactive => ?_, fun hfinished => ?_, fun agentId hagent => ?_⟩
  · rw [ownerAgentId_congr howner]
    exact hfollows.owned s (hstops.active hs hactive) hactive
  · rw [hstops.status] at hfinished
    refine finishSessions_idle ?_
    rw [stops_release.status]
    exact hfinished
  · rw [ownerAgentId_congr howner] at hagent
    exact hstops.named (hfollows.named agentId hagent)

/-- What a commit leaves, where the row that was read had the owner the row has now. -/
theorem follows_commit (hkeys : row.Keys) (hfollows : row.Follows members)
    (hbefore : before.ownerMemberId = row.ownerMemberId) :
    (takeSession members now id before (settle members now before data row)).Follows members ↔
      Orderly members now data row := by
  have hstops : Stops (data.write row) (settle members now before data row) := stops_settle
  cases hdata : data.ownerMemberId with
  | none =>
    have hsame : (data.write row).ownerMemberId = row.ownerMemberId := by
      simp [TaskData.write, hdata]
    rw [takeSession_eq (hstops.ownerMemberId.trans (hsame.trans hbefore.symm))]
    refine iff_of_true (follows_settle hfollows hsame) fun memberId hmember => ?_
    rw [hdata] at hmember
    cases hmember
  | some owner =>
    have hnew : (data.write row).ownerMemberId = owner := by simp [TaskData.write, hdata]
    by_cases hsame : owner = row.ownerMemberId
    · have hsame' := hnew.trans hsame
      rw [takeSession_eq (hstops.ownerMemberId.trans (hsame'.trans hbefore.symm))]
      refine iff_of_true (follows_settle hfollows hsame') fun memberId hmember hchanged => ?_
      rw [hdata, Option.some.injEq] at hmember
      exact absurd (hsame.symm.trans hmember) hchanged
    have hidle : (settle members now before data row).Idle := by
      refine stops_finish.idle (releaseSessions_idle (fun s hs hactive => ?_) ?_)
      · rw [ownerAgentId_congr hbefore]
        exact hfollows.owned s hs hactive
      · rw [hbefore, hnew]
        exact Ne.symm hsame
    have howner : (settle members now before data row).ownerMemberId = owner :=
      hstops.ownerMemberId.trans hnew
    rw [takeSession]
    cases hagent : (settle members now before data row).ownerAgentId members with
    | none =>
      refine iff_of_true ⟨fun s hs hactive => absurd hactive (hidle s hs), fun _ => hidle,
        fun agentId hagent' => ?_⟩ fun memberId hmember _ agentId hagent' => ?_
      · rw [hagent] at hagent'
        cases hagent'
      · rw [hdata, Option.some.injEq] at hmember
        rw [Task.ownerAgentId, howner, hmember, Option.bind_some, hagent'] at hagent
        cases hagent
    | some agentId =>
      simp only [howner, hbefore, ne_eq, hsame, not_false_eq_true, if_true]
      rw [follows_ensure (hstops.keys ⟨hkeys.id, hkeys.agentId⟩) hagent hidle, hstops.leads, hstops.status]
      rw [Task.ownerAgentId, howner] at hagent
      obtain ⟨memberId, hmember, hagent⟩ := Option.bind_eq_some_iff.mp hagent
      subst hmember
      constructor
      · rintro ⟨hunfinished, hlead⟩ m hm hchanged a ha
        obtain rfl : memberId = m := by simpa [hdata] using hm
        obtain rfl : agentId = a := Option.some.inj (hagent.symm.trans ha)
        exact ⟨hunfinished, hlead⟩
      · intro horderly
        exact horderly memberId hdata (Ne.symm hsame) agentId hagent

end Commit

end Sessions

end Coforge.Tasks
