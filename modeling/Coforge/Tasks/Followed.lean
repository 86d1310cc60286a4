import Coforge.Tasks.Steps

/-!
# The sessions of a Task follow its owner

In every run of a conversation's Task commands, the active sessions are those of the Agents that
own their Tasks as long as an Agent is handed unfinished Tasks only, and its session is the newest
of the Task.
-/

namespace Coforge.Tasks

open Transition

def World.Follow (members : Uuid → Actor) (w : World) : Prop :=
  ∀ task ∈ w.tasks, task.Follows members

/-- A commit that hands a Task to an Agent hands over an unfinished one, and the Agent's session,
the one it has or a new one, is newer than those of all others. -/
def HandsOver (members : Uuid → Actor) (digest : RequestName → Uuid) (w : World) (event : Event) : Prop :=
  ∀ p guard data row now, GoesThrough digest w event p guard data row now →
    Orderly members now data row

section Follows

variable {members : Uuid → Actor} {agentReadableBody : BodyReader} {digest : RequestName → Uuid}
  {w w' : World} {event : Event} {actor : Member} {now : Nat} {before row task : Task}
  {guard : TaskWhere} {data : TaskData}

lemma Task.Follows.of_eq (h : row.Follows members) (hsessions : task.sessions = row.sessions)
    (howner : task.ownerMemberId = row.ownerMemberId) (hstatus : task.status = row.status) :
    task.Follows members := by
  obtain ⟨howned, hstopped, hnamed⟩ := h
  refine ⟨?_, ?_, ?_⟩
  · rw [hsessions, ownerAgentId_congr howner]
    exact howned
  · rw [hsessions, hstatus]
    exact hstopped
  · rw [Task.executionSessions, hsessions, ownerAgentId_congr howner]
    exact hnamed

lemma Inserted.follows (h : Inserted members agentReadableBody actor task) :
    task.Follows members := by
  obtain ⟨assignee, description, createsResource, requestId, number, row, now, rfl⟩ := h
  simp only [createTask]
  split
  · rename_i agentId hagent
    refine Task.Follows.of_eq ((follows_ensure ?_ hagent ?_).mpr ⟨?_, ?_⟩) rfl rfl rfl
    · exact ⟨List.nodup_nil, List.nodup_nil⟩
    · exact List.forall_mem_nil _
    · simp only
      split_ifs <;> simp [TaskStatus.finished]
    · exact List.forall_mem_nil _
  · rename_i hnone
    refine ⟨List.forall_mem_nil _, fun _ => List.forall_mem_nil _, fun agentId hagent => ?_⟩
    cases hnone.symm.trans hagent

lemma Commits.follows_iff
    (h : Commits members agentReadableBody actor now before guard data row task)
    (hkeys : row.Keys) (hfollows : row.Follows members)
    (howner : before.ownerMemberId = row.ownerMemberId) :
    task.Follows members ↔ Orderly members now data row := by
  obtain ⟨sessionId, -, htask⟩ := h.sessions
  have hcommit : (takeSession members now sessionId before
      (settle members now before data row)).Follows members ↔ Orderly members now data row :=
    follows_commit hkeys hfollows howner
  rw [← hcommit, htask]
  exact ⟨fun ⟨howned, hstopped, hnamed⟩ => ⟨howned, hstopped, hnamed⟩,
    fun ⟨howned, hstopped, hnamed⟩ => ⟨howned, hstopped, hnamed⟩⟩

lemma orderly_new (hdata : data.status.getD row.status = .inProgress) (hnone : row.sessions = []) :
    Orderly members now data row := by
  intro memberId _ _ agentId _
  rw [hdata, Task.Leads, hnone]
  exact ⟨Bool.false_ne_true, List.forall_mem_nil _⟩

lemma Inserted.sessions_eq_nil (h : Inserted members agentReadableBody actor task)
    (hnone : task.ownerMemberId = none) : task.sessions = [] := by
  obtain ⟨assignee, description, createsResource, requestId, number, row, now, rfl⟩ := h
  simp only [createTask] at hnone ⊢
  split
  · rename_i agentId hagent
    simp only [hagent, ensure_ownerMemberId] at hnone
    simp [Task.ownerAgentId, hnone] at hagent
  · rfl

lemma GoesThrough.eq (hunique : (w.tasks.map Task.messageId).Nodup) {p p' : Pending}
    {guard' : TaskWhere} {data' : TaskData} {row' : Task} {now' : Nat}
    (h : GoesThrough digest w event p guard data row now)
    (h' : GoesThrough digest w event p' guard' data' row' now') :
    p = p' ∧ data = data' ∧ row = row' ∧ now = now' := by
  obtain ⟨index, sessionId, noticeId, rfl, hp, hpasses⟩ := h
  obtain ⟨index', sessionId', noticeId', heq, hp', hpasses'⟩ := h'
  cases heq
  obtain rfl : p = p' := Option.some.inj (hp.symm.trans hp')
  obtain ⟨rfl, rfl⟩ := Write.commit.inj (hpasses.write_eq.symm.trans hpasses'.write_eq)
  exact ⟨rfl, rfl, eq_of_holds hunique hpasses.mem hpasses'.mem hpasses.holds hpasses'.holds, rfl⟩

/-- A step keeps the sessions with the owners exactly if it hands over as it should. -/
theorem follow_step (hsound : w.Sound members) (hfollow : w.Follow members)
    (h : step members agentReadableBody digest w event = some w') :
    w'.Follow members ↔ HandsOver members digest w event := by
  obtain ⟨hmoves, -⟩ := moves_of_step hsound.unique h
  cases hmoves with
  | still hnone htasks =>
    refine iff_of_true ?_ fun p guard data row now hpasses => absurd hpasses (hnone _ _ _ _ _)
    rw [World.Follow, htasks]
    exact hfollow
  | inserted actor hactor news hnone hnews hnodup hother htasks =>
    refine iff_of_true ?_ fun p guard data row now hpasses => absurd hpasses (hnone _ _ _ _ _)
    rw [World.Follow, htasks]
    exact List.forall_mem_append.mpr ⟨hfollow, fun task htask => (hnews task htask).follows⟩
  | ensured h =>
    obtain ⟨p, hp, agentId, hwrite⟩ := h
    have hguarded := hsound.guarded p hp
    rw [hwrite] at hguarded
    exact hguarded.elim
  | committed p guard data row now hpasses task hcommits htasks =>
    have hpasses' := hpasses
    obtain ⟨index, sessionId, noticeId, -, hp, ⟨hwrite, hrow, hholds, -, -⟩⟩ := hpasses'
    have hp := List.mem_of_getElem? hp
    have hknown := known_of_holds (hwrite ▸ hsound.guarded p hp)
      (hsound.advances p hp row hrow (holds_messageId hholds)) hholds
    have hiff := hcommits.follows_iff (hsound.keys row hrow) (hfollow row hrow) hknown.1
    rw [World.Follow, htasks]
    constructor
    · intro hall p' guard' data' row' now' hpasses'
      obtain ⟨-, rfl, rfl, rfl⟩ := hpasses.eq hsound.unique hpasses'
      refine hiff.mp (hall task (List.mem_map.mpr ⟨row, hrow, ?_⟩))
      rw [if_pos hcommits.messageId.symm]
    · intro hands t ht
      rcases mem_replace ht with rfl | ht
      · exact hiff.mpr (hands p guard data row now hpasses)
      · exact hfollow t ht
  | claimed actor hactor hnone new task hnew hother now guard data hunassigned hdata hcommits
      htasks =>
    refine iff_of_true ?_ fun p guard data row now hpasses => absurd hpasses (hnone _ _ _ _ _)
    rw [World.Follow, htasks]
    refine List.forall_mem_append.mpr ⟨hfollow, List.forall_mem_singleton.mpr ?_⟩
    exact (hcommits.follows_iff hnew.keys hnew.follows rfl).mpr
      (orderly_new hdata (hnew.sessions_eq_nil hunassigned.1))

end Follows

/-- The sessions of all Tasks follow their owners after every step of a run exactly if every commit
of the run that hands a Task to an Agent hands over as it should. -/
theorem sessions_follow_owner {members : Uuid → Actor} {agentReadableBody : BodyReader}
    {digest : RequestName → Uuid} {w w' : World} {events : List Event} (hsound : w.Sound members)
    (hfollow : w.Follow members)
    (hrun : run (step members agentReadableBody digest) w events = some w') :
    Permitted (step members agentReadableBody digest) (HandsOver members digest) w events ↔
      ∀ done event rest u v, events = done ++ event :: rest →
        run (step members agentReadableBody digest) w done = some u →
          step members agentReadableBody digest u event = some v → v.Follow members := by
  have hgood : ∀ (u : World) (event : Event) (v : World), v.Follow members → v.Follow members :=
    fun _ _ _ h => h
  have hstep : ∀ u event v, u.Sound members → u.Follow members →
      step members agentReadableBody digest u event = some v →
        v.Sound members ∧ (v.Follow members ↔ HandsOver members digest u event) :=
    fun u event v hu hu' hstep => ⟨hu.step hstep, follow_step hu hu' hstep⟩
  exact permitted_iff_each hgood hstep hsound hfollow hrun

section Examples

/-- A person (member 0), and the Agents 7 and 8 (members 1 and 2). -/
def crew : Uuid → Actor
  | 0 => .user 5
  | 1 => .agent 7
  | _ => .agent 8

def person : Member := ⟨0, "ada"⟩
def firstAgent : Member := ⟨1, "bee"⟩
def secondAgent : Member := ⟨2, "cee"⟩

def plainBody : BodyReader := fun body _ => body

/-- The person creates Task 1 without an assignee. -/
def created : Event :=
  .create person ⟨["task"], none, false, none, 40⟩ none false [⟨10, 20, "task", [], []⟩] 11 100

/-- The person closes the Task, and then assigns it to the first Agent. -/
def assignedWhenClosed : List Event :=
  [created, .start person (.update .closed none) none false 1, .finish 0 21 12 110,
    .start person (.assign (some "@bee") none 41) (some firstAgent) false 1, .finish 0 22 13 120]

/-- The first Agent claims the Task, then the second one, and then the first one again. -/
def takenBack : List Event :=
  [created, .start firstAgent .claim none false 1, .finish 0 21 12 110,
    .start person (.unassign none) none false 1, .finish 0 22 13 120,
    .start secondAgent .claim none false 1, .finish 0 23 14 130,
    .start person (.unassign none) none false 1, .finish 0 24 15 140,
    .start firstAgent .claim none false 1, .finish 0 25 16 150]

/-- The Task that a run of the crew's commands leaves. -/
def leftBy (events : List Event) : Option Task :=
  (run (step crew plainBody fun _ => 30) World.empty events).bind fun w => w.tasks.head?

/-- A closed Task is left with an active session; and while the first Agent owns its Task again, the
view names the cancelled session of the second. -/
theorem sessions_part_from_owner : (∃ task ∈ leftBy assignedWhenClosed, task.status = .closed ∧
      ∃ s ∈ task.sessions, s.status.active) ∧
    ∃ task ∈ leftBy takenBack, task.ownerAgentId crew = some 7 ∧
      task.executionSessions.map (fun s => (s.agentId, s.status)) = [(8, .cancelled)] := by
  decide

/-- The first Agent claims the Task. -/
theorem claimed_follows_owner :
    ∃ u v, run (step crew plainBody fun _ => 30) World.empty (takenBack.take 2) = some u ∧
      step crew plainBody (fun _ => 30) u (.finish 0 21 12 110) = some v ∧ v.Follow crew := by
  have hpermitted : Permitted (step crew plainBody fun _ => 30) (HandsOver crew fun _ => 30)
      World.empty (takenBack.take 3) := by
    refine ⟨?_, ?_⟩
    · rintro p guard data row now ⟨index, sessionId, noticeId, heq, -⟩
      cases heq
    rintro u ⟨⟩
    refine ⟨?_, ?_⟩
    · rintro p guard data row now ⟨index, sessionId, noticeId, heq, -⟩
      cases heq
    rintro v ⟨⟩
    refine ⟨?_, fun _ _ => trivial⟩
    rintro p guard data row now ⟨index, sessionId, noticeId, heq, hp, hpasses⟩
    cases heq
    cases hp
    cases hpasses.write_eq
    rw [List.mem_singleton.mp hpasses.mem]
    exact orderly_new rfl rfl
  exact ⟨_, _, rfl, rfl, (sessions_follow_owner World.sound_empty (List.forall_mem_nil _) rfl).mp
    hpermitted (takenBack.take 2) (.finish 0 21 12 110) [] _ _ rfl rfl rfl⟩

end Examples

end Coforge.Tasks
