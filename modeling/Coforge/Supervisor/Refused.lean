import Coforge.Supervisor.Work

/-!
# A refused request changes nothing

A stop or configure takes over work as soon as it is requested, and a stop writes its intent ahead
of its turn. The pause is checked in the turn, and a request that it refuses may have done both.

`Considerate` is the condition that it has not: while the machine is paused no request finds work
to take over and no intent has anything to change, and the machine is not paused while a request
that has done either still waits to be let in.
-/

namespace Coforge.Supervisor

open Async Transition List Option
open Async.Prog hiding throw

/-- The request has taken over work or changed the registry. -/
def Watch.Acted (o : Watch) (sequence : Nat) : Prop :=
  (∃ id, (sequence, id) ∈ o.aborted) ∨
    ∃ x ∈ o.writes, x.author = some sequence ∧ x.after ≠ x.before

/-- Nothing is taken over and nothing is to be changed while the machine is paused, and nobody
waits to be let in who has done so before. -/
def Considerate (s : System) : Act Event Outcome → Prop
  | .event (.stop workspaceId _) => s.shared.1.paused → s.shared.1.abortedBy
      ((s.shared.1.targets .stop (scopeOf workspaceId)).map (·.workspaceId)) = []
  | .event (.configure config _) => s.shared.1.paused →
      s.shared.1.abortedBy [config.workspaceId] = []
  | .event .intentBegin => s.shared.1.paused →
      s.shared.1.reloaded.intended = s.shared.1.reloaded.bindings
  | .event .pause => s.shared.2.disturbing = []
  | _ => True

instance (s : System) : ∀ a, Decidable (Considerate s a)
  | .event (.stop _ _)           => inferInstanceAs (Decidable (_ → _))
  | .event (.start _ _)          => isTrue trivial
  | .event (.restart _ _ _)      => isTrue trivial
  | .event (.configure _ _)      => inferInstanceAs (Decidable (_ → _))
  | .event .reconcile            => isTrue trivial
  | .event (.recordUpgrade _ _ _) => isTrue trivial
  | .event (.completeUpgrade _ _ _) => isTrue trivial
  | .event (.acknowledgeUpgrade _ _) => isTrue trivial
  | .event .snapshot             => isTrue trivial
  | .event .resume               => isTrue trivial
  | .event .shutdown             => isTrue trivial
  | .event .pause                => inferInstanceAs (Decidable (_ = _))
  | .event .intentBegin          => inferInstanceAs (Decidable (_ → _))
  | .event (.intentUnread _)     => isTrue trivial
  | .event (.intentEnd _)        => isTrue trivial
  | .event .view                 => isTrue trivial
  | .event (.sight _)            => isTrue trivial
  | .event .viewed               => isTrue trivial
  | .event (.tick _)             => isTrue trivial
  | .begin                       => isTrue trivial
  | .reply _                     => isTrue trivial

/-! ### The requests that are still to be let in -/

/-- The sequence of a stop. -/
def Task.stopSequence : Task → Option Nat
  | .command c => if c.operation = .stop then some c.sequence else none
  | _          => none

lemma Task.author_of_stopSequence {task : Task} {q : Nat} (h : task.stopSequence = some q) :
    task.author = some q := by
  cases task with
  | command c =>
    obtain ⟨-, h⟩ := ite_none_right_eq_some.mp h
    exact h
  | _ => cases h

/-- The requests of these tasks. -/
def authors (tasks : List Task) : List Nat := tasks.filterMap Task.author

/-- The books of what was done and refused. `current` is the task in its turn, as long as it is
not let in, and with the queue behind it these are the requests that may still be refused. -/
structure Account (current : List Task) (w : World) : Prop where
  distinct : (authors (current ++ w.1.pending)).Nodup
  known : ∀ q ∈ authors (current ++ w.1.pending), q ≤ w.1.sequence
  intents : ∀ i ∈ w.1.intents, ∃ task ∈ current ++ w.1.pending,
    task.stopSequence = some i.sequence
  writing : ∀ i ∈ w.1.intents, ∀ before next, i.phase = .writing before next →
    next ≠ before → i.sequence ∈ w.2.disturbing
  acted : ∀ q, w.2.Acted q → q ≤ w.1.sequence ∧
    (q ∈ authors (current ++ w.1.pending) → q ∈ w.2.disturbing)
  paused : w.1.paused → w.2.disturbing = []
  rejected : ∀ q e, (q, e) ∈ w.2.rejected → q ≤ w.1.sequence ∧
    q ∉ authors (current ++ w.1.pending) ∧ (e = .launchesPaused → ¬ w.2.Acted q)

/-- A request that was let in, or has failed. -/
structure Settled (q : Nat) (w : World) : Prop where
  known : q ≤ w.1.sequence
  pending : q ∉ authors w.1.pending
  rejected : ∀ e, (q, e) ∉ w.2.rejected

section Events

variable {accepts : Registry → Bool} {current : List Task} {w w' : World} {q : Nat}

lemma Account.quiet {t : Machine} (h : Account current w) (hq : Quiet w.1 t) :
    Account current (t, w.2) where
  distinct := by rw [hq.pending]; exact h.distinct
  known := by rw [hq.pending, hq.sequence]; exact h.known
  intents := by rw [hq.pending]; exact fun i hi => h.intents i (hq.intents i hi)
  writing := fun i hi => h.writing i (hq.intents i hi)
  acted := by rw [hq.pending, hq.sequence]; exact h.acted
  paused := fun hp => h.paused (hq.paused hp)
  rejected := by rw [hq.pending, hq.sequence]; exact h.rejected

lemma Settled.quiet {t : Machine} (h : Settled q w) (hq : Quiet w.1 t) : Settled q (t, w.2) where
  known := by rw [hq.sequence]; exact h.known
  pending := by rw [hq.pending]; exact h.pending
  rejected := h.rejected

variable {ids : List String}

lemma acted_abort {o : Watch} {r : Nat} (h : (o.abort r ids).Acted q) :
    o.Acted q ∨ (q = r ∧ ids ≠ []) := by
  rcases h with ⟨id, hid⟩ | h
  · rcases mem_append.mp hid with hid | hid
    · obtain ⟨id', hid', heq⟩ := mem_map.mp hid
      cases heq
      exact .inr ⟨rfl, ne_nil_of_mem hid'⟩
    · exact .inl (.inl ⟨id, hid⟩)
  · exact .inl (.inr h)

lemma disturbing_abort {o : Watch} {r : Nat} (h : q ∈ o.disturbing) :
    q ∈ (o.abort r ids).disturbing := by
  unfold Watch.abort
  dsimp only
  split_ifs
  · exact h
  · exact mem_cons_of_mem r h

/-- A new request joins the queue, and may take over the work `ids`. -/
structure Requests (task : Task) (ids : List String) (w w' : World) : Prop where
  author : task.author = some (w.1.sequence + 1)
  pending : w'.1.pending = w.1.pending ++ [task]
  sequence : w'.1.sequence = w.1.sequence + 1
  paused : w'.1.paused = w.1.paused
  intents : ∀ i ∈ w'.1.intents, i ∈ w.1.intents ∨
    (i.phase = .waiting ∧ task.stopSequence = some i.sequence)
  watch : w'.2 = w.2.abort (w.1.sequence + 1) ids

lemma authors_append (xs ys : List Task) : authors (xs ++ ys) = authors xs ++ authors ys :=
  filterMap_append

lemma Requests.authors {task : Task} (hr : Requests task ids w w') :
    authors (current ++ w'.1.pending) = authors (current ++ w.1.pending) ++ [w.1.sequence + 1] := by
  rw [hr.pending, ← append_assoc, authors_append]
  simp [Supervisor.authors, hr.author]

lemma Account.requests {task : Task} (h : Account current w)
    (hr : Requests task ids w w') (hids : w.1.paused → ids = []) : Account current w' := by
  have hnew : w.1.sequence + 1 ∉ authors (current ++ w.1.pending) := fun hmem => by
    have := h.known _ hmem
    omega
  have hold {q : Nat} (hq : q ≤ w.1.sequence)
      (hmem : q ∈ authors (current ++ w.1.pending) ++ [w.1.sequence + 1]) :
      q ∈ authors (current ++ w.1.pending) := by
    rcases mem_append.mp hmem with hmem | hmem
    · exact hmem
    · have := mem_singleton.mp hmem
      omega
  refine ⟨?_, ?_, ?_, ?_, ?_, ?_, ?_⟩
  · rw [hr.authors]
    refine nodup_append.mpr ⟨h.distinct, by simp, ?_⟩
    rintro q hq _ hq' rfl
    exact hnew (mem_singleton.mp hq' ▸ hq)
  · intro q hq
    rw [hr.authors] at hq
    rw [hr.sequence]
    rcases mem_append.mp hq with hq | hq
    · exact Nat.le_succ_of_le (h.known q hq)
    · exact Nat.le_of_eq (mem_singleton.mp hq)
  · intro i hi
    rw [hr.pending, ← append_assoc]
    rcases hr.intents i hi with hi | ⟨-, htask⟩
    · obtain ⟨task', hmem, hstop⟩ := h.intents i hi
      exact ⟨task', mem_append_left _ hmem, hstop⟩
    · exact ⟨task, mem_append_right _ (mem_singleton_self task), htask⟩
  · intro i hi before next hphase hne
    rcases hr.intents i hi with hi | ⟨hwaiting, -⟩
    · rw [hr.watch]
      exact disturbing_abort (h.writing i hi before next hphase hne)
    · rw [hwaiting] at hphase
      cases hphase
  · intro q hq
    rw [hr.watch] at hq ⊢
    rw [hr.authors, hr.sequence]
    rcases acted_abort hq with hq | ⟨rfl, hne⟩
    · obtain ⟨hle, hopen⟩ := h.acted q hq
      exact ⟨Nat.le_succ_of_le hle, fun hmem => disturbing_abort (hopen (hold hle hmem))⟩
    · refine ⟨Nat.le_refl _, fun _ => ?_⟩
      simp [Watch.abort, hne]
  · intro hp
    rw [hr.paused] at hp
    rw [hr.watch, hids hp]
    exact h.paused hp
  · intro q e hqe
    rw [hr.watch] at hqe
    obtain ⟨hle, hnot, hclean⟩ := h.rejected q e hqe
    rw [hr.authors, hr.sequence, hr.watch]
    refine ⟨Nat.le_succ_of_le hle, fun hmem => hnot (hold hle hmem), fun he hacted => ?_⟩
    rcases acted_abort hacted with hacted | ⟨rfl, -⟩
    · exact hclean he hacted
    · omega

lemma Settled.requests {task : Task} (h : Settled q w)
    (hr : Requests task ids w w') : Settled q w' where
  known := by rw [hr.sequence]; exact Nat.le_succ_of_le h.known
  pending := by
    have hauthors : authors w'.1.pending = authors w.1.pending ++ [w.1.sequence + 1] :=
      @Requests.authors [] _ _ _ _ hr
    intro hmem
    rw [hauthors] at hmem
    rcases mem_append.mp hmem with hmem | hmem
    · exact h.pending hmem
    · have := mem_singleton.mp hmem
      have := h.known
      omega
  rejected := by rw [hr.watch]; exact h.rejected

lemma Account.enqueue {task : Task} (h : Account current w) (htask : task.author = none) :
    Account current (w.1.enqueue task, w.2) := by
  have hauthors : authors (current ++ (w.1.pending ++ [task])) =
      authors (current ++ w.1.pending) := by
    rw [← append_assoc, authors_append]
    simp [Supervisor.authors, htask]
  refine ⟨?_, ?_, fun i hi => ?_, h.writing, ?_, h.paused, ?_⟩
  · exact hauthors ▸ h.distinct
  · exact hauthors ▸ h.known
  · obtain ⟨task', hmem, hstop⟩ := h.intents i hi
    refine ⟨task', ?_, hstop⟩
    change task' ∈ current ++ (w.1.pending ++ [task])
    rw [← append_assoc]
    exact mem_append_left _ hmem
  · exact hauthors ▸ h.acted
  · exact hauthors ▸ h.rejected

lemma Settled.enqueue {task : Task} (h : Settled q w) (htask : task.author = none) :
    Settled q (w.1.enqueue task, w.2) where
  known := h.known
  pending := by
    change q ∉ authors (w.1.pending ++ [task])
    rw [authors_append]
    simpa [authors, htask] using h.pending
  rejected := h.rejected

/-- The write of an intent goes one step further. -/
structure Writes (i : StopIntent) (phase : IntentPhase) (w w' : World) : Prop where
  pending : w'.1.pending = w.1.pending
  sequence : w'.1.sequence = w.1.sequence
  paused : w'.1.paused = w.1.paused
  intents : w'.1.intents = (w.1.setIntent i.sequence phase).intents
  disturbing : ∀ q ∈ w.2.disturbing, q ∈ w'.2.disturbing
  harmless : w.1.paused → w'.2.disturbing = w.2.disturbing
  writing : ∀ before next, phase = .writing before next → next ≠ before →
    i.sequence ∈ w'.2.disturbing
  acted : ∀ q, w'.2.Acted q → w.2.Acted q ∨ (q = i.sequence ∧ i.sequence ∈ w'.2.disturbing)
  rejected : w'.2.rejected = w.2.rejected
  author : w'.2.author = w.2.author

variable {i : StopIntent}

lemma Account.writes {phase : IntentPhase} (h : Account current w)
    (hi : i ∈ w.1.intents) (hw : Writes i phase w w') : Account current w' := by
  obtain ⟨task, htask, hstop⟩ := h.intents i hi
  have hopen : i.sequence ∈ authors (current ++ w.1.pending) :=
    mem_filterMap.mpr ⟨task, htask, Task.author_of_stopSequence hstop⟩
  refine ⟨?_, ?_, fun j hj => ?_, fun j hj before next hphase hne => ?_, fun q hq => ?_, ?_,
    fun q e hqe => ?_⟩
  · rw [hw.pending]
    exact h.distinct
  · rw [hw.pending, hw.sequence]
    exact h.known
  · rw [hw.pending]
    rw [hw.intents] at hj
    obtain ⟨j', hj', rfl⟩ := mem_map.mp hj
    obtain ⟨task', htask', hstop'⟩ := h.intents j' hj'
    refine ⟨task', htask', ?_⟩
    split_ifs <;> exact hstop'
  · rw [hw.intents] at hj
    obtain ⟨j', hj', rfl⟩ := mem_map.mp hj
    split_ifs at hphase ⊢ with hsame
    · exact hsame ▸ hw.writing before next hphase hne
    · exact hw.disturbing _ (h.writing j' hj' before next hphase hne)
  · rw [hw.pending, hw.sequence]
    rcases hw.acted q hq with hq | ⟨rfl, hmem⟩
    · exact ⟨(h.acted q hq).1, fun hlive => hw.disturbing q ((h.acted q hq).2 hlive)⟩
    · exact ⟨h.known _ hopen, fun _ => hmem⟩
  · intro hp
    rw [hw.paused] at hp
    rw [hw.harmless hp]
    exact h.paused hp
  · rw [hw.rejected] at hqe
    rw [hw.pending, hw.sequence]
    obtain ⟨hle, hnot, hclean⟩ := h.rejected q e hqe
    refine ⟨hle, hnot, fun he hacted => ?_⟩
    rcases hw.acted q hacted with hacted | ⟨rfl, -⟩
    · exact hclean he hacted
    · exact hnot hopen

lemma Settled.writes {phase : IntentPhase} (h : Settled q w)
    (hw : Writes i phase w w') : Settled q w' where
  known := by rw [hw.sequence]; exact h.known
  pending := by rw [hw.pending]; exact h.pending
  rejected := by rw [hw.rejected]; exact h.rejected

lemma writes_beginIntent (hok : w.1.paused → w.1.reloaded.intended = w.1.reloaded.bindings) :
    Writes i (.writing w.1.reloaded.bindings w.1.reloaded.intended) w (beginIntent w i) := by
  obtain ⟨bindings, reloadRequired, hreloaded⟩ := w.1.reloaded_eq
  refine ⟨?_, ?_, ?_, ?_, fun q hq => ?_, fun hp => ?_, ?_, fun q hq => .inl hq, rfl, rfl⟩
  · simp only [beginIntent, Machine.setIntent, hreloaded]
  · simp only [beginIntent, Machine.setIntent, hreloaded]
  · simp only [beginIntent, Machine.setIntent, hreloaded]
  · simp only [beginIntent, Machine.setIntent, hreloaded]
  · simp only [beginIntent]
    split_ifs
    · exact hq
    · exact mem_cons_of_mem _ hq
  · exact if_pos (hok hp)
  · rintro before next ⟨⟩ hne
    simp [beginIntent, hne]

lemma acted_saved {author recorded} {before next : Registry}
    (h : (w.saved author recorded before next).2.Acted q) :
    w.2.Acted q ∨ (author = some q ∧ next ≠ before) := by
  rcases h with h | ⟨x, hx, hauthor, hne⟩
  · exact .inl (.inl h)
  · rcases mem_cons.mp hx with rfl | hx
    · exact .inr ⟨hauthor, hne⟩
    · exact .inl (.inr ⟨x, hx, hauthor, hne⟩)

lemma writes_endIntent {before next : Registry} {outcome : Outcome}
    (h : Account current w) (hi : i ∈ w.1.intents) (hphase : i.phase = .writing before next)
    (hend : endIntent accepts (w.1, { w.2 with intentWritten := true }) i before next outcome =
      some w') :
    ∃ failure, Writes i (.done failure) w w' := by
  have hacted {q : Nat} (hq : (World.saved (w.1, { w.2 with intentWritten := true })
      (some i.sequence) none before next).2.Acted q) :
      w.2.Acted q ∨ (q = i.sequence ∧ i.sequence ∈ w.2.disturbing) := by
    rcases acted_saved hq with hq | ⟨heq, hne⟩
    · exact .inl hq
    · obtain rfl := some.inj heq
      exact .inr ⟨rfl, h.writing i hi before next hphase hne⟩
  rcases endIntent_cases hend with ⟨-, rfl⟩ | ⟨message, rfl⟩ | ⟨message, -, rfl⟩
  · exact ⟨none, rfl, rfl, rfl, rfl, fun _ => id, fun _ => rfl, fun _ _ h => (nomatch h),
      fun q => hacted, rfl, rfl⟩
  · exact ⟨some message, rfl, rfl, rfl, rfl, fun _ => id, fun _ => rfl, fun _ _ h => (nomatch h),
      fun q => .inl, rfl, rfl⟩
  · exact ⟨some message, rfl, rfl, rfl, rfl, fun _ => id, fun _ => rfl, fun _ _ h => (nomatch h),
      fun q => hacted, rfl, rfl⟩

lemma requests_stop (w : World) (workspaceId : Option String) (deadline : Option Nat) :
    ∃ task, Requests task (w.1.abortedBy ((w.1.targets .stop workspaceId).map (·.workspaceId))) w
      (requestStop w workspaceId deadline) := by
  refine ⟨_, rfl, rfl, rfl, rfl, fun i hi => ?_, rfl⟩
  rcases mem_append.mp hi with hi | hi
  · exact .inl hi
  · rw [mem_singleton.mp hi]
    exact .inr ⟨rfl, rfl⟩

lemma requests_start (w : World) (operation : LifecycleOperation) (workspaceId : Option String)
    (requestId : Option String) (deadline : Option Nat) :
    ∃ task, Requests task [] w (requestStart w operation workspaceId requestId deadline) :=
  ⟨_, rfl, rfl, rfl, rfl, fun _ => .inl, rfl⟩

lemma requests_configure (w : World) (config : DaemonConfig) (deadline : Option Nat) :
    ∃ task, Requests task (w.1.abortedBy [config.workspaceId]) w
      (requestConfigure w config deadline) :=
  ⟨_, rfl, rfl, rfl, rfl, fun _ => .inl, rfl⟩

variable {s : System} {l : Event}

/-- What an event is to the books, where nobody is disturbed who must not be: a request, a task
that is none, a step of an intent's write, or nothing. -/
lemma event_cases (h : Account current s.shared)
    (hok : Considerate s (.event l)) (hevent : s.shared.event accepts l = some w') :
    (∃ task ids, Requests task ids s.shared w' ∧ (s.shared.1.paused → ids = [])) ∨
    (∃ task, task.author = none ∧ w' = (s.shared.1.enqueue task, s.shared.2)) ∨
    (∃ i ∈ s.shared.1.intents, ∃ phase, Writes i phase s.shared w') ∨
    (w'.1.pending = s.shared.1.pending ∧ w'.1.sequence = s.shared.1.sequence ∧
      w'.1.intents = s.shared.1.intents ∧
      (w'.1.paused → s.shared.1.paused ∨ s.shared.2.disturbing = []) ∧
      w'.2.disturbing = s.shared.2.disturbing ∧ w'.2.aborted = s.shared.2.aborted ∧
      w'.2.writes = s.shared.2.writes ∧ w'.2.rejected = s.shared.2.rejected ∧
      w'.2.author = s.shared.2.author) := by
  cases l with
  | stop workspaceId deadline =>
    obtain ⟨task, hr⟩ := requests_stop s.shared (scopeOf workspaceId) deadline
    cases hevent
    exact .inl ⟨task, _, hr, hok⟩
  | start workspaceId deadline =>
    obtain ⟨task, hr⟩ := requests_start s.shared .start (scopeOf workspaceId) none deadline
    cases hevent
    exact .inl ⟨task, _, hr, fun _ => rfl⟩
  | restart workspaceId requestId deadline =>
    obtain ⟨task, hr⟩ := requests_start s.shared .restart (scopeOf workspaceId) requestId deadline
    cases hevent
    exact .inl ⟨task, _, hr, fun _ => rfl⟩
  | configure config deadline =>
    obtain ⟨task, hr⟩ := requests_configure s.shared config deadline
    cases hevent
    exact .inl ⟨task, _, hr, hok⟩
  | pause =>
    obtain ⟨-, hevent⟩ := ite_none_left_eq_some.mp hevent
    cases hevent
    exact .inr (.inr (.inr ⟨rfl, rfl, rfl, fun _ => .inr hok, rfl, rfl, rfl, rfl, rfl⟩))
  | intentBegin =>
    obtain ⟨-, hevent⟩ := ite_none_right_eq_some.mp hevent
    obtain ⟨i, hi, rfl⟩ := map_eq_some_iff.mp hevent
    exact .inr (.inr (.inl ⟨i, mem_of_find?_eq_some hi, _, writes_beginIntent hok⟩))
  | intentUnread message =>
    obtain ⟨-, hevent⟩ := ite_none_right_eq_some.mp hevent
    obtain ⟨i, hi, rfl⟩ := map_eq_some_iff.mp hevent
    refine .inr (.inr (.inl ⟨i, mem_of_find?_eq_some hi, .done (some message), ?_⟩))
    exact ⟨rfl, rfl, rfl, rfl, fun _ => id, fun _ => rfl, fun _ _ h => (nomatch h),
      fun _ => .inl, rfl, rfl⟩
  | intentEnd outcome =>
    simp only [World.event] at hevent
    split at hevent
    · cases hevent
    · next i hi =>
      have hmem := mem_of_find?_eq_some hi
      split at hevent
      · next before next hphase =>
        obtain ⟨failure, hw⟩ := writes_endIntent h hmem hphase hevent
        exact .inr (.inr (.inl ⟨i, hmem, _, hw⟩))
      · cases hevent
  | view =>
    obtain ⟨-, hevent⟩ := ite_none_right_eq_some.mp hevent
    cases hevent
    exact .inr (.inr (.inr ⟨rfl, rfl, rfl, .inl, rfl, rfl, rfl, rfl, rfl⟩))
  | sight workspaceId =>
    simp only [World.event] at hevent
    split at hevent
    · cases hevent
    · split_ifs at hevent <;> cases hevent <;>
        exact .inr (.inr (.inr ⟨rfl, rfl, rfl, .inl, rfl, rfl, rfl, rfl, rfl⟩))
  | viewed =>
    obtain ⟨-, hevent⟩ := ite_none_right_eq_some.mp hevent
    cases hevent
    exact .inr (.inr (.inr ⟨rfl, rfl, rfl, .inl, rfl, rfl, rfl, rfl, rfl⟩))
  | tick milliseconds =>
    cases hevent
    exact .inr (.inr (.inr ⟨rfl, rfl, rfl, .inl, rfl, rfl, rfl, rfl, rfl⟩))
  | _ => cases hevent; exact .inr (.inl ⟨_, rfl, rfl⟩)

lemma account_event (h : Account current s.shared)
    (hok : Considerate s (.event l)) (hevent : s.shared.event accepts l = some w') :
    Account current w' := by
  rcases event_cases h hok hevent with ⟨task, ids, hr, hids⟩ | ⟨task, htask, rfl⟩ |
    ⟨i, hi, phase, hw⟩ | ⟨hpending, hsequence, hintents, hpaused, hd, ha, hwrites, hr, -⟩
  · exact h.requests hr hids
  · exact h.enqueue htask
  · exact h.writes hi hw
  · have hacted (q : Nat) : w'.2.Acted q ↔ s.shared.2.Acted q := by
      simp only [Watch.Acted, ha, hwrites]
    refine ⟨?_, ?_, ?_, ?_, ?_, ?_, ?_⟩
    · rw [hpending]
      exact h.distinct
    · rw [hpending, hsequence]
      exact h.known
    · rw [hpending, hintents]
      exact h.intents
    · rw [hintents, hd]
      exact h.writing
    · rw [hpending, hsequence, hd]
      simpa only [hacted] using h.acted
    · intro hp
      rw [hd]
      rcases hpaused hp with hp | hnone
      · exact h.paused hp
      · exact hnone
    · rw [hpending, hsequence, hr]
      simpa only [hacted] using h.rejected

lemma settled_event (h : Settled q s.shared)
    (ha : Account current s.shared) (hok : Considerate s (.event l))
    (hevent : s.shared.event accepts l = some w') : Settled q w' := by
  rcases event_cases ha hok hevent with ⟨task, ids, hr, -⟩ | ⟨task, htask, rfl⟩ |
    ⟨i, -, phase, hw⟩ | ⟨hpending, hsequence, -, -, -, -, -, hr, -⟩
  · exact h.requests hr
  · exact h.enqueue htask
  · exact h.writes hw
  · exact ⟨hsequence ▸ h.known, hpending ▸ h.pending, hr ▸ h.rejected⟩

lemma author_event (ha : Account current s.shared)
    (hok : Considerate s (.event l)) (hevent : s.shared.event accepts l = some w') :
    w'.2.author = s.shared.2.author := by
  rcases event_cases ha hok hevent with ⟨task, ids, hr, -⟩ | ⟨task, htask, rfl⟩ |
    ⟨i, -, phase, hw⟩ | ⟨-, -, -, -, -, -, -, -, hauthor⟩
  · rw [hr.watch]
    rfl
  · rfl
  · exact hw.author
  · exact hauthor

end Events

/-! ### Turns -/

lemma keeps_all (registry : Registry) : registry.Keeps (fun _ => True) fun _ => False :=
  ⟨fun _ _ => trivial, fun _ h => h.elim⟩

/-- Work as such has no part in the books. -/
def unconcerned : Concern where
  keeps _ := True
  stays _ := False
  stage _ := True
  allows := Quiet
  keeps_of_kept _ := id
  stage_aside _ := id
  allows_aside _ _ h := h.toQuiet

lemma unconcerned_loose {s : Machine} (h : s.progress.Calm) : unconcerned.Loose s :=
  ⟨⟨keeps_all _, fun _ => keeps_all _, fun _ _ _ _ _ => keeps_all _⟩, trivial, h⟩

lemma unconcerned_sound {s : Machine} (h : s.progress.Calm) : unconcerned.Sound s :=
  ⟨unconcerned_loose h, keeps_all _⟩

/-- A task that may still be refused. -/
structure First (task : Task) (w : World) : Prop where
  account : Account [task] w
  author : w.2.author = task.author

/-- A task that was let in, or has failed. -/
structure Second (task : Task) (w : World) : Prop where
  account : Account [] w
  author : w.2.author = task.author
  settled : ∀ q ∈ task.author, Settled q w

def refusedCtx (accepts : Registry → Bool) (task : Task) : Context World Reply where
  rely w w' := (First task w → First task w') ∧ (Second task w → Second task w') ∧
    (w.1.progress.Calm → w'.1.progress.Calm)
  answer e w r w' := ∃ o, w.answer accepts e o = some (r, w')
  guar _ _ := True
  issue _ w := First task w ∨ Second task w

section Turns

variable {accepts : Registry → Bool} {task : Task} {w w' : World} {q : Nat}

lemma Second.saved {recorded : Option String} {next : Registry} (h : Second task w) :
    Second task (w.saved w.2.author recorded w.1.bindings next) := by
  have hacted {q : Nat} (hq : (w.saved w.2.author recorded w.1.bindings next).2.Acted q) :
      w.2.Acted q ∨ q ∈ task.author := by
    rcases acted_saved hq with hq | ⟨hauthor, -⟩
    · exact .inl hq
    · exact .inr (h.author ▸ hauthor)
  refine ⟨⟨h.account.distinct, h.account.known, h.account.intents, h.account.writing,
    fun q hq => ?_, h.account.paused, fun q e hqe => ?_⟩, h.author, fun q hq => ?_⟩
  · rcases hacted hq with hq | hq
    · exact h.account.acted q hq
    · exact ⟨(h.settled q hq).known, fun hmem => absurd hmem (h.settled q hq).pending⟩
  · obtain ⟨hle, hnot, hclean⟩ := h.account.rejected q e hqe
    refine ⟨hle, hnot, fun he hq => ?_⟩
    rcases hacted hq with hq | hq
    · exact hclean he hq
    · exact (h.settled q hq).rejected e hqe
  · exact ⟨(h.settled q hq).known, (h.settled q hq).pending, (h.settled q hq).rejected⟩

lemma Second.quiet {t : Machine} (h : Second task w) (hq : Quiet w.1 t) : Second task (t, w.2) :=
  ⟨h.account.quiet hq, h.author, fun q hmem => (h.settled q hmem).quiet hq⟩

lemma Second.answer {e : Effect} {o : Outcome} {r : Reply e} (h : Second task w)
    (hans : w.answer accepts e o = some (r, w')) : Second task w' := by
  rcases World.answer_cases hans with rfl | ⟨-, -, rfl⟩ | ⟨_, _, -, -, rfl⟩ | ⟨_, _, _, -, -, -, rfl⟩
  · exact h
  · exact h.quiet (.of_same rfl)
  · exact h.saved
  · exact h.quiet { intents := fun i hi => (mem_filter.mp hi).1 }

lemma wp_second {α : Type} {p : Op α} {Q : Except SupervisorError α → Machine → Prop}
    (h : Second task w) (hp : wp unconcerned.ctx p Q w.1) :
    wp (refusedCtx accepts task) p.lift (fun r w' => Q r w'.1 ∧ Second task w') w := by
  refine wp_lift (I := Second task) ?_ ?_ ?_ ?_ ?_ h hp
  · intro e w w' hw _ hrely
    refine ⟨⟨fun hl => ?_, fun hs => ?_⟩, hrely.2.1 hw⟩
    · exact unconcerned_loose (hrely.2.2 hl.calm)
    · exact unconcerned_sound (hrely.2.2 hs.calm)
  · exact fun e w hw _ => .inr hw
  · rintro e w r w' - ⟨o, hans⟩
    exact ⟨accepts, o, w.2, w'.2, hans⟩
  · rintro e w r w' hw ⟨o, hans⟩ -
    exact ⟨trivial, hw.answer hans⟩
  · exact fun w t hw hquiet => ⟨trivial, hw.quiet hquiet⟩

/-- How the work of a request ends. -/
structure Over (task : Task) (q : Nat) (r : Except SupervisorError Unit) (w : World) : Prop where
  second : Second task w
  calm : w.1.progress.Calm
  clean : r = .error .launchesPaused → ¬ w.2.Acted q

lemma First.second (h : First task w)
    (hi : ∀ i ∈ w.1.intents, task.stopSequence ≠ some i.sequence) : Second task w := by
  have hauthors : authors ([task] ++ w.1.pending) = task.author.toList ++ authors w.1.pending := by
    rw [authors_append]
    cases hauthor : task.author <;> simp [authors, hauthor]
  have hnodup := h.account.distinct
  have hmem {q : Nat} (hq : q ∈ authors w.1.pending) : q ∈ authors ([task] ++ w.1.pending) :=
    hauthors ▸ mem_append_right _ hq
  have hself {q : Nat} (hq : q ∈ task.author) : q ∈ authors ([task] ++ w.1.pending) :=
    hauthors ▸ mem_append_left _ (mem_toList.mpr hq)
  rw [hauthors] at hnodup
  refine ⟨⟨(nodup_append.mp hnodup).2.1, fun q hq => h.account.known q (hmem hq), ?_,
    h.account.writing, fun q hq => ⟨(h.account.acted q hq).1, fun hlive =>
      (h.account.acted q hq).2 (hmem hlive)⟩, h.account.paused, fun q e hqe => ?_⟩, h.author,
    fun q hq => ⟨h.account.known q (hself hq), fun hpending => ?_, fun e hqe => ?_⟩⟩
  · intro i hmemi
    obtain ⟨task', htask', hstop⟩ := h.account.intents i hmemi
    rcases mem_append.mp htask' with htask' | htask'
    · rw [mem_singleton.mp htask'] at hstop
      exact absurd hstop (hi i hmemi)
    · exact ⟨task', htask', hstop⟩
  · obtain ⟨hle, hnot, hclean⟩ := h.account.rejected q e hqe
    exact ⟨hle, fun hlive => hnot (hmem hlive), hclean⟩
  · exact (nodup_append.mp hnodup).2.2 q (mem_toList.mpr hq) q hpending rfl
  · exact (h.account.rejected q e hqe).2.1 (hself hq)

lemma Second.decide (h : Second task w) (htask : task.author = some q) :
    Second task (w.1, w.2.decide q) := by
  have hkept {r : Nat} (hr : r ∈ authors w.1.pending) (hd : r ∈ w.2.disturbing) :
      r ∈ (w.2.decide q).disturbing := by
    refine mem_filter.mpr ⟨hd, ?_⟩
    simp only [decide_eq_true_eq]
    rintro rfl
    exact (h.settled r htask).pending hr
  refine ⟨⟨h.account.distinct, h.account.known, h.account.intents, fun i hi before next hp hne => ?_,
    fun r hr => ⟨(h.account.acted r hr).1, fun hlive => hkept hlive ((h.account.acted r hr).2 hlive)⟩,
    fun hp => ?_, h.account.rejected⟩, h.author, fun r hr => ?_⟩
  · obtain ⟨task', htask', hstop⟩ := h.account.intents i hi
    exact hkept (mem_filterMap.mpr ⟨task', htask', Task.author_of_stopSequence hstop⟩)
      (h.account.writing i hi before next hp hne)
  · change w.2.disturbing.filter _ = []
    rw [h.account.paused hp]
    rfl
  · exact ⟨(h.settled r hr).known, (h.settled r hr).pending, (h.settled r hr).rejected⟩

lemma wp_admitted {work : Op Unit} (htask : task.author = some q) (h : First task w)
    (hi : ∀ i ∈ w.1.intents, task.stopSequence ≠ some i.sequence) (hcalm : w.1.progress.Calm)
    (hwork : ∀ s, unconcerned.Loose s → wp unconcerned.ctx work unconcerned.Ended s) :
    wp (refusedCtx accepts task) (admitted q work) (Over task q) w := by
  refine wp_letIn (fun hp => ⟨h.second hi, hcalm, fun _ hacted => ?_⟩) fun _ => ⟨trivial, ?_⟩
  · have hlive : q ∈ authors ([task] ++ w.1.pending) :=
      mem_filterMap.mpr ⟨task, mem_append_left _ (mem_singleton_self task), htask⟩
    have hdisturbing := (h.account.acted q hacted).2 hlive
    rw [h.account.paused hp] at hdisturbing
    cases hdisturbing
  · refine wp_mono ?_ (wp_second ((h.second hi).decide htask)
      (hwork w.1 (unconcerned_loose hcalm)))
    rintro r w' ⟨⟨hloose, hne⟩, hsecond⟩
    exact ⟨hsecond, hloose.calm, fun hr => absurd hr hne⟩

lemma Second.enqueue {t : Task} (h : Second task w) (ht : t.author = none) :
    Second task (w.1.enqueue t, w.2) :=
  ⟨h.account.enqueue ht, h.author, fun q hq => (h.settled q hq).enqueue ht⟩

lemma wp_reportLate {operation : LifecycleOperation} {ids : Machine → List String}
    {deadline : Option Nat} {work : Turn Unit}
    (h : wp (refusedCtx accepts task) work (Over task q) w) :
    wp (refusedCtx accepts task) (reportLate operation ids deadline work) (Over task q) w := by
  refine wp_failsLate h (fun _ hw' => hw') fun e w' hw' => ⟨trivial, ?_⟩
  unfold Machine.failedAfterAnswer
  split
  · split_ifs
    · exact ⟨hw'.second.enqueue rfl, hw'.calm, hw'.clean⟩
    · exact hw'
  · exact hw'

lemma wp_answered {work : Turn Unit} {finish : Machine → Machine} (htask : task.author = some q)
    (hfinish : ∀ s, Quiet s (finish s)) (h : wp (refusedCtx accepts task) work (Over task q) w) :
    wp (refusedCtx accepts task) (answered q (work.andFinally (onMachine finish)))
      (fun _ w' => Account [] w' ∧ w'.1.progress.Calm) w := by
  have hfinished {r : Except SupervisorError Unit} {w' : World} (hw' : Over task q r w') :
      Second task (finish w'.1, w'.2) ∧ (finish w'.1).progress.Calm :=
    ⟨hw'.second.quiet (hfinish w'.1), (hfinish w'.1).calm hw'.calm⟩
  refine wp_ends h (fun w' hw' => ?_) fun e w' hw' => ?_
  · obtain ⟨hsecond, hcalm⟩ := hfinished hw'
    exact ⟨trivial, hsecond.account, hcalm⟩
  · obtain ⟨hsecond, hcalm⟩ := hfinished hw'
    have hdecided := (hsecond.decide htask).account
    refine ⟨trivial, trivial, ⟨hdecided.distinct, hdecided.known, hdecided.intents,
      hdecided.writing, hdecided.acted, hdecided.paused, fun r e' hre => ?_⟩, hcalm⟩
    rcases mem_cons.mp hre with heq | hre
    · cases heq
      have hq := hsecond.settled q htask
      exact ⟨hq.known, hq.pending, fun he => hw'.clean (by rw [he])⟩
    · exact hdecided.rejected r e' hre

lemma First.quiet {t : Machine} (h : First task w) (hq : Quiet w.1 t) : First task (t, w.2) :=
  ⟨h.account.quiet hq, h.author⟩

lemma wp_commandWork {c : Command} (h : First (.command c) w) (hcalm : w.1.progress.Calm) :
    wp (refusedCtx accepts (.command c)) (commandWork c) (Over (.command c) c.sequence) w := by
  have hrest {w : World} (h : First (.command c) w) (hcalm : w.1.progress.Calm)
      (hi : ∀ i ∈ w.1.intents, (Task.command c).stopSequence ≠ some i.sequence) :
      wp (refusedCtx accepts (.command c))
        (reportLate c.operation (fun s => c.unhandled s.progress) c.deadline
          (admitted c.sequence (runCommand c))) (Over (.command c) c.sequence) w := by
    refine wp_reportLate (wp_admitted rfl h hi hcalm fun s hs => ?_)
    exact Concern.wp_runCommand (fun _ => trivial) (fun _ _ _ _ hq => hq) hs
  unfold commandWork
  rw [wp_bind]
  unfold awaitIntent
  by_cases hstop : c.operation = .stop
  · rw [if_pos hstop, lift_bind, wp_bind]
    refine ⟨.inl h, fun w' hrely r t ⟨o, hans⟩ => ⟨trivial, ?_⟩⟩
    have hfirst := hrely.1 h
    have hcalm' := hrely.2.2 hcalm
    obtain rfl := World.answer_intent hans
    have hquiet : Quiet w'.1 { w'.1 with
        intents := w'.1.intents.filter (·.sequence ≠ c.sequence) } :=
      { intents := fun i hi => (mem_filter.mp hi).1 }
    have hi : ∀ i ∈ w'.1.intents.filter (·.sequence ≠ c.sequence),
        (Task.command c).stopSequence ≠ some i.sequence := by
      intro i hi hstop'
      have hne : i.sequence ≠ c.sequence := by simpa using (mem_filter.mp hi).2
      obtain ⟨-, heq⟩ := ite_none_right_eq_some.mp hstop'
      exact hne (some.inj heq).symm
    cases r with
    | none => exact hrest (hfirst.quiet hquiet) hcalm' hi
    | some message => exact ⟨(hfirst.quiet hquiet).second hi, hcalm', by simp⟩
  · rw [if_neg hstop]
    refine hrest h hcalm fun i _ hstop' => ?_
    exact hstop (ite_none_right_eq_some.mp hstop').1

lemma wp_configureWork {config : DaemonConfig} {deadline : Option Nat}
    (h : First (.configure config q deadline) w) (hcalm : w.1.progress.Calm) :
    wp (refusedCtx accepts (.configure config q deadline)) (configureWork config q deadline)
      (Over (.configure config q deadline) q) w :=
  wp_reportLate (wp_admitted rfl h (fun _ _ h => nomatch h) hcalm fun _ hs =>
    Concern.wp_runConfigure hs fun _ _ => trivial)

lemma wp_unrequested {α : Type} {p : Op α} (h : Second task w)
    (hp : wp unconcerned.ctx p (fun _ => unconcerned.Loose) w.1) :
    wp (refusedCtx accepts task) p.lift (fun _ w' => Second task w' ∧ w'.1.progress.Calm) w :=
  wp_mono (fun _ _ hw' => ⟨hw'.2, hw'.1.calm⟩) (wp_second h hp)

lemma Second.watched {o : Watch} (h : Second task w) (ho : o = { w.2 with
    observed := o.observed, viewing := o.viewing, granted := o.granted }) :
    Second task (w.1, o) := by
  rw [ho]
  exact ⟨⟨h.account.distinct, h.account.known, h.account.intents, h.account.writing,
    h.account.acted, h.account.paused, h.account.rejected⟩, h.author, fun q hq =>
      ⟨(h.settled q hq).known, (h.settled q hq).pending, (h.settled q hq).rejected⟩⟩

lemma first_next {w w' : World} (h : Account [] w) (hnext : w.next = some (task, w')) :
    First task w' := by
  obtain ⟨rest, hpending, rfl⟩ := World.next_cases hnext
  obtain ⟨hdistinct, hknown, hintents, hwriting, hacted, hpaused, hrejected⟩ := h
  rw [hpending] at hdistinct hknown hintents hacted hrejected
  exact ⟨⟨hdistinct, hknown, hintents, hwriting, hacted, hpaused, hrejected⟩, rfl⟩

lemma quiet_beginTurn (s : Machine) (marks : List String) : Quiet s (s.beginTurn marks) where
  calm _ := Progress.init_calm

lemma quiet_finish (c : Command) (s : Machine) : Quiet s (c.finish s) := by
  unfold Command.finish
  split_ifs <;> exact .of_same rfl

lemma wp_body (h : First task w) (hcalm : w.1.progress.Calm) :
    wp (refusedCtx accepts task) (body task) (fun _ w' => Account [] w' ∧ w'.1.progress.Calm)
      w := by
  have hloose := unconcerned_loose hcalm
  have hsecond (hnone : task.stopSequence = none) : Second task w :=
    h.second fun i _ hi => by rw [hnone] at hi; cases hi
  have hdone {α : Type} {p : Op α} {w : World} (hw : Second task w)
      (hp : wp unconcerned.ctx p (fun _ => unconcerned.Loose) w.1) :
      wp (refusedCtx accepts task) p.lift (fun _ w' => Account [] w' ∧ w'.1.progress.Calm) w :=
    wp_mono (fun _ _ hw' => ⟨hw'.1.account, hw'.2⟩) (wp_unrequested hw hp)
  have hended {α : Type} {p : Op α} {s : Machine} (hp : wp unconcerned.ctx p unconcerned.Ended s) :
      wp unconcerned.ctx p (fun _ => unconcerned.Loose) s := wp_mono (fun _ _ ht => ht.1) hp
  cases task with
  | configure config sequence deadline =>
    have hquiet := quiet_beginTurn w.1 [config.workspaceId]
    rw [body, wp_bind, onMachine, wp_update]
    exact ⟨trivial, wp_answered rfl (fun s => (.of_same rfl))
      (wp_configureWork (h.quiet hquiet) (hquiet.calm hcalm))⟩
  | command c =>
    have hquiet := quiet_beginTurn w.1 c.marks
    rw [body, wp_bind, onMachine, wp_update]
    exact ⟨trivial, wp_answered rfl (quiet_finish c)
      (wp_commandWork (h.quiet hquiet) (hquiet.calm hcalm))⟩
  | recover => exact hdone (hsecond rfl) (hended (Concern.wp_reconcileBindings hloose))
  | reconcile => exact hdone (hsecond rfl) (hended (Concern.wp_reconcile hloose))
  | recordUpgrade workspaceId requestId expectedVersion =>
    rw [body, wp_bind]
    refine wp_mono ?_ (wp_unrequested (hsecond rfl)
      (Concern.wp_recordUpgrade (fun _ _ _ => trivial) hloose))
    rintro (e | granted) w' ⟨hw', hcalm'⟩
    · exact ⟨hw'.account, hcalm'⟩
    · rw [either_ok]
      split_ifs
      · exact ⟨trivial, (hw'.watched rfl).account, hcalm'⟩
      · exact ⟨hw'.account, hcalm'⟩
  | completeUpgrade workspaceId requestId settlement =>
    rw [body, wp_bind]
    refine wp_mono ?_ (wp_unrequested (hsecond rfl)
      (Concern.wp_completeUpgrade (fun _ _ _ => trivial) hloose))
    rintro (e | _) w' ⟨hw', hcalm'⟩ <;> exact ⟨hw'.account, hcalm'⟩
  | acknowledgeUpgrade workspaceId requestId =>
    rw [body, wp_bind]
    refine wp_mono ?_ (wp_unrequested (hsecond rfl)
      (Concern.wp_acknowledgeUpgrade (fun _ _ _ => trivial) hloose))
    rintro (e | _) w' ⟨hw', hcalm'⟩ <;> exact ⟨hw'.account, hcalm'⟩
  | recordFailure operation workspaceIds message =>
    exact hdone (hsecond rfl) (hended (Concern.wp_recordFailure hloose))
  | snapshot =>
    exact hdone (hsecond rfl) (wp_mono (fun _ _ ht => ht.1) (Concern.wp_refresh hloose))
  | resume =>
    rw [body, wp_bind, forget, onWatch, wp_update]
    exact ⟨trivial, hdone ((hsecond rfl).watched rfl) (hended (Concern.wp_resume hloose
      trivial { paused := fun h => by cases h }))⟩
  | shutdown =>
    rw [body, wp_bind, forget, onWatch, wp_update]
    exact ⟨trivial, hdone ((hsecond rfl).watched rfl) (hended (Concern.wp_shutdown hloose))⟩

end Turns

def refusedSpec (accepts : Registry → Bool) : (supervisor accepts).Spec Considerate where
  idle w := Account [] w ∧ w.1.progress.Calm
  context := refusedCtx accepts
  rely_refl _ _ := ⟨id, id, id⟩
  rely_trans _ _ _ _ h h' := ⟨h'.1 ∘ h.1, h'.2.1 ∘ h.2.1, h'.2.2 ∘ h.2.2⟩
  guar_refl _ _ := trivial
  guar_trans _ _ _ _ _ _ := trivial
  event_idle s l w' _ hok hevent h :=
    ⟨account_event h.1 hok hevent, (Concern.progress_event hevent).1 ▸ h.2⟩
  event_rely s task p l w' _ hok hevent := by
    refine ⟨fun h => ?_, fun h => ?_, fun h => (Concern.progress_event hevent).1 ▸ h⟩
    · exact ⟨account_event h.account hok hevent, author_event h.account hok hevent ▸ h.author⟩
    · exact ⟨account_event h.account hok hevent, author_event h.account hok hevent ▸ h.author,
        fun q hq => settled_event (h.settled q hq) h.account hok hevent⟩
  reply_answer _ _ _ o _ _ _ _ hans := ⟨o, hans⟩
  body_safe s task w _ _ hnext h := by
    have hcalm : w.1.progress.Calm := by
      obtain ⟨rest, -, rfl⟩ := World.next_cases hnext
      exact h.2
    exact wp_body (first_next h.1 hnext) hcalm

lemma account_init (registry : Registry) (paused : Bool) :
    Account [] (System.init registry paused).shared := by
  have hauthors : authors ([] ++ (System.init registry paused).shared.1.pending) = [] := by
    cases paused <;> rfl
  refine ⟨?_, ?_, ?_, ?_, ?_, fun _ => rfl, ?_⟩
  · exact hauthors ▸ nodup_nil
  · intro q hq
    rw [hauthors] at hq
    cases hq
  · intro i hi
    cases hi
  · intro i hi
    cases hi
  · rintro q (⟨id, hid⟩ | ⟨x, hx, -⟩)
    · cases hid
    · cases hx
  · intro q e hqe
    cases hqe

/-- Nobody who is refused for a pause has changed a binding or taken over work. -/
theorem refused_changes_nothing {accepts : Registry → Bool} {registry : Registry} {paused : Bool}
    {acts : List (Act Event Outcome)} {s : System} {q : Nat}
    (hok : Permitted (supervisor accepts).step Considerate (System.init registry paused) acts)
    (hrun : run (supervisor accepts).step (System.init registry paused) acts = some s)
    (hrefused : (q, .launchesPaused) ∈ s.shared.2.rejected) : (∀ id, (q, id) ∉ s.shared.2.aborted) ∧
      ∀ x ∈ s.shared.2.writes, x.author = some q → x.after = x.before := by
  have hinit : (refusedSpec accepts).Inv (System.init registry paused) :=
    ((refusedSpec accepts).inv_idle rfl).mpr
      ⟨account_init registry paused, Progress.init_calm⟩
  have hinv := (refusedSpec accepts).safe_run hinit hok hrun
  have hbooked : ∃ current, Account current s.shared := by
    rcases hturn : s.turn with _ | ⟨task, p⟩
    · exact ⟨[], (((refusedSpec accepts).inv_idle hturn).mp hinv).1⟩
    · obtain ⟨u, hissue, -, hrely⟩ := ((refusedSpec accepts).inv_turn hturn).mp hinv
      rcases hissue with hfirst | hsecond
      · exact ⟨[task], (hrely.1 hfirst).account⟩
      · exact ⟨[], (hrely.2.1 hsecond).account⟩
  obtain ⟨current, haccount⟩ := hbooked
  have hclean := (haccount.rejected q .launchesPaused hrefused).2.2 rfl
  refine ⟨fun id hid => hclean (.inl ⟨id, hid⟩), fun x hx hauthor => ?_⟩
  by_contra hne
  exact hclean (.inr ⟨x, hx, hauthor, hne⟩)

/-- A stop that is refused by a pause, with its intent written before. -/
def refusedStop : List (Act Event Outcome) :=
  [.event (.stop none none), .event .intentBegin, .event (.intentEnd .ok), .begin, .reply .ok]

theorem refused_changes_nothing_stopped : ∃ s, run (supervisor fun _ => true).step
        (System.init [sampleBinding "one" false] true) refusedStop = some s ∧
      (1, .launchesPaused) ∈ s.shared.2.rejected ∧ (∀ id, (1, id) ∉ s.shared.2.aborted) ∧
        ∀ x ∈ s.shared.2.writes, x.author = some 1 → x.after = x.before := by
  obtain ⟨s, hs, hrefused⟩ := (any_eq_true _ _).mp
    (show (run (supervisor fun _ => true).step
      (System.init [sampleBinding "one" false] true) refusedStop).any
        (fun s => (1, .launchesPaused) ∈ s.shared.2.rejected) by decide)
  have hrefused := of_decide_eq_true hrefused
  exact ⟨s, hs, hrefused, refused_changes_nothing (by decide) hs hrefused⟩

theorem refused_stop_disables : ¬ ∀ (accepts : Registry → Bool) registry paused acts s q,
      run (supervisor accepts).step (System.init registry paused) acts = some s →
      (q, .launchesPaused) ∈ s.shared.2.rejected → (∀ id, (q, id) ∉ s.shared.2.aborted) ∧
        ∀ x ∈ s.shared.2.writes, x.author = some q → x.after = x.before := by
  intro h
  have hrun := h (fun _ => true) [sampleBinding "one" true] true refusedStop _ 1 rfl
    (by decide)
  exact absurd (hrun.2 _ mem_cons_self rfl) (by decide)

end Coforge.Supervisor
