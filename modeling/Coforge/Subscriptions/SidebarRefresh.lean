import Coforge.Lib.Run
import Coforge.Subscriptions.Gap

/-!
# The queue of the sidebar's re-reads

The promises of the batches, in the order the batches were made: `running` is the `done.catch` of
the last one, which the callback of the next one waits for, and `queued` is the last one or nothing.
-/

namespace Coforge.Subscriptions.Sidebar

open Transition List

/-- Where `done` of a batch is: its callback is to come, its read runs, the read has ended, `done`
has settled with it, and the callback of `done.catch` has run. -/
inductive Phase where
  | waiting
  | reading
  | answered (ok : Bool)
  | settled (ok : Bool)
  | released (ok : Bool)

/-- How much of a batch is still to come. -/
def Phase.left : Phase → ℕ
  | .waiting    => 4
  | .reading    => 3
  | .answered _ => 2
  | .settled _  => 1
  | .released _ => 0

structure Batch where
  lists : List ChatList
  phase : Phase

inductive Event where
  | called (i : ℕ) (named : List ChatList)
  | read (i : ℕ) (lists : List ChatList)
  | answered (i : ℕ) (ok : Bool)
  | settled (i : ℕ) (ok : Bool)
  deriving DecidableEq

def Event.batch : Event → ℕ
  | .called i _ | .read i _ | .answered i _ | .settled i _ => i

structure State where
  batches : List Batch
  queued : Bool
  log : List Event

def init : State := ⟨[], false, []⟩

/-- `Set.add`, one list after the other. -/
def addAll : List ChatList → List ChatList → List ChatList :=
  List.foldl fun lists list => if list ∈ lists then lists else lists ++ [list]

/-- A batch waits, made if there is none. -/
def State.ensureQueued (s : State) : State :=
  if s.queued then s else { s with batches := s.batches ++ [⟨[], .waiting⟩], queued := true }

def State.last (s : State) : ℕ := s.batches.length - 1

/-- The call is given the promise of the batch that waits. -/
def State.call (s : State) (named : List ChatList) : State :=
  let s := s.ensureQueued
  { s with
    batches := s.batches.modify s.last fun b => { b with lists := addAll b.lists named }
    log := s.log ++ [.called s.last named] }

def State.enter (s : State) (i : ℕ) (b : Batch) (phase : Phase) (events : List Event) : State :=
  { s with batches := s.batches.set i { b with phase }, log := s.log ++ events }

/-- The promise that a batch's callback waits for is resolved. -/
def State.IsFree (s : State) (i : ℕ) : Prop := ∀ c ∈ s.batches[i - 1]?, i = 0 ∨ c.phase.left = 0

instance (s : State) (i : ℕ) : Decidable (s.IsFree i) :=
  inferInstanceAs (Decidable (∀ c ∈ s.batches[i - 1]?, i = 0 ∨ c.phase.left = 0))

/-- The next callback of a batch. -/
def State.callback (s : State) (i : ℕ) : Option State :=
  (s.batches[i]?).bind fun b =>
    match b.phase with
    | .waiting     =>
      if s.IsFree i then some { s.enter i b .reading [.read i b.lists] with queued := false }
      else none
    | .answered ok => some (s.enter i b (.settled ok) [.settled i ok])
    | .settled ok  => some (s.enter i b (.released ok) [])
    | _            => none

/-- The read of a batch ends, or fails. -/
def State.answer (s : State) (i : ℕ) (ok : Bool) : Option State :=
  (s.batches[i]?).bind fun b =>
    match b.phase with
    | .reading => some (s.enter i b (.answered ok) [.answered i ok])
    | _        => none

inductive Label where
  | call (named : List ChatList)
  | callback (i : ℕ)
  | answer (i : ℕ) (ok : Bool)

def step (s : State) : Label → Option State
  | .call named  => some (s.call named)
  | .callback i  => s.callback i
  | .answer i ok => s.answer i ok

/-! ### What has happened with a batch -/

/-- What is over of a batch, but the calls. -/
def Batch.past (i : ℕ) (b : Batch) : List Event :=
  match b.phase with
  | .waiting                   => []
  | .reading                   => [.read i b.lists]
  | .answered ok               => [.read i b.lists, .answered i ok]
  | .settled ok | .released ok => [.read i b.lists, .answered i ok, .settled i ok]

/-- Its calls named lists of the batch, and were all made before the rest happened. -/
def Batch.Told (i : ℕ) (log : List Event) (b : Batch) : Prop :=
  ∃ calls : List (List ChatList), (∀ named ∈ calls, named ⊆ b.lists) ∧
    log.filter (fun e => e.batch = i) = calls.map (.called i) ++ b.past i

/-- Only the last batch waits, and none has begun before those made earlier are over. -/
structure State.Ordered (s : State) : Prop where
  queued : s.queued → s.batches ≠ []
  waiting : ∀ (i : ℕ), ∀ b ∈ s.batches[i]?,
    (b.phase.left = 4 ↔ s.queued ∧ i + 1 = s.batches.length)
  released : ∀ (i j : ℕ), i < j → ∀ b ∈ s.batches[i]?, ∀ c ∈ s.batches[j]?, c.phase.left < 4 →
    b.phase.left = 0
  known : ∀ e ∈ s.log, e.batch < s.batches.length
  told : ∀ (i : ℕ), ∀ b ∈ s.batches[i]?, b.Told i s.log

variable {s t : State} {i : ℕ} {b : Batch}

lemma subset_addAll (lists named : List ChatList) :
    lists ⊆ addAll lists named ∧ named ⊆ addAll lists named := by
  induction named generalizing lists with
  | nil => exact ⟨Subset.refl _, nil_subset _⟩
  | cons list named ih =>
    obtain ⟨hlists, hnamed⟩ := ih (if list ∈ lists then lists else lists ++ [list])
    have hadd : lists ++ [list] ⊆ (if list ∈ lists then lists else lists ++ [list]) := by
      split_ifs with hmem
      · exact append_subset.mpr ⟨Subset.refl _, cons_subset.mpr ⟨hmem, nil_subset _⟩⟩
      · exact Subset.refl _
    obtain ⟨hold, hnew⟩ := append_subset.mp (Subset.trans hadd hlists)
    exact ⟨hold, cons_subset.mpr ⟨hnew (mem_singleton_self _), hnamed⟩⟩

lemma lt_length (hb : b ∈ s.batches[i]?) : i < s.batches.length :=
  (List.getElem?_eq_some_iff.mp hb).1

lemma State.Ordered.ensureQueued (h : s.Ordered) :
    s.ensureQueued.Ordered ∧ s.ensureQueued.queued := by
  rw [State.ensureQueued]
  split_ifs with hqueued
  · exact ⟨h, hqueued⟩
  · have hnew {i : ℕ} {b : Batch} (hb : b ∈ (s.batches ++ [⟨[], .waiting⟩])[i]?) :
        b ∈ s.batches[i]? ∨ i = s.batches.length ∧ b = ⟨[], .waiting⟩ := by
      rcases lt_or_ge i s.batches.length with hlt | hge
      · exact .inl (by rwa [getElem?_append_left hlt] at hb)
      · rw [getElem?_append_right hge, getElem?_singleton] at hb
        split_ifs at hb with hi
        · exact .inr ⟨by omega, (Option.some.inj hb).symm⟩
        · cases hb
    refine ⟨⟨fun _ => by simp, fun i b hb => ?_, fun i j hlt b hb c hc hbegun => ?_, fun e he => ?_,
      fun i b hb => ?_⟩, rfl⟩
    · rw [length_append]
      rcases hnew hb with hb | ⟨rfl, rfl⟩
      · have hlt := lt_length hb
        rw [h.waiting i b hb]
        exact iff_of_false (fun hw => hqueued hw.1) fun hw => by simp at hw; omega
      · exact iff_of_true rfl ⟨rfl, rfl⟩
    · rcases hnew hc with hc | ⟨rfl, rfl⟩
      · rcases hnew hb with hb | ⟨rfl, rfl⟩
        · exact h.released i j hlt b hb c hc hbegun
        · exact absurd (lt_length hc) (by omega)
      · exact absurd hbegun (lt_irrefl 4)
    · rw [length_append]
      exact Nat.lt_add_right _ (h.known e he)
    · rcases hnew hb with hb | ⟨rfl, rfl⟩
      · exact h.told i b hb
      · refine ⟨[], nofun, filter_eq_nil_iff.mpr fun e he => ?_⟩
        simpa using (h.known e he).ne

/-- A batch moves on, or takes in lists while it waits. -/
lemma State.Ordered.update (h : s.Ordered) (hb : b ∈ s.batches[i]?) {b' : Batch} {queued : Bool}
    {events : List Event} (hqueued : queued ↔ s.queued ∧ (b.phase.left = 4 → b'.phase.left = 4))
    (hle : b'.phase.left ≤ b.phase.left) (hevents : ∀ e ∈ events, e.batch = i)
    (hfree : b'.phase.left < 4 → ∀ j < i, ∀ c ∈ s.batches[j]?, c.phase.left = 0)
    (htold : b.Told i s.log → b'.Told i (s.log ++ events)) :
    State.Ordered ⟨s.batches.set i b', queued, s.log ++ events⟩ := by
  have hget {j : ℕ} {c : Batch} (hc : c ∈ (s.batches.set i b')[j]?) :
      j = i ∧ c = b' ∨ j ≠ i ∧ c ∈ s.batches[j]? := by
    rw [getElem?_set] at hc
    split_ifs at hc with hij
    · exact .inl ⟨hij.symm, (Option.some.inj hc).symm⟩
    · cases hc
    · exact .inr ⟨fun heq => hij heq.symm, hc⟩
  refine ⟨fun hq => ?_, fun j c hc => ?_, fun j k hjk c hc d hd hbegun => ?_, fun e he => ?_,
    fun j c hc => ?_⟩
  · simpa using h.queued (hqueued.mp hq).1
  · rw [hqueued, length_set]
    have hwaiting := h.waiting i b hb
    rcases hget hc with ⟨rfl, rfl⟩ | ⟨hne, hc'⟩
    · have : b.phase.left ≤ 4 := by cases b.phase <;> simp [Phase.left]
      grind
    · rw [h.waiting j c hc']
      grind
  · rcases hget hd with ⟨rfl, rfl⟩ | ⟨-, hd'⟩
    · exact hfree hbegun j hjk c (((hget hc).resolve_left fun heq => by omega).2)
    · rcases hget hc with ⟨rfl, rfl⟩ | ⟨-, hc'⟩
      · have hover := h.released j k hjk b hb d hd' hbegun
        omega
      · exact h.released j k hjk c hc' d hd' hbegun
  · rw [length_set]
    rcases mem_append.mp he with he | he
    · exact h.known e he
    · rw [hevents e he]
      exact lt_length hb
  · rcases hget hc with ⟨rfl, rfl⟩ | ⟨hne, hc'⟩
    · exact htold (h.told j b hb)
    · obtain ⟨calls, hcalls, hlog⟩ := h.told j c hc'
      have hnone : events.filter (fun e => e.batch = j) = [] :=
        filter_eq_nil_iff.mpr fun e he => by simpa [hevents e he] using hne.symm
      exact ⟨calls, hcalls, by rw [filter_append, hnone, append_nil, hlog]⟩

lemma State.Ordered.call (h : s.Ordered) (named : List ChatList) : (s.call named).Ordered := by
  obtain ⟨hordered, hqueued⟩ := h.ensureQueued
  rw [State.call]
  generalize s.ensureQueued = s at hordered hqueued
  have hlt : s.last < s.batches.length :=
    Nat.sub_lt (length_pos_iff.mpr (hordered.queued hqueued)) Nat.one_pos
  have hb := getElem?_eq_getElem hlt
  have hwaiting := (hordered.waiting _ _ hb).mpr ⟨hqueued, by grind [State.last]⟩
  simp only [modify_eq_set_get _ hlt]
  refine hordered.update hb (by simp [hqueued]) le_rfl (by simp [Event.batch])
    (fun hbegun => absurd hwaiting hbegun.ne) ?_
  rintro ⟨calls, hcalls, hlog⟩
  obtain ⟨hlists, hnamed⟩ := subset_addAll s.batches[s.last].lists named
  refine ⟨calls ++ [named], fun n hn => ?_, ?_⟩
  · rcases mem_append.mp hn with hn | hn
    · exact Subset.trans (hcalls n hn) hlists
    · rwa [mem_singleton.mp hn]
  · rw [filter_append, hlog]
    cases hphase : s.batches[s.last].phase <;> simp_all [Batch.past, Event.batch, Phase.left]

/-- What a callback or the end of a read does. -/
lemma step_cases {l : Label} (hstep : step s l = some t) :
    (∃ named, l = .call named ∧ t = s.call named) ∨
    (∀ named, l ≠ .call named) ∧ ∃ i, ∃ b ∈ s.batches[i]?, ∃ phase events,
      phase.left < b.phase.left ∧ (b.phase.left = 4 → s.IsFree i) ∧ (∀ e ∈ events, e.batch = i) ∧
      Batch.past i { b with phase } = b.past i ++ events ∧
      t = { s.enter i b phase events with queued := s.queued && b.phase.left ≠ 4 } := by
  cases l with
  | call named =>
    cases hstep
    exact .inl ⟨named, rfl, rfl⟩
  | callback i =>
    obtain ⟨b, hb, hstep⟩ := Option.bind_eq_some_iff.mp hstep
    refine .inr ⟨nofun, i, b, hb, ?_⟩
    cases hphase : b.phase with
    | waiting =>
      simp only [hphase] at hstep
      split_ifs at hstep with hfree
      cases hstep
      refine ⟨.reading, [.read i b.lists], ?_, fun _ => hfree, ?_⟩ <;>
        simp [hphase, Batch.past, Event.batch, Phase.left]
    | answered ok =>
      simp only [hphase] at hstep
      cases hstep
      refine ⟨.settled ok, [.settled i ok], ?_⟩
      simp [hphase, Batch.past, Event.batch, Phase.left, State.enter]
    | settled ok =>
      simp only [hphase] at hstep
      cases hstep
      refine ⟨.released ok, [], ?_⟩
      simp [hphase, Batch.past, Phase.left, State.enter]
    | _ =>
      simp only [hphase] at hstep
      cases hstep
  | answer i ok =>
    obtain ⟨b, hb, hstep⟩ := Option.bind_eq_some_iff.mp hstep
    refine .inr ⟨nofun, i, b, hb, .answered ok, [.answered i ok], ?_⟩
    cases hphase : b.phase <;> simp only [hphase] at hstep <;> cases hstep
    simp [hphase, Batch.past, Event.batch, Phase.left, State.enter]

lemma ordered_step {l : Label} (h : s.Ordered) (hstep : step s l = some t) : t.Ordered := by
  rcases step_cases hstep with ⟨named, -, rfl⟩ |
    ⟨-, i, b, hb, phase, events, hleft, hfree, hevents, hpast, rfl⟩
  · exact h.call named
  · have hle : b.phase.left ≤ 4 := by cases b.phase <;> simp [Phase.left]
    refine h.update hb ?_ hleft.le hevents (fun _ j hj c hc => ?_) ?_
    · simp only [Bool.and_eq_true, decide_eq_true_eq]
      exact and_congr_right fun _ => ⟨fun hne heq => absurd heq hne, fun himp heq => by grind⟩
    · rcases hle.lt_or_eq with hbegun | hwaiting
      · exact h.released j i hj c hc b hb hbegun
      · have hlt : i - 1 < s.batches.length := by
          have := lt_length hb
          omega
        have hd := getElem?_eq_getElem hlt
        have hover := (hfree hwaiting _ hd).resolve_left (by omega)
        rcases Nat.lt_or_eq_of_le (show j ≤ i - 1 by omega) with hj | rfl
        · exact h.released j _ hj c hc _ hd (by omega)
        · rwa [Option.some.inj (hc.symm.trans hd)]
    · rintro ⟨calls, hcalls, hlog⟩
      refine ⟨calls, hcalls, ?_⟩
      have hall : events.filter (fun e => e.batch = i) = events :=
        filter_eq_self.mpr fun e he => decide_eq_true (hevents e he)
      rw [filter_append, hlog, hall, hpast, append_assoc]

lemma ordered_run {ls : List Label} (hrun : run step init ls = some s) : s.Ordered :=
  invariant (fun _ _ _ h _ hstep => ordered_step h hstep)
    ⟨by simp [init], by simp [init], by simp [init], by simp [init], by simp [init]⟩
    (@permitted_of_forall _ _ step (fun _ _ => True) (fun _ _ => trivial) init ls) hrun

/-! ### Every call is covered -/

def State.work (s : State) : ℕ := (s.batches.map fun b => b.phase.left).sum

lemma work_set {batches : List Batch} {b' : Batch} (hb : batches[i]? = some b)
    (hleft : b'.phase.left < b.phase.left) : ((batches.set i b').map fun b => b.phase.left).sum <
      (batches.map fun b => b.phase.left).sum := by
  induction batches generalizing i with
  | nil => cases hb
  | cons c batches ih =>
    cases i with
    | zero =>
      cases hb
      simpa using hleft
    | succ i => simpa using ih hb

lemma settled_mem_past {ok : Bool} (h : .settled i ok ∈ b.past i) :
    b.past i = [.read i b.lists, .answered i ok, .settled i ok] := by
  rw [Batch.past] at h ⊢
  cases hphase : b.phase <;> simp_all

/-- What happened with a batch after one of its calls ends with all that is over of it. -/
lemma Batch.Told.after {earlier later : List Event} {named : List ChatList}
    (h : b.Told i (earlier ++ .called i named :: later)) : named ⊆ b.lists ∧
      (∀ lists, .read i lists ∉ earlier) ∧ b.past i <+ later := by
  obtain ⟨calls, hcalls, hlog⟩ := h
  have hpast : .called i named ∉ b.past i := by
    rw [Batch.past]
    cases b.phase <;> simp
  rw [filter_append, filter_cons_of_pos (by simp [Event.batch])] at hlog
  rcases append_eq_append_iff.mp hlog with ⟨rest, hmap, hrest⟩ | ⟨rest, -, hrest⟩
  · cases rest with
    | nil =>
      rw [nil_append] at hrest
      exact absurd (hrest ▸ mem_cons_self) hpast
    | cons e rest =>
      obtain ⟨rfl, hlater : later.filter _ = rest ++ _⟩ := cons_eq_cons.mp hrest
      refine ⟨?_, fun lists hread => ?_, ?_⟩
      · have hmem : Event.called i named ∈ calls.map (.called i) := by simp [hmap]
        obtain ⟨named', hcall, hsame⟩ := mem_map.mp hmem
        cases hsame
        exact hcalls named hcall
      · have hmem : Event.read i lists ∈ calls.map (.called i) := by
          rw [hmap]
          exact mem_append_left _ (mem_filter.mpr ⟨hread, by simp [Event.batch]⟩)
        simp at hmem
      · exact (sublist_append_right rest _).trans (hlater.symm ▸ filter_sublist)
  · exact absurd (hrest ▸ mem_append_right _ mem_cons_self) hpast

/-- The earliest batch that is not over can go on, however its read ends. -/
lemma progress (hb : b ∈ s.batches[i]?) (hleft : 0 < b.phase.left) :
    ∃ j, (s.callback j).isSome ∨ ∀ ok, (s.answer j ok).isSome := by
  induction i using Nat.strong_induction_on generalizing b with
  | _ i ih =>
    by_cases hfree : s.IsFree i
    · refine ⟨i, ?_⟩
      cases hphase : b.phase with
      | reading => exact .inr fun ok => by simp [State.answer, hb.out, hphase]
      | released ok =>
        rw [hphase] at hleft
        cases hleft
      | _ => exact .inl (by simp [State.callback, hb.out, hphase, hfree])
    · simp only [State.IsFree, not_forall, not_or] at hfree
      obtain ⟨c, hc, hi, hpos⟩ := hfree
      exact ih (i - 1) (by omega) hc (by omega)

/-- Each call is settled only by a read that began after it and reads every list that it named; as
long as it is not settled there is a callback to run or a read that may end either way, and both are
bounded; and at most one batch is read and at most one waits. -/
structure State.Covers (s : State) : Prop where
  covered : ∀ earlier later i named, s.log = earlier ++ .called i named :: later →
    (∀ ok, .settled i ok ∈ s.log → ∃ lists : List ChatList, named ⊆ lists ∧
      (∀ lists, .read i lists ∉ earlier) ∧
      [.read i lists, .answered i ok, .settled i ok] <+ later) ∧
    ((∃ ok, .settled i ok ∈ s.log) ∨ ∃ j, (s.callback j).isSome ∨ ∀ ok, (s.answer j ok).isSome)
  single : ∀ (i j : ℕ), ∀ b ∈ s.batches[i]?, ∀ c ∈ s.batches[j]?, b.phase.left = c.phase.left →
    b.phase = .reading ∨ b.phase = .waiting → i = j
  bounded : ∀ l t, (∀ named, l ≠ .call named) → step s l = some t → t.work < s.work

/-- However the reads end and wherever the calls fall, none is lost. -/
theorem sidebarRefreshQueue_covers {ls : List Label} (hrun : run step init ls = some s) :
    s.Covers := by
  have h := ordered_run hrun
  refine ⟨fun earlier later i named hlog => ?_, fun i j b hb c hc hsame hphase => ?_,
    fun l t hl hstep => ?_⟩
  · have hlt : i < s.batches.length := h.known (.called i named) (by simp [hlog])
    have hb := getElem?_eq_getElem hlt
    have htold := h.told i _ hb
    obtain ⟨hnamed, hearlier, hlater⟩ := (hlog ▸ htold).after
    have hmem (ok : Bool) : .settled i ok ∈ s.log ↔ .settled i ok ∈ s.batches[i].past i := by
      obtain ⟨calls, -, hfilter⟩ := htold
      have hiff := congrArg (Event.settled i ok ∈ ·) hfilter
      simpa [Event.batch] using hiff
    refine ⟨fun ok hsettled => ?_, ?_⟩
    · rw [settled_mem_past ((hmem ok).mp hsettled)] at hlater
      exact ⟨_, hnamed, hearlier, hlater⟩
    · rcases Nat.eq_zero_or_pos s.batches[i].phase.left with hover | hpos
      · simp only [hmem, Batch.past]
        cases hphase : s.batches[i].phase <;> simp_all [Phase.left]
      · exact .inr (progress hb hpos)
  · have hlt {i j : ℕ} {b c : Batch} (hb : b ∈ s.batches[i]?) (hc : c ∈ s.batches[j]?)
        (hsame : b.phase.left = c.phase.left) (hphase : b.phase.left = 3 ∨ b.phase.left = 4) :
        ¬i < j := by
      intro hij
      have hbegun := h.released i j hij b hb c hc
      have hlast := (h.waiting i b hb).mp
      have := lt_length hc
      omega
    have hphase : b.phase.left = 3 ∨ b.phase.left = 4 := by
      rcases hphase with hphase | hphase <;> simp [hphase, Phase.left]
    have := hlt hb hc hsame hphase
    have := hlt hc hb hsame.symm (hsame ▸ hphase)
    omega
  · rcases step_cases hstep with ⟨named, rfl, -⟩ | ⟨-, i, b, hb, phase, events, hleft, -, -, -, rfl⟩
    · exact absurd rfl (hl named)
    · exact work_set hb hleft

/-- A read fails while a call waits. -/
def failing : List Label :=
  [.call [.channels], .callback 0, .call [.saved], .answer 0 false, .callback 0, .callback 0,
    .callback 1, .answer 1 true, .callback 1]

theorem sidebarRefreshQueue_covers_failing :
    ∃ s, run step init failing = some s ∧ .settled 1 true ∈ s.log ∧ s.Covers :=
  ⟨_, rfl, by decide, @sidebarRefreshQueue_covers _ failing rfl⟩

end Coforge.Subscriptions.Sidebar
