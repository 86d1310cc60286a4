import Coforge.Supervisor.Work
import Mathlib

/-!
# What the view of a paused machine reports

The view of a paused machine reports the Workspaces that are tracked, or that a request has
marked. Work that is neither is not seen: a reconcile between two Workspaces, a stop, a start of a
Workspace that its request did not find. And a stop writes its intent whether the machine is
paused or not.

`Conclusive` is the condition that a view misses nothing of this kind, and that nothing of this
kind is asked for while the view counts.
-/

namespace Coforge.Supervisor

open Async Transition List Option Machine
open Async.Prog hiding throw

/-! ### Flags -/

section Flags

variable {registry other : Registry} {id : String}

lemma flags_eq_some {enabled : Bool} (h : flags registry id = some enabled) :
    ∃ b ∈ registry, b.workspaceId = id ∧ b.enabled = enabled := by
  obtain ⟨b, hfind, henabled⟩ := map_eq_some_iff.mp h
  obtain ⟨hb, hid⟩ := Registry.mem_of_find hfind
  exact ⟨b, hb, hid, henabled⟩

lemma flags_replace (b : ManagedBinding) :
    flags (registry.replace b) = Function.update (flags registry) b.workspaceId (some b.enabled) := by
  funext id
  have hkept {bs : List ManagedBinding}
      (h : Sublist bs (filter (fun c => c.workspaceId ≠ b.workspaceId) registry)) :
      bs.find? (fun c => c.workspaceId = b.workspaceId) = none := by
    rw [find?_eq_none]
    intro c hc
    simpa using (mem_filter.mp (h.mem hc)).2
  by_cases hid : id = b.workspaceId
  · subst hid
    rw [Function.update_self, flags, Registry.find, Registry.replace, find?_append,
      hkept (take_sublist _ _), none_or,
      find?_cons_of_pos (by simp), map_some]
  · rw [Function.update_of_ne hid, flags, flags, Registry.find, Registry.find, Registry.replace,
      find?_append, find?_cons_of_neg (by simpa using Ne.symm hid), ← find?_append,
      take_append_drop, find?_filter]
    congr 2
    funext c
    by_cases hc : c.workspaceId = id
    · simp [hc, hid]
    · simp [hc]

lemma flags_map {f : ManagedBinding → ManagedBinding} (hf : ∀ b, (f b).workspaceId = b.workspaceId) :
    flags (registry.map f) id = (registry.find id).map fun b => (f b).enabled := by
  have hcomp : ((fun b : ManagedBinding => decide (b.workspaceId = id)) ∘ f) =
      fun b => decide (b.workspaceId = id) := funext fun b => by simp [hf]
  rw [flags, Registry.find, find?_map, hcomp, Option.map_map]
  rfl

lemma flags_eq_iff : flags registry = flags other ↔
      ∀ b ∈ registry ++ other, flags registry b.workspaceId = flags other b.workspaceId := by
  refine ⟨fun h b _ => congrFun h _, fun h => funext fun id => ?_⟩
  have hnone {r : Registry} (hr : ∀ b ∈ r, b.workspaceId ≠ id) : flags r id = none := by
    rw [flags, map_eq_none_iff, Registry.find, find?_eq_none]
    intro b hb
    simpa using hr b hb
  by_cases hmem : ∃ b ∈ registry ++ other, b.workspaceId = id
  · obtain ⟨b, hb, rfl⟩ := hmem
    exact h b hb
  · have hnot : ∀ b ∈ registry ++ other, b.workspaceId ≠ id := fun b hb hid => hmem ⟨b, hb, hid⟩
    rw [hnone fun b hb => hnot b (mem_append_left _ hb),
      hnone fun b hb => hnot b (mem_append_right _ hb)]

instance : Decidable (flags registry = flags other) := decidable_of_iff' _ flags_eq_iff

end Flags

/-! ### The condition -/

/-- The Workspaces a task has marked when it was requested. -/
def Task.marks : Task → List String
  | .configure config _ _ => [config.workspaceId]
  | .command c            => c.marks
  | _                     => []

/-- A task that records something and has no part in lifecycle work. -/
def Task.isRecord : Task → Bool
  | .recordUpgrade _ _ _ | .completeUpgrade _ _ _ | .acknowledgeUpgrade _ _
  | .recordFailure _ _ _ | .snapshot => true
  | _ => false

/-- A view shows what the operation in its turn has still to do: nothing, or no more than it has
marked. A stop whose intent is still to be answered has done nothing, and will be refused. -/
def Task.Shows (w : World) : Task → Prop
  | .recover | .reconcile | .resume | .shutdown => False
  | .configure _ _ _ => True
  | .command c =>
    if c.operation = .stop then ∃ i ∈ w.1.intents, i.sequence = c.sequence
    else w.1.progress.targets ≠ none ∧ ∀ id ∈ c.unhandled w.1.progress, id ∈ w.1.marked
  | _ => w.2.intentWritten = false

instance (w : World) : ∀ task : Task, Decidable (task.Shows w)
  | .recover | .reconcile | .resume | .shutdown => isFalse id
  | .configure _ _ _ => isTrue trivial
  | .command c => inferInstanceAs (Decidable (if c.operation = .stop then _ else _))
  | .recordUpgrade _ _ _ | .completeUpgrade _ _ _ | .acknowledgeUpgrade _ _
  | .recordFailure _ _ _ | .snapshot => inferInstanceAs (Decidable (w.2.intentWritten = false))

/-- A view begins when what is marked is registered. It is over when the operation in its turn
shows what it does, when no write of an intent is on its way or has anything to change, and when
the store is not in doubt. While it counts, a stop is requested of stopped Workspaces only. -/
def Conclusive (s : System) : Act Event Outcome → Prop
  | .event .view => ∀ id ∈ s.shared.1.marked, (s.shared.1.bindings.find id).isSome
  | .event .viewed =>
    (∀ turn ∈ s.turn, turn.1.Shows s.shared) ∧
      (∀ i ∈ s.shared.1.intents, i.isWriting = false) ∧
      (∀ b ∈ s.shared.1.bindings, s.shared.1.stopIntended b.workspaceId → b.enabled = false) ∧
      flags s.shared.1.disk = flags s.shared.1.bindings
  | .event (.stop workspaceId _) =>
    s.shared.2.observed.isNone ∨
      ∀ b ∈ s.shared.1.targets .stop (scopeOf workspaceId), b.enabled = false
  | _ => True

instance (s : System) : ∀ a, Decidable (Conclusive s a)
  | .event .view => inferInstanceAs (Decidable (∀ id ∈ s.shared.1.marked, _))
  | .event .viewed => inferInstanceAs (Decidable (_ ∧ _ ∧ _ ∧ _))
  | .event (.stop _ _) => inferInstanceAs (Decidable (_ ∨ _))
  | .event (.start _ _) | .event (.restart _ _ _) | .event (.configure _ _) | .event .reconcile
  | .event (.recordUpgrade _ _ _) | .event (.completeUpgrade _ _ _)
  | .event (.acknowledgeUpgrade _ _) | .event .snapshot | .event .resume | .event .shutdown
  | .event .pause | .event .intentBegin | .event (.intentUnread _) | .event (.intentEnd _)
  | .event (.sight _) | .event (.tick _) | .begin | .reply _ => isTrue trivial

/-- The effect starts or stops the process of a Workspace. -/
def Effect.movesProcess : Effect → Bool
  | .start _ | .stop _ => true
  | _ => false

/-- Since a view has reported nothing under way, the flags are those of that view, and no process
is being started or stopped. -/
def Still (s : System) : Prop :=
  ∀ base, s.shared.2.observed = some base →
    flags s.shared.1.bindings = base ∧ flags s.shared.1.disk = base ∧
      ∀ turn ∈ s.turn, turn.2.effect.movesProcess = false

/-! ### What a view has seen -/

/-- The flags are `base`, and no intent on its way changes them. -/
structure Steady (base : String → Option Bool) (s : Machine) : Prop where
  bindings : flags s.bindings = base
  disk : flags s.disk = base
  writing : ∀ i ∈ s.intents, ∀ before next, i.phase = .writing before next → flags next = base
  stopped : ∀ id, s.stopIntended id → base id ≠ some true

/-- What is known in every state: about a view that counts, a view in progress, and the marks and
sequences of what is in the queue. -/
structure Booked (w : World) : Prop where
  steady : ∀ base, w.2.observed = some base → w.1.paused ∧ Steady base w.1
  viewing : w.2.viewing.isSome → w.1.paused
  marks : ∀ id, (w.1.pending.flatMap Task.marks).count id + w.1.marked.count id ≤
    w.1.underWay.count id
  recovered : w.1.paused → .recover ∉ w.1.pending
  sequences : ∀ c, .command c ∈ w.1.pending → c.sequence ≤ w.1.sequence

/-- A view in progress has still to report what the operation in its turn has marked. -/
structure Shown (w : World) : Prop extends Booked w where
  shown : ∀ ids, w.2.viewing = some ids → ∀ id ∈ w.1.marked, id ∈ ids

/-- The queue, the marks and the view are as they were. -/
structure SameQueue (w w' : World) : Prop where
  pending : w'.1.pending = w.1.pending := by rfl
  marked : w'.1.marked = w.1.marked := by rfl
  underWay : w'.1.underWay = w.1.underWay := by rfl
  paused : w'.1.paused = w.1.paused := by rfl
  sequence : w'.1.sequence = w.1.sequence := by rfl
  progress : w'.1.progress = w.1.progress := by rfl
  observed : w'.2.observed = w.2.observed := by rfl
  viewing : w'.2.viewing = w.2.viewing := by rfl

lemma SameQueue.of_same {w w' : World}
    (h : (w'.1.pending, w'.1.marked, w'.1.underWay, w'.1.paused, w'.1.sequence, w'.1.progress,
        w'.2.observed, w'.2.viewing) =
      (w.1.pending, w.1.marked, w.1.underWay, w.1.paused, w.1.sequence, w.1.progress,
        w.2.observed, w.2.viewing)) : SameQueue w w' := by
  simp only [Prod.mk.injEq] at h
  obtain ⟨hpending, hmarked, hunderWay, hpaused, hsequence, hprogress, hobserved, hviewing⟩ := h
  exact ⟨hpending, hmarked, hunderWay, hpaused, hsequence, hprogress, hobserved, hviewing⟩

section Views

variable {base : String → Option Bool} {s : Machine} {w w' : World}

lemma Steady.setIntent {sequence : Nat} {phase : IntentPhase} (h : Steady base s)
    (hphase : ∀ before next, phase = .writing before next → flags next = base) :
    Steady base (s.setIntent sequence phase) where
  bindings := h.bindings
  disk := h.disk
  writing i hi before next hi' := by
    obtain ⟨j, hj, rfl⟩ := mem_map.mp hi
    split_ifs at hi'
    · exact hphase before next hi'
    · exact h.writing j hj before next hi'
  stopped := h.stopped

lemma Steady.release {workspaceIds : List String} {sequence : Nat} (h : Steady base s) :
    Steady base (s.releaseStopIntents workspaceIds sequence) where
  bindings := h.bindings
  disk := h.disk
  writing := h.writing
  stopped id hid := by
    apply h.stopped id
    simp only [stopIntended, releaseStopIntents] at hid ⊢
    split_ifs at hid
    · cases hid
    · exact hid

lemma Steady.failIntent {i : StopIntent} {message : String} (h : Steady base s) :
    Steady base (s.failIntent i message) := by
  have hset : Steady base (s.setIntent i.sequence (.done (some message))) :=
    h.setIntent fun _ _ h => nomatch h
  exact hset.release

lemma Steady.reloaded (h : Steady base s) : Steady base s.reloaded := by
  rw [Machine.reloaded]
  split_ifs
  · exact ⟨h.disk, h.disk, h.writing, h.stopped⟩
  · exact h

lemma flags_intended (h : Steady base s) : flags s.intended = base := by
  funext id
  have hid (b : ManagedBinding) : (s.toStore b).workspaceId = b.workspaceId := by
    rw [toStore]
    split_ifs <;> simp
  rw [intended, flags_map hid, ← h.bindings, flags]
  cases hfind : s.bindings.find id with
  | none => rfl
  | some b =>
    rw [map_some, map_some, toStore]
    split_ifs with hstop
    · have hne := h.stopped _ hstop
      rw [(Registry.mem_of_find hfind).2, ← h.bindings, flags, hfind] at hne
      rw [ManagedBinding.stopped_enabled]
      cases henabled : b.enabled with
      | true => exact absurd (by rw [map_some, henabled]) hne
      | false => rfl
    · rfl

lemma Booked.beside (h : Booked w) (hsame : SameQueue w w')
    (hsteady : ∀ base, w.2.observed = some base → Steady base w.1 → Steady base w'.1) : Booked w' where
  steady base hbase := by
    obtain ⟨hpaused, hs⟩ := h.steady base (hsame.observed ▸ hbase)
    exact ⟨hsame.paused ▸ hpaused, hsteady base (hsame.observed ▸ hbase) hs⟩
  viewing hview := hsame.paused ▸ h.viewing (hsame.viewing ▸ hview)
  marks := by
    rw [hsame.pending, hsame.marked, hsame.underWay]
    exact h.marks
  recovered := by
    rw [hsame.paused, hsame.pending]
    exact h.recovered
  sequences := by
    rw [hsame.pending, hsame.sequence]
    exact h.sequences

lemma Shown.beside (h : Shown w) (hsame : SameQueue w w')
    (hsteady : ∀ base, w.2.observed = some base → Steady base w.1 → Steady base w'.1) : Shown w' where
  toBooked := h.toBooked.beside hsame hsteady
  shown := by
    rw [hsame.viewing, hsame.marked]
    exact h.shown

lemma Shown.request {task : Task} (h : Shown w) (hpending : w'.1.pending = w.1.pending ++ [task])
    (hunderWay : w'.1.underWay = w.1.underWay ++ task.marks) (hrecover : task ≠ .recover)
    (hmarked : w'.1.marked = w.1.marked) (hpaused : w'.1.paused = w.1.paused)
    (hsequence : w.1.sequence ≤ w'.1.sequence)
    (hnew : ∀ c, task = .command c → c.sequence ≤ w'.1.sequence)
    (hobserved : w'.2.observed = w.2.observed) (hviewing : w'.2.viewing = w.2.viewing)
    (hsteady : ∀ base, w.2.observed = some base → Steady base w.1 → Steady base w'.1) :
    Shown w' where
  steady base hbase := by
    rw [hobserved] at hbase
    obtain ⟨hp, hs⟩ := h.steady base hbase
    exact ⟨hpaused ▸ hp, hsteady base hbase hs⟩
  viewing hview := hpaused ▸ h.viewing (hviewing ▸ hview)
  marks id := by
    have hle := h.marks id
    rw [hpending, hunderWay, hmarked, flatMap_append, count_append, count_append, flatMap_singleton]
    omega
  recovered hp := by
    rw [hpaused] at hp
    rw [hpending, mem_append, mem_singleton, not_or]
    exact ⟨h.recovered hp, fun heq => hrecover heq.symm⟩
  sequences c hc := by
    rw [hpending, mem_append, mem_singleton] at hc
    rcases hc with hc | hc
    · exact Nat.le_trans (h.sequences c hc) hsequence
    · exact hnew c hc.symm
  shown := by
    rw [hviewing, hmarked]
    exact h.shown

end Views

/-! ### Events -/

section Events

variable {accepts : Registry → Bool} {s : System} {w w' : World}

variable {scope : Option String}

/-- The Workspaces that a stop of stopped Workspaces requests have no flag that is set. -/
lemma flags_requested {m : Machine}
    (h : ∀ b ∈ m.targets .stop scope, b.enabled = false) {id : String}
    (hid : id ∈ (m.targets .stop scope).map (·.workspaceId)) : flags m.bindings id ≠ some true := by
  intro hflag
  obtain ⟨b, hb, rfl, henabled⟩ := flags_eq_some hflag
  obtain ⟨c, hc, heq⟩ := mem_map.mp hid
  obtain ⟨-, hscope⟩ := mem_filter.mp hc
  have hb' : b ∈ m.targets .stop scope := by
    refine mem_filter.mpr ⟨hb, ?_⟩
    simp only [decide_eq_true_eq] at hscope ⊢
    rw [← heq]
    exact ⟨hscope.1, by simp⟩
  rw [h b hb'] at henabled
  cases henabled

variable {deadline : Option Nat}

lemma shown_stop (h : Shown w)
    (hok : w.2.observed.isNone ∨ ∀ b ∈ w.1.targets .stop scope, b.enabled = false) :
    Shown (requestStop w scope deadline) := by
  refine h.request rfl ?_ (by simp) rfl rfl (Nat.le_succ _) ?_ rfl rfl fun base hbase hs => ?_
  · simp [requestStop, Machine.enqueue, Machine.intendStop, Machine.supersede, Task.marks,
      Command.marks]
  · intro c hc
    cases hc
    exact Nat.le_refl _
  · refine ⟨hs.bindings, hs.disk, fun i hi before next hphase => ?_, fun id hid => ?_⟩
    · rcases mem_append.mp hi with hi | hi
      · exact hs.writing i hi before next hphase
      · rw [mem_singleton.mp hi] at hphase
        cases hphase
    · have hstopped : ∀ b ∈ w.1.targets .stop scope, b.enabled = false := by
        rcases hok with hnone | hstopped
        · rw [hbase] at hnone
          cases hnone
        · exact hstopped
      simp only [requestStop, enqueue, intendStop, stopIntended] at hid
      split_ifs at hid with hmem
      · rw [← hs.bindings]
        exact flags_requested hstopped hmem
      · exact hs.stopped id hid

lemma shown_start {operation : LifecycleOperation} {requestId : Option String} (h : Shown w) :
    Shown (requestStart w operation scope requestId deadline) := by
  refine h.request rfl rfl (by simp) rfl rfl (Nat.le_succ _) ?_ rfl rfl fun base _ hs => ?_
  · intro c hc
    cases hc
    exact Nat.le_refl _
  · exact ⟨hs.bindings, hs.disk, hs.writing, hs.stopped⟩

lemma shown_configure {config : DaemonConfig} (h : Shown w) :
    Shown (requestConfigure w config deadline) := by
  refine h.request rfl rfl (by simp) rfl rfl (Nat.le_succ _) ?_ rfl rfl fun base _ hs => ?_
  · intro c hc
    cases hc
  · exact ⟨hs.bindings, hs.disk, hs.writing, hs.stopped⟩

lemma shown_enqueue {task : Task} (h : Shown w) (hmarks : task.marks = [])
    (hrecover : task ≠ .recover) (hcommand : ∀ c, task ≠ .command c) : Shown (w.enqueue task) := by
  refine h.request rfl ?_ hrecover rfl rfl (Nat.le_refl _) ?_ rfl rfl fun base _ hs => ?_
  · rw [hmarks, append_nil]
    rfl
  · intro c hc
    exact absurd hc (hcommand c)
  · exact ⟨hs.bindings, hs.disk, hs.writing, hs.stopped⟩

lemma shown_intentBegin {i : StopIntent} (h : Shown w) : Shown (beginIntent w i) := by
  obtain ⟨bindings, reload, hreloaded⟩ := w.1.reloaded_eq
  have hsame : SameQueue w (beginIntent w i) := by
    constructor <;> simp [beginIntent, setIntent, hreloaded]
  refine h.beside hsame fun base _ hs => hs.reloaded.setIntent fun before next hphase => ?_
  cases hphase
  exact flags_intended hs.reloaded

lemma shown_intentEnd {i : StopIntent} {before next : Registry} {outcome : Outcome} (h : Shown w)
    (hi : i ∈ w.1.intents) (hphase : i.phase = .writing before next)
    (hend : endIntent accepts (w.1, { w.2 with intentWritten := true }) i before next outcome =
      some w') : Shown w' := by
  rcases endIntent_cases hend with ⟨-, rfl⟩ | ⟨message, rfl⟩ | ⟨message, -, rfl⟩
  · refine h.beside (.of_same rfl) fun base _ hs => ?_
    have hnext := hs.writing i hi before next hphase
    have hstored : Steady base { w.1 with disk := next, bindings := next } :=
      ⟨hnext, hnext, hs.writing, hs.stopped⟩
    exact hstored.setIntent fun _ _ h => nomatch h
  · refine h.beside (.of_same rfl) fun base _ hs => ?_
    have hfailed : Steady base { w.1 with reloadRequired := true } :=
      ⟨hs.bindings, hs.disk, hs.writing, hs.stopped⟩
    exact hfailed.failIntent
  · refine h.beside (.of_same rfl) fun base _ hs => ?_
    have hnext := hs.writing i hi before next hphase
    have hstored : Steady base { w.1 with disk := next, reloadRequired := true } :=
      ⟨hs.bindings, hnext, hs.writing, hs.stopped⟩
    exact hstored.failIntent

lemma shown_view (h : Shown w) (hpaused : w.1.paused)
    (hok : ∀ id ∈ w.1.marked, (w.1.bindings.find id).isSome) :
    Shown (w.1, { w.2 with viewing := some (w.1.bindings.map (·.workspaceId)) }) where
  steady := h.steady
  viewing _ := hpaused
  marks := h.marks
  recovered := h.recovered
  sequences := h.sequences
  shown ids hids id hid := by
    obtain ⟨b, hfind⟩ := isSome_iff_exists.mp (hok id hid)
    obtain ⟨hb, rfl⟩ := Registry.mem_of_find hfind
    rw [← some.inj hids]
    exact mem_map_of_mem hb

lemma Booked.underWay (h : Booked w) {id : String} (hid : id ∈ w.1.marked) : id ∈ w.1.underWay := by
  have hle := h.marks id
  have hpos := count_pos_iff.mpr hid
  exact count_pos_iff.mp (by omega)

lemma shown_sight {ids : List String} {id : String} (h : Shown w)
    (hviewing : w.2.viewing = some ids) (hid : w.1.isUnderWay id = false) :
    Shown (w.1, { w.2 with viewing := some (ids.filter (· ≠ id)) }) where
  steady := h.steady
  viewing _ := h.viewing (by rw [hviewing]; rfl)
  marks := h.marks
  recovered := h.recovered
  sequences := h.sequences
  shown ids' hids id' hid' := by
    rw [← some.inj hids]
    refine mem_filter.mpr ⟨h.shown ids hviewing id' hid', ?_⟩
    simp only [ne_eq, decide_not, Bool.not_eq_true', decide_eq_false_iff_not]
    rintro rfl
    have hunder := h.underWay hid'
    simp [isUnderWay, hunder] at hid

lemma shown_viewed (h : Shown w) (hviewing : w.2.viewing = some [])
    (hwriting : ∀ i ∈ w.1.intents, i.isWriting = false)
    (hstopped : ∀ b ∈ w.1.bindings, w.1.stopIntended b.workspaceId → b.enabled = false)
    (hdisk : flags w.1.disk = flags w.1.bindings) : Shown (w.1, { w.2 with
      viewing := none, observed := w.2.observed.or (some (flags w.1.bindings)) }) where
  steady base hbase := by
    cases hobserved : w.2.observed with
    | some base' =>
      rw [hobserved, some_or] at hbase
      exact h.steady base (hobserved.trans hbase)
    | none =>
      rw [hobserved, none_or] at hbase
      cases hbase
      refine ⟨h.viewing (by rw [hviewing]; rfl), rfl, hdisk, ?_, ?_⟩
      · intro i hi before next hphase
        have hnot := hwriting i hi
        rw [StopIntent.isWriting, hphase] at hnot
        cases hnot
      · intro id hid hflag
        obtain ⟨b, hb, rfl, henabled⟩ := flags_eq_some hflag
        rw [hstopped b hb hid] at henabled
        cases henabled
  viewing h := by cases h
  marks := h.marks
  recovered := h.recovered
  sequences := h.sequences
  shown ids hids := by cases hids

lemma Shown.event {l : Event} (h : Shown s.shared) (hok : Conclusive s (.event l))
    (hevent : s.shared.event accepts l = some w') : Shown w' := by
  cases l with
  | stop workspaceId deadline => cases hevent; exact shown_stop h hok
  | start workspaceId deadline => cases hevent; exact shown_start h
  | restart workspaceId requestId deadline => cases hevent; exact shown_start h
  | configure config deadline => cases hevent; exact shown_configure h
  | reconcile => cases hevent; exact shown_enqueue h rfl (by simp) (by simp)
  | recordUpgrade workspaceId requestId expectedVersion =>
    cases hevent; exact shown_enqueue h rfl (by simp) (by simp)
  | completeUpgrade workspaceId requestId settlement =>
    cases hevent; exact shown_enqueue h rfl (by simp) (by simp)
  | acknowledgeUpgrade workspaceId requestId =>
    cases hevent; exact shown_enqueue h rfl (by simp) (by simp)
  | snapshot => cases hevent; exact shown_enqueue h rfl (by simp) (by simp)
  | resume => cases hevent; exact shown_enqueue h rfl (by simp) (by simp)
  | shutdown => cases hevent; exact shown_enqueue h rfl (by simp) (by simp)
  | pause =>
    obtain ⟨hrecover, hevent⟩ := ite_none_left_eq_some.mp hevent
    cases hevent
    refine ⟨⟨fun base hbase => ?_, fun _ => rfl, h.marks, fun _ => hrecover, h.sequences⟩, h.shown⟩
    have hs := (h.steady base hbase).2
    exact ⟨rfl, hs.bindings, hs.disk, hs.writing, hs.stopped⟩
  | intentBegin =>
    obtain ⟨-, hevent⟩ := ite_none_right_eq_some.mp hevent
    obtain ⟨i, -, rfl⟩ := map_eq_some_iff.mp hevent
    exact shown_intentBegin h
  | intentUnread message =>
    obtain ⟨-, hevent⟩ := ite_none_right_eq_some.mp hevent
    obtain ⟨i, -, rfl⟩ := map_eq_some_iff.mp hevent
    exact h.beside (.of_same rfl) fun base _ hs => hs.failIntent
  | intentEnd outcome =>
    simp only [World.event] at hevent
    split at hevent
    · cases hevent
    · next i hi =>
      split at hevent
      · next before next hphase =>
        exact shown_intentEnd h (mem_of_find?_eq_some hi) hphase hevent
      · cases hevent
  | view =>
    obtain ⟨hpaused, hevent⟩ := ite_none_right_eq_some.mp hevent
    cases hevent
    exact shown_view h hpaused hok
  | sight workspaceId =>
    simp only [World.event] at hevent
    split at hevent
    · cases hevent
    · next ids hids =>
      split_ifs at hevent with hunder
      · cases hevent
        exact ⟨⟨h.steady, fun h => (by cases h), h.marks, h.recovered, h.sequences⟩,
          fun ids h => (by cases h)⟩
      · cases hevent
        exact shown_sight h hids (by simpa using hunder)
  | viewed =>
    obtain ⟨hviewing, hevent⟩ := ite_none_right_eq_some.mp hevent
    cases hevent
    exact shown_viewed h hviewing hok.2.1 hok.2.2.1 hok.2.2.2
  | tick milliseconds =>
    cases hevent
    exact h.beside (.of_same rfl) fun base _ hs => ⟨hs.bindings, hs.disk, hs.writing, hs.stopped⟩

end Events

/-! ### What the operation in its turn counts on -/

/-- The intent of a stop has been answered. -/
def Command.Answered (c : Command) (s : Machine) : Prop :=
  c.sequence ≤ s.sequence ∧ ∀ i ∈ s.intents, i.sequence ≠ c.sequence

/-- Where lifecycle work waits, the view still has something of it to report. -/
def Task.stage : Task → Machine → Prop
  | .configure _ _ _, s => s.marked ≠ []
  | .command c, s =>
    if c.operation = .stop then c.Answered s
    else (s.progress.targets = none ∧ s.progress.done = 0) ∨ c.unhandled s.progress ≠ []
  | _, _ => True

/-- Lifecycle work is under way, and no view counts. -/
structure Busy (task : Task) (w : World) : Prop extends Shown w where
  unobserved : w.2.observed = none
  stage : task.stage w.1

/-- A binding has the flag that a view has seen, or will see. While no view counts, one that a
stop holds may be stopped ahead of its turn. -/
structure Fits (b : ManagedBinding) (w : World) : Prop where
  observed : w.2.observed.isSome → flags w.1.bindings b.workspaceId = some b.enabled
  unobserved : w.2.observed = none → w.2.intentWritten = false →
    flags w.1.bindings b.workspaceId = some b.enabled ∨
      (b.enabled = false ∧ w.1.stopIntended b.workspaceId ∧
        (flags w.1.bindings b.workspaceId).isSome)

/-- What happens meanwhile disturbs neither what was seen nor the operation in its turn. -/
structure Undisturbed (task : Task) (w w' : World) : Prop where
  shown : Shown w → Shown w'
  busy : task.isRecord = false → Busy task w → Busy task w'
  fits : task.isRecord → ∀ b, Shown w → Fits b w → Fits b w'
  locked : Locked w.1 → Locked w'.1 ∧ w'.1.bindings = w.1.bindings
  progress : w'.1.progress = w.1.progress
  marked : w'.1.marked = w.1.marked
  sequence : w.1.sequence ≤ w'.1.sequence

def stillCtx (accepts : Registry → Bool) (task : Task) : Context World Reply where
  rely := Undisturbed task
  answer e w r w' := ∃ o, w.answer accepts e o = some (r, w')
  guar _ _ := True
  issue e w := Shown w ∧ (e.movesProcess → task.isRecord = false ∧ Busy task w)

section Meanwhile

variable {accepts : Registry → Bool} {task : Task} {s : System} {w w' : World}

/-- A view is over while no lifecycle work is in its turn, but for a stop that is not let in. -/
lemma not_viewed (h : Busy task w) (hrecord : task.isRecord = false) (hshows : task.Shows w)
    (hviewing : w.2.viewing = some []) : False := by
  have hmarked (id : String) : id ∉ w.1.marked := fun hid => by
    cases h.shown [] hviewing id hid
  cases task with
  | configure config sequence deadline =>
    obtain ⟨id, hid⟩ := exists_mem_of_ne_nil _ h.stage
    exact hmarked id hid
  | command c =>
    have hstage := h.stage
    simp only [Task.stage] at hstage
    simp only [Task.Shows] at hshows
    split_ifs at hstage hshows with hstop
    · obtain ⟨i, hi, heq⟩ := hshows
      exact hstage.2 i hi heq
    · rcases hstage with hnone | hne
      · exact hshows.1 hnone.1
      · obtain ⟨id, hid⟩ := exists_mem_of_ne_nil _ hne
        exact hmarked id (hshows.2 id hid)
  | recordUpgrade _ _ _ => cases hrecord
  | completeUpgrade _ _ _ => cases hrecord
  | acknowledgeUpgrade _ _ => cases hrecord
  | recordFailure _ _ _ => cases hrecord
  | snapshot => cases hrecord
  | _ => exact hshows

variable {l : Event}

lemma intents_event (hevent : w.event accepts l = some w') : w.1.sequence ≤ w'.1.sequence ∧
      ∀ i ∈ w'.1.intents, (∃ j ∈ w.1.intents, j.sequence = i.sequence) ∨
        w.1.sequence < i.sequence := by
  have hkept {m : Machine} {q : Nat} {phase : IntentPhase} :
      ∀ i ∈ (m.setIntent q phase).intents, (∃ j ∈ m.intents, j.sequence = i.sequence) ∨
        w.1.sequence < i.sequence := by
    intro i hi
    obtain ⟨j, hj, rfl⟩ := mem_map.mp hi
    exact .inl ⟨j, hj, by split_ifs <;> rfl⟩
  rcases World.event_cases hevent with hsame | ⟨i, -, -, -, -, rfl⟩ |
    ⟨i, -, message, -, -, -, rfl⟩ | ⟨i, -, before, next, outcome, -, -, hend⟩
  · refine ⟨hsame.sequence, fun i hi => ?_⟩
    rcases hsame.intents i hi with hi | ⟨-, hnew⟩
    · exact .inl ⟨i, hi, rfl⟩
    · exact .inr hnew
  · obtain ⟨bindings, reload, hreloaded⟩ := w.1.reloaded_eq
    refine ⟨?_, fun j hj => ?_⟩
    · simp [beginIntent, setIntent, hreloaded]
    · have hj' := hkept j hj
      rw [hreloaded] at hj'
      exact hj'
  · exact ⟨Nat.le_refl _, hkept⟩
  · rcases endIntent_cases hend with ⟨-, rfl⟩ | ⟨_, rfl⟩ | ⟨_, -, rfl⟩ <;>
      exact ⟨Nat.le_refl _, hkept⟩

lemma stage_event (h : task.stage w.1) (hevent : w.event accepts l = some w') :
    task.stage w'.1 := by
  obtain ⟨hprogress, hmarked, -⟩ := Concern.progress_event hevent
  cases task with
  | configure config sequence deadline => exact fun hnil => h (hmarked ▸ hnil)
  | command c =>
    simp only [Task.stage] at h ⊢
    split_ifs at h ⊢ with hstop
    · obtain ⟨hle, hnew⟩ := intents_event hevent
      refine ⟨Nat.le_trans h.1 hle, fun i hi heq => ?_⟩
      rcases hnew i hi with ⟨j, hj, hsame⟩ | hlt
      · exact h.2 j hj (hsame.trans heq)
      · have hle' := h.1
        omega
    · rw [hprogress]
      exact h
  | _ => trivial

/-- A step of an intent is noted. Any other event leaves the bindings and what stops hold, and a
view starts to count only where it ends. -/
lemma beside_event (hevent : w.event accepts l = some w') :
    (w'.2.intentWritten ∧ w'.2.observed = w.2.observed) ∨
      (w'.1.bindings = w.1.bindings ∧ (∀ id, w.1.stopIntended id → w'.1.stopIntended id) ∧
        w'.2.intentWritten = w.2.intentWritten ∧
        (w'.2.observed = w.2.observed ∨ (l = .viewed ∧ w.2.viewing = some []))) := by
  cases l with
  | stop workspaceId deadline =>
    cases hevent
    refine .inr ⟨rfl, fun id hid => ?_, rfl, .inl rfl⟩
    simp only [requestStop, enqueue, intendStop, stopIntended]
    split_ifs
    · rfl
    · exact hid
  | pause =>
    obtain ⟨-, hevent⟩ := ite_none_left_eq_some.mp hevent
    cases hevent
    exact .inr ⟨rfl, fun _ => id, rfl, .inl rfl⟩
  | intentBegin =>
    obtain ⟨-, hevent⟩ := ite_none_right_eq_some.mp hevent
    obtain ⟨i, -, rfl⟩ := map_eq_some_iff.mp hevent
    exact .inl ⟨rfl, rfl⟩
  | intentUnread message =>
    obtain ⟨-, hevent⟩ := ite_none_right_eq_some.mp hevent
    obtain ⟨i, -, rfl⟩ := map_eq_some_iff.mp hevent
    exact .inl ⟨rfl, rfl⟩
  | intentEnd outcome =>
    simp only [World.event] at hevent
    split at hevent
    · cases hevent
    · split at hevent
      · rcases endIntent_cases hevent with ⟨-, rfl⟩ | ⟨_, rfl⟩ | ⟨_, -, rfl⟩ <;>
          exact .inl ⟨rfl, rfl⟩
      · cases hevent
  | view =>
    obtain ⟨-, hevent⟩ := ite_none_right_eq_some.mp hevent
    cases hevent
    exact .inr ⟨rfl, fun _ => id, rfl, .inl rfl⟩
  | sight workspaceId =>
    simp only [World.event] at hevent
    split at hevent
    · cases hevent
    · split_ifs at hevent <;> cases hevent <;> exact .inr ⟨rfl, fun _ => id, rfl, .inl rfl⟩
  | viewed =>
    obtain ⟨hviewing, hevent⟩ := ite_none_right_eq_some.mp hevent
    cases hevent
    exact .inr ⟨rfl, fun _ => id, rfl, .inr ⟨rfl, hviewing⟩⟩
  | _ => cases hevent; exact .inr ⟨rfl, fun _ => id, rfl, .inl rfl⟩

lemma busy_event (hok : Conclusive s (.event l))
    (hturn : ∀ turn ∈ s.turn, turn.1 = task) (hsome : s.turn.isSome)
    (hrecord : task.isRecord = false) (hevent : s.shared.event accepts l = some w')
    (h : Busy task s.shared) : Busy task w' := by
  obtain ⟨turn, hsome⟩ := isSome_iff_exists.mp hsome
  refine ⟨h.toShown.event hok hevent, ?_, stage_event h.stage hevent⟩
  rcases beside_event hevent with ⟨-, hobserved⟩ | ⟨-, -, -, hobserved | ⟨rfl, hviewing⟩⟩
  · exact hobserved.trans h.unobserved
  · exact hobserved.trans h.unobserved
  · have hshows := hok.1 turn hsome
    rw [hturn turn hsome] at hshows
    exact (not_viewed h hrecord hshows hviewing).elim

lemma fits_event {b : ManagedBinding} (hok : Conclusive s (.event l))
    (hturn : ∀ turn ∈ s.turn, turn.1 = task) (hsome : s.turn.isSome) (hrecord : task.isRecord)
    (hevent : s.shared.event accepts l = some w') (h : Shown s.shared) (hfits : Fits b s.shared) :
    Fits b w' := by
  have h' := h.event hok hevent
  have hkept (hobserved : w'.2.observed = s.shared.2.observed) (hsome : w'.2.observed.isSome) :
      flags w'.1.bindings b.workspaceId = some b.enabled := by
    obtain ⟨base, hbase⟩ := isSome_iff_exists.mp hsome
    have hbase' := hobserved ▸ hbase
    rw [(h'.steady base hbase).2.bindings, ← (h.steady base hbase').2.bindings]
    exact hfits.observed (by rw [hbase']; rfl)
  rcases beside_event hevent with ⟨hwritten, hobserved⟩ |
    ⟨hbindings, hstop, hwritten, hobserved | ⟨rfl, hviewing⟩⟩
  · refine ⟨hkept hobserved, fun _ hnot => ?_⟩
    rw [hwritten] at hnot
    cases hnot
  · refine ⟨hkept hobserved, fun hnone hnot => ?_⟩
    rw [hbindings]
    refine (hfits.unobserved (hobserved ▸ hnone) (hwritten ▸ hnot)).imp_right ?_
    rintro ⟨hdisabled, hintended, hflag⟩
    exact ⟨hdisabled, hstop _ hintended, hflag⟩
  · obtain ⟨turn, hsome⟩ := isSome_iff_exists.mp hsome
    have hnot : s.shared.2.intentWritten = false := by
      have hshows := hok.1 turn hsome
      rw [hturn turn hsome] at hshows
      cases task <;> first | exact hshows | cases hrecord
    obtain ⟨-, hevent⟩ := ite_none_right_eq_some.mp hevent
    cases hevent
    have hflag : flags s.shared.1.bindings b.workspaceId = some b.enabled := by
      cases hobserved : s.shared.2.observed with
      | some base => exact hfits.observed (by rw [hobserved]; rfl)
      | none =>
        rcases hfits.unobserved hobserved hnot with hflag | ⟨hdisabled, hintended, hflag⟩
        · exact hflag
        · obtain ⟨enabled, henabled⟩ := isSome_iff_exists.mp hflag
          obtain ⟨c, hc, hid, rfl⟩ := flags_eq_some henabled
          rw [henabled, hdisabled, hok.2.2.1 c hc (hid ▸ hintended)]
    exact ⟨fun _ => hflag, fun _ _ => .inl hflag⟩

lemma undisturbed_event {p : Suspended World Reply SupervisorError Unit}
    (hturn : s.turn = some (task, p)) (hok : Conclusive s (.event l))
    (hevent : s.shared.event accepts l = some w') : Undisturbed task s.shared w' := by
  have hsome : s.turn.isSome := by rw [hturn]; rfl
  have htask : ∀ turn ∈ s.turn, turn.1 = task := by
    intro turn hmem
    rw [hturn] at hmem
    rw [← some.inj hmem]
  obtain ⟨hprogress, hmarked, -⟩ := Concern.progress_event hevent
  exact
    { shown := fun h => h.event hok hevent
      busy := fun hrecord h => busy_event hok htask hsome hrecord hevent h
      fits := fun hrecord b h hfits => fits_event hok htask hsome hrecord hevent h hfits
      locked := fun h => locked_event h hevent
      progress := hprogress
      marked := hmarked
      sequence := (intents_event hevent).1 }

end Meanwhile

end Coforge.Supervisor
