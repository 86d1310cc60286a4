import Coforge.Supervisor.View
import Mathlib

/-!
# The machine stays still

Lifecycle work waits only where a view still has something of it to report, a record is saved with
the flags that were seen, and no request is let in while a view counts. So a paused machine whose
view was conclusive stays still until it is resumed or shut down.
-/

namespace Coforge.Supervisor

open Async Transition List
open Async.Prog hiding throw

/-! ### Lifecycle work -/

/-- What lifecycle work may change: it ends marks, one by one, and not those of others. -/
structure Moves (s t : Machine) : Prop where
  pending : t.pending = s.pending := by rfl
  sequence : t.sequence = s.sequence := by rfl
  paused : t.paused = s.paused := by rfl
  calm : s.progress.Calm → t.progress.Calm := by exact id
  marked : ∀ id, t.marked.count id ≤ s.marked.count id := by exact fun _ => Nat.le_refl _
  underWay : ∀ id, s.underWay.count id + t.marked.count id ≤
    t.underWay.count id + s.marked.count id := by exact fun _ => Nat.le_refl _

lemma Moves.of_same {s t : Machine}
    (h : (t.pending, t.sequence, t.paused, t.progress.refused, t.progress.superseded, t.marked,
        t.underWay) =
      (s.pending, s.sequence, s.paused, s.progress.refused, s.progress.superseded, s.marked,
        s.underWay)) : Moves s t := by
  simp only [Prod.mk.injEq] at h
  obtain ⟨hpending, hsequence, hpaused, hrefused, hsuperseded, hmarked, hunderWay⟩ := h
  exact ⟨hpending, hsequence, hpaused, .of_same (Prod.ext hrefused hsuperseded),
    fun _ => Nat.le_of_eq (by rw [hmarked]), fun _ => Nat.le_of_eq (by rw [hmarked, hunderWay])⟩

lemma Aside.moves {s t : Machine} (h : Aside s t) : Moves s t where
  pending := h.pending
  sequence := h.sequence
  paused := by
    cases hs : s.paused with
    | true => exact h.stillPaused hs
    | false =>
      cases ht : t.paused with
      | true => rw [h.paused ht] at hs; cases hs
      | false => rfl
  calm := h.calm
  marked id := Nat.le_of_eq (by rw [h.marked])
  underWay id := Nat.le_of_eq (by rw [h.marked, h.underWay])

lemma moves_settle (s : Machine) {progress : Progress} {workspaceId : String}
    (hcalm : progress.Calm) : Moves s ({ s with progress := progress }.settle workspaceId) := by
  rw [Machine.settle]
  split_ifs with hmem
  · refine { calm := fun _ => hcalm, marked := fun id => ?_, underWay := fun id => ?_ }
    · exact (erase_sublist).count_le id
    · have hpos : 0 < s.marked.count workspaceId := count_pos_iff.mpr (by simpa using hmem)
      simp only [count_erase]
      by_cases hid : workspaceId = id
      · subst hid
        simp only [beq_self_eq_true, if_true]
        omega
      · have hne : (workspaceId == id) = false := by simpa using hid
        simp only [hne, Bool.false_eq_true, if_false]
        omega
  · exact { calm := fun _ => hcalm }

lemma settle_progress (s : Machine) (progress : Progress) (workspaceId : String) :
    ({ s with progress := progress }.settle workspaceId).progress = progress ∧
      ({ s with progress := progress }.settle workspaceId).sequence = s.sequence ∧
      ({ s with progress := progress }.settle workspaceId).intents = s.intents := by
  rw [Machine.settle]
  split_ifs <;> exact ⟨rfl, rfl, rfl⟩

/-- Work that nothing is asked of but to wait at some stage. -/
def moving (stage : Machine → Prop) (h : ∀ {s t}, Aside s t → stage s → stage t) : Concern where
  keeps _ := True
  stays _ := False
  stage := stage
  allows := Moves
  keeps_of_kept _ := id
  stage_aside := h
  allows_aside _ _ h := h.moves

/-- Lifecycle work is in its turn, while no view counts. -/
structure UnderWay (task : Task) (w : World) : Prop extends Shown w where
  unobserved : w.2.observed = none
  calm : w.1.progress.Calm
  own : ∀ id ∈ w.1.marked, id ∈ task.marks

section Moving

variable {accepts : Registry → Bool} {task : Task} {w w' : World} {s t : Machine}
  {stage : Machine → Prop} {haside : ∀ {s t}, Aside s t → stage s → stage t}

lemma moving_loose (hstage : stage s) (hcalm : s.progress.Calm) : (moving stage haside).Loose s := by
  have hkeeps (registry : Registry) : registry.Keeps (fun _ => True) (fun _ => False) :=
    ⟨fun _ _ => trivial, fun _ h => h.elim⟩
  exact ⟨⟨hkeeps _, fun _ => hkeeps _, fun _ _ _ _ _ => hkeeps _⟩, hstage, hcalm⟩

lemma moving_sound (hstage : stage s) (hcalm : s.progress.Calm) : (moving stage haside).Sound s :=
  ⟨moving_loose hstage hcalm, ⟨fun _ _ => trivial, fun _ h => h.elim⟩⟩

lemma UnderWay.moves (h : UnderWay task w) (hmoves : Moves w.1 w'.1)
    (hobserved : w'.2.observed = w.2.observed) (hviewing : w'.2.viewing = w.2.viewing) :
    UnderWay task w' := by
  have hmarked {id : String} (hid : id ∈ w'.1.marked) : id ∈ w.1.marked := by
    have hpos := count_pos_iff.mpr hid
    have hle := hmoves.marked id
    exact count_pos_iff.mp (by omega)
  constructor
  · constructor
    · constructor
      · intro base hbase
        rw [hobserved, h.unobserved] at hbase
        cases hbase
      · intro hview
        rw [hmoves.paused]
        exact h.viewing (hviewing ▸ hview)
      · intro id
        have hle := h.marks id
        have hle' := hmoves.underWay id
        rw [hmoves.pending]
        omega
      · rw [hmoves.paused, hmoves.pending]
        exact h.recovered
      · rw [hmoves.pending, hmoves.sequence]
        exact h.sequences
    · intro ids hids id hid
      exact h.shown ids (hviewing ▸ hids) id (hmarked hid)
  · exact hobserved.trans h.unobserved
  · exact hmoves.calm h.calm
  · intro id hid
    exact h.own id (hmarked hid)

lemma answer_view {e : Effect} {o : Outcome} {r : Reply e}
    (h : w.answer accepts e o = some (r, w')) :
    w'.2.observed = w.2.observed ∧ w'.2.viewing = w.2.viewing := by
  rcases World.answer_cases h with rfl | ⟨-, -, rfl⟩ | ⟨_, _, -, -, rfl⟩ | ⟨_, _, _, -, -, -, rfl⟩ <;>
    exact ⟨rfl, rfl⟩

lemma wp_moving {α : Type} {p : Op α} {Q : Except SupervisorError α → Machine → Prop}
    (hrecord : task.isRecord = false) (himp : ∀ s, stage s → task.stage s)
    (hstage : ∀ w w', Undisturbed task w w' → Busy task w' → stage w.1 → stage w'.1)
    (h : UnderWay task w) (hp : wp (moving stage haside).ctx p Q w.1) :
    wp (stillCtx accepts task) p.lift (fun r w' => Q r w'.1 ∧ UnderWay task w') w := by
  have hbusy {w : World} (h : UnderWay task w) (hs : stage w.1) : Busy task w :=
    ⟨h.toShown, h.unobserved, himp _ hs⟩
  refine wp_lift (I := UnderWay task) ?_ ?_ ?_ ?_ ?_ h hp
  · intro e w w' hw hissue hrely
    have hbusy' := hrely.busy hrecord (hbusy hw hissue.1.stage)
    have hstage' := hstage w w' hrely hbusy' hissue.1.stage
    refine ⟨⟨fun hl => ?_, fun hs => ?_⟩, hbusy'.toShown, hbusy'.unobserved, ?_, ?_⟩
    · exact moving_loose hstage' (hrely.progress ▸ hl.calm)
    · exact moving_sound hstage' (hrely.progress ▸ hs.calm)
    · rw [hrely.progress]
      exact hw.calm
    · rw [hrely.marked]
      exact hw.own
  · intro e w hw hissue
    exact ⟨hw.toShown, fun _ => ⟨hrecord, hbusy hw hissue.1.stage⟩⟩
  · rintro e w r w' - ⟨o, hans⟩
    exact ⟨accepts, o, w.2, w'.2, hans⟩
  · rintro e w r w' hw ⟨o, hans⟩ hmoves
    obtain ⟨hobserved, hviewing⟩ := answer_view hans
    exact ⟨trivial, hw.moves hmoves hobserved hviewing⟩
  · intro w t hw hmoves
    exact ⟨trivial, hw.moves hmoves rfl rfl⟩

lemma wp_unmarked {p : Op Unit} (hrecord : task.isRecord = false)
    (hstage : ∀ s, task.stage s) (h : UnderWay task w)
    (hp : ∀ s, (moving (fun _ => True) fun _ h => h).Loose s →
      wp (moving (fun _ => True) fun _ h => h).ctx p
        (moving (fun _ => True) fun _ h => h).Ended s) :
    wp (stillCtx accepts task) p.lift (fun _ => UnderWay task) w := by
  refine wp_mono (fun _ w' hw' => hw'.2)
    (wp_moving hrecord (fun s _ => hstage s) (fun _ _ _ _ _ => trivial) h
      (hp w.1 (moving_loose trivial h.calm)))

/-! ### Configures -/

lemma wp_stillConfigure {config : DaemonConfig} {sequence : Nat} {deadline : Option Nat}
    (h : UnderWay (.configure config sequence deadline) w) (hmarked : w.1.marked ≠ []) :
    wp (stillCtx accepts (.configure config sequence deadline)) (runConfigure config).lift
      (fun _ => UnderWay (.configure config sequence deadline)) w := by
  have haside : ∀ {s t : Machine}, Aside s t → s.marked ≠ [] → t.marked ≠ [] := by
    intro s t hst hs
    rw [hst.marked]
    exact hs
  have hwork : wp (moving (fun s => s.marked ≠ []) haside).ctx (runConfigure config)
      (moving (fun s => s.marked ≠ []) haside).Ended w.1 :=
    Concern.wp_runConfigure (moving_loose hmarked h.calm) fun _ _ => trivial
  refine wp_mono (fun _ w' hw' => hw'.2)
    (@wp_moving _ _ _ _ haside _ _ _ rfl (fun s hs => hs) ?_ h hwork)
  intro w w' hrely _ hs
  show w'.1.marked ≠ []
  rw [hrely.marked]
  exact hs

/-! ### Commands -/

/-- A command has begun and has not looked for its targets yet. -/
def Command.Begun (c : Command) (s : Machine) : Prop :=
  (s.progress.targets = none ∧ s.progress.done = 0) ∧ (c.operation = .stop → c.Answered s)

/-- A command handles one of its targets. -/
def Command.At (c : Command) (ids : List String) (n : Nat) (s : Machine) : Prop :=
  (s.progress.targets = some ids ∧ s.progress.done = n) ∧ (c.operation = .stop → c.Answered s)

variable {c : Command}

lemma Command.Answered.aside (hst : Aside s t) (h : c.Answered s) : c.Answered t := by
  refine ⟨hst.sequence ▸ h.1, fun i hi => h.2 i (hst.intents i hi)⟩

lemma Command.Begun.aside (hst : Aside s t) (h : c.Begun s) : c.Begun t := by
  refine ⟨?_, fun hstop => (h.2 hstop).aside hst⟩
  rw [hst.targets, hst.done]
  exact h.1

lemma Command.At.aside {ids : List String} {n : Nat} (hst : Aside s t)
    (h : c.At ids n s) : c.At ids n t := by
  refine ⟨?_, fun hstop => (h.2 hstop).aside hst⟩
  rw [hst.targets, hst.done]
  exact h.1

lemma answered_of_busy (h : Busy (.command c) w) (hstop : c.operation = .stop) :
    c.Answered w.1 := by
  have hstage := h.stage
  rwa [Task.stage, if_pos hstop] at hstage

/-- What holds while a command has these targets still to handle. -/
structure Handling (c : Command) (ids : List String) (bs : List ManagedBinding) (w : World) :
    Prop extends UnderWay (.command c) w where
  targets : w.1.progress.targets = some ids
  rest : ids.drop w.1.progress.done = bs.map (·.workspaceId)
  answered : c.operation = .stop → c.Answered w.1

lemma wp_stillTarget {ids : List String} {b : ManagedBinding}
    {bs : List ManagedBinding} (h : Handling c ids (b :: bs) w) :
    wp (stillCtx accepts (.command c)) (handleTarget c b).lift
      (either (fun _ => Handling c ids bs) (fun _ w' => UnderWay (.command c) w')) w := by
  have hlt : w.1.progress.done < ids.length := by
    by_contra hle
    have hnil := h.rest
    rw [drop_eq_nil_of_le (by omega)] at hnil
    cases hnil
  have hone {p : Op Unit} (hp : wp (moving (c.At ids w.1.progress.done) Command.At.aside).ctx p
      ((moving (c.At ids w.1.progress.done) Command.At.aside).Post fun _ => True) w.1) :
      wp (stillCtx accepts (.command c)) p.lift (fun r w' =>
        (moving (c.At ids w.1.progress.done) Command.At.aside).Post (fun _ => True) r w'.1 ∧
          UnderWay (.command c) w') w := by
    refine wp_moving rfl (fun s hs => ?_) (fun w w' hrely hbusy hs => ?_) h.toUnderWay hp
    · rw [Task.stage]
      split_ifs with hstop
      · exact hs.2 hstop
      · refine .inr ?_
        rw [Command.unhandled, hs.1.1, hs.1.2, Option.getD_some]
        intro hnil
        have hlen := congrArg length hnil
        rw [length_drop, length_nil] at hlen
        omega
    · refine ⟨?_, answered_of_busy hbusy⟩
      rw [hrely.progress]
      exact hs.1
  have hcount {w' : World} (hat : c.At ids w.1.progress.done w'.1)
      (hw' : UnderWay (.command c) w') :
      Handling c ids bs ({ w'.1 with progress := { w'.1.progress with
        done := w'.1.progress.done + 1 } }.settle b.workspaceId, w'.2) := by
    obtain ⟨hprogress, hsequence, hintents⟩ := settle_progress w'.1 { w'.1.progress with
      done := w'.1.progress.done + 1 } b.workspaceId
    refine ⟨hw'.moves (moves_settle w'.1 hw'.calm) rfl rfl, ?_, ?_, fun hstop => ?_⟩
    · rw [hprogress]
      exact hat.1.1
    · rw [hprogress]
      dsimp only
      rw [hat.1.2, ← drop_drop, h.rest]
      rfl
    · have hans := hat.2 hstop
      rw [Command.Answered, hsequence, hintents]
      exact hans
  have hsound : (moving (c.At ids w.1.progress.done) Command.At.aside).Sound w.1 :=
    moving_sound ⟨⟨h.targets, rfl⟩, h.answered⟩ h.calm
  unfold handleTarget
  by_cases hstop : c.operation = .stop
  · simp only [hstop, if_true, lift_bind, wp_bind]
    refine wp_mono ?_ (hone (Concern.wp_stopTarget trivial hsound))
    rintro (e | _) w' ⟨hpost, hw'⟩
    · exact hw'
    · exact ⟨trivial, hcount hpost.1.stage hw'⟩
  · simp only [hstop, if_false, lift_bind, wp_bind]
    refine wp_mono ?_ (hone (Concern.wp_startTarget trivial hsound))
    rintro (e | _) w' ⟨hpost, hw'⟩
    · exact hw'
    · exact ⟨trivial, hcount hpost.1.stage hw'⟩

lemma wp_stillCommand (h : UnderWay (.command c) w) (hbegun : c.Begun w.1) :
    wp (stillCtx accepts (.command c)) (runCommand c).lift (fun _ => UnderWay (.command c)) w := by
  have hrefresh : wp (stillCtx accepts (.command c)) refresh.lift (fun r w' =>
      ((moving c.Begun Command.Begun.aside).Loose w'.1 ∧
        either (fun _ => (moving c.Begun Command.Begun.aside).Sound w'.1)
          (· ≠ .launchesPaused) r) ∧ UnderWay (.command c) w') w := by
    refine wp_moving rfl (fun s hs => ?_) (fun w w' hrely hbusy hs => ?_) h
      (Concern.wp_refresh (moving_loose hbegun h.calm))
    · rw [Task.stage]
      split_ifs with hstop
      · exact hs.2 hstop
      · exact .inl hs.1
    · refine ⟨?_, answered_of_busy hbusy⟩
      rw [hrely.progress]
      exact hs.1
  have hthrow {w : World} (hw : UnderWay (.command c) w) (e : Option SupervisorError) :
      wp (stillCtx accepts (.command c)) (throwIfSome e).lift
        (fun _ => UnderWay (.command c)) w := by
    cases e <;> exact hw
  rw [runCommand, lift_bind, wp_bind]
  refine wp_mono ?_ hrefresh
  rintro (e | _) w' ⟨⟨hloose, -⟩, hw'⟩
  · exact hw'
  · rw [either_ok, lift_bind, wp_bind]
    change wp (stillCtx accepts (.command c)) (if ∃ id ∈ c.workspaceId,
      (w'.1.bindings.find id).isNone then _ else _ : Op Unit).lift _ w'
    obtain ⟨⟨htargets, hdone⟩, hanswered⟩ := hloose.stage
    split_ifs with hregistered
    · exact hw'
    · rw [lift_bind, wp_bind, lift_update, wp_update]
      refine ⟨trivial, ?_⟩
      rw [either_ok, lift_bind, wp_bind, lift_forEach]
      refine wp_forEach (Handling c ((w'.1.targets c.operation c.workspaceId).map
        (·.workspaceId))) (fun v hv => ?_) (fun b bs v hv => ?_) ?_
      · rw [either_ok, lift_bind, wp_bind, lift_gets, wp_gets, either_ok, lift_bind, wp_bind]
        refine wp_mono ?_ (hthrow hv.toUnderWay _)
        rintro (e | _) x hx
        · exact hx
        · exact hthrow hx _
      · refine wp_mono ?_ (wp_stillTarget hv)
        rintro (e | _) x hx <;> exact hx
      · refine ⟨hw'.moves (.of_same rfl) rfl rfl, rfl, ?_, hanswered⟩
        dsimp only
        rw [hdone, drop_zero]

end Moving

/-! ### Records -/

/-- No operation has marked anything. -/
structure Idle (w : World) : Prop extends Booked w where
  calm : w.1.progress.Calm
  unmarked : w.1.marked = []

section Records

variable {accepts : Registry → Bool} {task : Task} {w w' : World} {b : ManagedBinding}

lemma Idle.shown (h : Idle w) : Shown w where
  toBooked := h.toBooked
  shown ids _ id hid := by
    rw [h.unmarked] at hid
    cases hid

lemma Idle.rely (h : Idle w) (hrely : Undisturbed task w w') : Idle w' :=
  ⟨(hrely.shown h.shown).toBooked, hrely.progress ▸ h.calm, hrely.marked.trans h.unmarked⟩

lemma Idle.beside (h : Idle w) (hsame : SameQueue w w')
    (hsteady : ∀ base, w.2.observed = some base → Steady base w.1 → Steady base w'.1) : Idle w' :=
  ⟨h.toBooked.beside hsame hsteady, hsame.progress ▸ h.calm, hsame.marked.trans h.unmarked⟩

lemma Steady.stored {base : String → Option Bool} {s t : Machine} (h : Steady base s)
    (hbindings : flags t.bindings = base) (hdisk : flags t.disk = base)
    (hintents : t.intents = s.intents) (hstop : t.stopIntents = s.stopIntents) : Steady base t where
  bindings := hbindings
  disk := hdisk
  writing i hi := h.writing i (hintents ▸ hi)
  stopped id hid := h.stopped id (by rwa [Machine.stopIntended, hstop] at hid)

lemma fits_find {id : String} (hfind : w.1.bindings.find id = some b) : Fits b w := by
  have hflag : flags w.1.bindings b.workspaceId = some b.enabled := by
    rw [(Registry.mem_of_find hfind).2, flags, hfind]
    rfl
  exact ⟨fun _ => hflag, fun _ _ => .inl hflag⟩

lemma Fits.toStore (h : Booked w) (hfits : Fits b w) : Fits (w.1.toStore b) w := by
  rw [Machine.toStore]
  split_ifs with hstop
  · refine ⟨fun hsome => ?_, fun hnone hnot => ?_⟩
    · obtain ⟨base, hbase⟩ := Option.isSome_iff_exists.mp hsome
      have hsteady := (h.steady base hbase).2
      have hflag := hfits.observed hsome
      have hne := hsteady.stopped _ hstop
      rw [← hsteady.bindings, hflag] at hne
      rw [ManagedBinding.stopped_workspaceId, ManagedBinding.stopped_enabled, hflag]
      cases henabled : b.enabled with
      | true => exact absurd (congrArg some henabled) hne
      | false => rfl
    · rw [ManagedBinding.stopped_workspaceId, ManagedBinding.stopped_enabled]
      refine .inr ⟨rfl, hstop, ?_⟩
      rcases hfits.unobserved hnone hnot with hflag | ⟨-, -, hflag⟩
      · rw [hflag]
        rfl
      · exact hflag
  · exact hfits

lemma wp_stillCall {e : Effect} {Q : Except SupervisorError (Reply e) → World → Prop}
    (hsave : ∀ recorded next, e ≠ .save recorded next) (hmoves : e.movesProcess = false)
    (h : Idle w)
    (hk : ∀ r w', Idle w' → (task.isRecord → ∀ b, Fits b w → Fits b w') → Q (.ok r) w') :
    wp (stillCtx accepts task) (request e) Q w := by
  rw [wp_request]
  refine ⟨⟨h.shown, fun hm => ?_⟩, fun w₁ hrely r w₂ ⟨o, hans⟩ => ⟨trivial, ?_⟩⟩
  · rw [hmoves] at hm
    cases hm
  have h₁ := h.rely hrely
  have hfits (hrecord : task.isRecord) (b : ManagedBinding) (hfits : Fits b w) : Fits b w₁ :=
    hrely.fits hrecord b h.shown hfits
  rcases World.answer_cases hans with rfl | ⟨-, -, rfl⟩ | ⟨recorded, next, he, -⟩ |
    ⟨sequence, i, failure, -, -, -, rfl⟩
  · exact hk r _ h₁ hfits
  · refine hk r _ (h₁.beside (.of_same rfl) fun base _ hs => ?_) fun hrecord b hf => ?_
    · exact ⟨hs.bindings, hs.disk, hs.writing, hs.stopped⟩
    · exact ⟨(hfits hrecord b hf).observed, (hfits hrecord b hf).unobserved⟩
  · exact absurd he (hsave recorded next)
  · refine hk r _ (h₁.beside (.of_same rfl) fun base _ hs => ?_) fun hrecord b hf => ?_
    · exact ⟨hs.bindings, hs.disk, fun i hi => hs.writing i (mem_filter.mp hi).1, hs.stopped⟩
    · exact ⟨(hfits hrecord b hf).observed, (hfits hrecord b hf).unobserved⟩

lemma wp_stillRefresh (h : Idle w) : wp (stillCtx accepts task) refresh.lift (fun _ => Idle) w := by
  have hunlock {w : World} (h : Idle w) : Idle ({ w.1 with locked := false }, w.2) :=
    h.beside (.of_same rfl) fun base _ hs => ⟨hs.bindings, hs.disk, hs.writing, hs.stopped⟩
  simp only [refresh, exclusive, Calls.exclusive, lift_bind, lift_request, lift_andFinally,
    lift_update, wp_bind]
  refine wp_stillCall (fun _ _ he => by cases he) rfl h
    fun _ w' hw' _ => ?_
  simp only [either_ok, wp_andFinally, reloadIfRequired, lift_bind, lift_gets, wp_bind, wp_gets]
  by_cases hreload : w'.1.reloadRequired
  · simp only [hreload, if_true, Calls.load, lift_bind, lift_request, wp_bind]
    rw [wp_request]
    refine ⟨⟨hw'.shown, fun hm => by cases hm⟩, fun w₁ hrely r w₂ hans => ⟨trivial, ?_⟩⟩
    obtain ⟨o, hans⟩ := hans
    have h₁ := hw'.rely hrely
    cases o with
    | ok =>
      cases hans
      refine ⟨trivial, trivial, hunlock (h₁.beside (.of_same rfl) fun base _ hs => ?_)⟩
      exact hs.stored hs.disk hs.disk rfl rfl
    | failed message =>
      cases hans
      exact ⟨trivial, hunlock h₁⟩
    | _ => cases hans
  · simp only [hreload]
    exact ⟨trivial, hunlock hw'⟩

lemma wp_stillSave {recorded : Option String} (hrecord : task.isRecord) (h : Idle w)
    (hfits : Fits b w) :
    wp (stillCtx accepts task) (saveBinding recorded b).lift (fun _ => Idle) w := by
  simp only [saveBinding, exclusive, Calls.exclusive, lift_bind, lift_gets, lift_request,
    lift_andFinally, lift_update, lift_pure, wp_bind, wp_gets, either_ok]
  have hstored := hfits.toStore h.toBooked
  generalize w.1.toStore b = stored at hstored ⊢
  rw [wp_request]
  refine ⟨⟨h.shown, fun hm => by cases hm⟩, fun w₁ hrely₁ _ w₂ hans => ⟨trivial, ?_⟩⟩
  obtain ⟨o, hans⟩ := hans
  obtain ⟨hfree, rfl⟩ := World.answer_exclusive hans
  have h₂ : Idle ({ w₁.1 with locked := true }, w₁.2) :=
    (h.rely hrely₁).beside (.of_same rfl) fun base _ hs => ⟨hs.bindings, hs.disk, hs.writing, hs.stopped⟩
  have hfits₁ := hrely₁.fits hrecord stored h.shown hstored
  have hfits₂ : Fits stored ({ w₁.1 with locked := true }, w₁.2) :=
    ⟨hfits₁.observed, hfits₁.unobserved⟩
  have hlocked₂ := locked_of_free hfree
  simp only [either_ok, wp_andFinally, wp_bind, wp_gets, store, Calls.save, lift_bind, lift_request]
  rw [wp_request]
  refine ⟨⟨h₂.shown, fun hm => by cases hm⟩, fun w₃ hrely₃ r w₄ hans => ⟨trivial, ?_⟩⟩
  obtain ⟨o, hans⟩ := hans
  have h₃ := h₂.rely hrely₃
  have hfits₃ := hrely₃.fits hrecord stored h₂.shown hfits₂
  have hbindings := (hrely₃.locked hlocked₂).2
  dsimp only at hbindings
  rw [← hbindings] at hans ⊢
  -- the registry that is written has the flags that a view has seen
  have hnext (base : String → Option Bool) (hbase : w₃.2.observed = some base) :
      flags (w₃.1.bindings.replace stored) = base := by
    have hsteady := (h₃.steady base hbase).2
    have hflag := hfits₃.observed (by rw [hbase]; rfl)
    rw [flags_replace, ← hflag, Function.update_eq_self, hsteady.bindings]
  have hended {t : Machine} {o : Watch} (hsame : SameQueue w₃ (t, o))
      (hbindings : t.bindings = w₃.1.bindings ∨ t.bindings = w₃.1.bindings.replace stored)
      (hdisk : t.disk = w₃.1.disk ∨ t.disk = w₃.1.bindings.replace stored)
      (hintents : t.intents = w₃.1.intents) (hstop : t.stopIntents = w₃.1.stopIntents) :
      Idle (t, o) := by
    refine h₃.beside hsame fun base hbase hs => hs.stored ?_ ?_ hintents hstop
    · rcases hbindings with heq | heq
      · rw [heq, hs.bindings]
      · rw [heq, hnext base hbase]
    · rcases hdisk with heq | heq
      · rw [heq, hs.disk]
      · rw [heq, hnext base hbase]
  rcases World.answer_save hans with ⟨rfl, rfl⟩ | ⟨message, rfl, rfl | rfl⟩
  · exact ⟨trivial, trivial, hended (.of_same rfl) (.inr rfl) (.inr rfl) rfl rfl⟩
  · exact ⟨trivial, trivial, hended (.of_same rfl) (.inl rfl) (.inl rfl) rfl rfl⟩
  · exact ⟨trivial, trivial, hended (.of_same rfl) (.inl rfl) (.inr rfl) rfl rfl⟩

lemma wp_stillEdit {α : Type} {recorded : Option String} {c : ManagedBinding} {a : α}
    (hrecord : task.isRecord) (h : Idle w) (hfits : Fits b w)
    (hid : c.workspaceId = b.workspaceId) (henabled : c.enabled = b.enabled) :
    wp (stillCtx accepts task)
      (do
        let _ ← saveBinding recorded c
        return a : Op α).lift (fun _ => Idle) w := by
  have hfits' : Fits c w := by
    constructor
    · rw [hid, henabled]
      exact hfits.observed
    · rw [hid, henabled]
      exact hfits.unobserved
  rw [lift_bind, wp_bind]
  refine wp_mono ?_ (wp_stillSave hrecord h hfits')
  rintro (e | _) w' hw' <;> exact hw'

lemma wp_stillRefreshed {α : Type} {f : Unit → Op α} (h : Idle w)
    (hf : ∀ w', Idle w' → wp (stillCtx accepts task) (f ()).lift (fun _ => Idle) w') :
    wp (stillCtx accepts task) (refresh >>= f).lift (fun _ => Idle) w := by
  rw [lift_bind, wp_bind]
  refine wp_mono ?_ (wp_stillRefresh h)
  rintro (e | _) w' hw'
  · exact hw'
  · exact hf w' hw'

variable {requestId : String}

lemma wp_stillRecordIn {expectedVersion : String} (hrecord : task.isRecord) (h : Idle w)
    (hfits : Fits b w) :
    wp (stillCtx accepts task) (recordIn b requestId expectedVersion).lift (fun _ => Idle) w := by
  have hopen {w : World} (operations : List UpgradeOperation) (h : Idle w) (hfits : Fits b w) :
      wp (stillCtx accepts task)
        (do
          let now ← gets (·.clock)
          let _ ← saveBinding (some b.workspaceId)
            { b with
              upgradeOperations := some (openOperation operations requestId expectedVersion now) }
          return true : Op Bool).lift (fun _ => Idle) w := by
    rw [lift_bind, lift_gets, wp_bind, wp_gets, either_ok]
    exact wp_stillEdit hrecord h hfits rfl rfl
  rw [recordIn]
  split_ifs
  · exact h
  · cases findOperation b.operations requestId with
    | some existing =>
      dsimp only
      split_ifs <;> exact h
    | none =>
      dsimp only
      rw [lift_bind, wp_bind, unblockedOperations]
      split
      · exact hopen _ h hfits
      · rw [lift_bind, wp_bind, Calls.settlePending, lift_request]
        refine wp_stillCall (fun _ _ he => nomatch he) rfl h fun r w' hw' hkept => ?_
        cases r with
        | none => exact hw'
        | some settlement => exact hopen _ hw' (hkept hrecord b hfits)

variable {workspaceId : String}

lemma wp_stillRecordUpgrade {expectedVersion : String} (hrecord : task.isRecord) (h : Idle w) :
    wp (stillCtx accepts task) (recordUpgrade workspaceId requestId expectedVersion).lift
      (fun _ => Idle) w := by
  rw [recordUpgrade, lift_bind, wp_bind]
  refine wp_assertMutable (fun _ => h) fun _ => wp_stillRefreshed h fun w' hw' => ?_
  rw [lift_bind, lift_gets, wp_bind, wp_gets, either_ok]
  cases hfind : w'.1.bindings.find workspaceId with
  | none => exact hw'
  | some b => exact wp_stillRecordIn hrecord hw' (fits_find hfind)

lemma wp_stillComplete {settlement : PendingUpgradeSettlement}
    (hrecord : task.isRecord) (h : Idle w) :
    wp (stillCtx accepts task) (completeUpgrade workspaceId requestId settlement).lift
      (fun _ => Idle) w := by
  refine wp_stillRefreshed h fun w' hw' => ?_
  rw [lift_bind, lift_gets, wp_bind, wp_gets, either_ok]
  cases hfind : w'.1.bindings.find workspaceId with
  | none => exact hw'
  | some b =>
    dsimp only
    split
    · exact hw'
    · exact wp_stillEdit hrecord hw' (fits_find hfind) rfl rfl

lemma wp_stillAcknowledge (hrecord : task.isRecord) (h : Idle w) :
    wp (stillCtx accepts task) (acknowledgeUpgrade workspaceId requestId).lift (fun _ => Idle)
      w := by
  refine wp_stillRefreshed h fun w' hw' => ?_
  rw [lift_bind, lift_gets, wp_bind, wp_gets, either_ok]
  cases hfind : w'.1.bindings.find workspaceId with
  | none => exact hw'
  | some b =>
    dsimp only
    split
    · exact hw'
    · split
      · exact hw'
      · exact hw'
      · exact wp_stillEdit hrecord hw' (fits_find hfind) rfl rfl

lemma wp_stillFailure {operation : LifecycleOperation} {ids : List String} {message : String}
    (hrecord : task.isRecord) (h : Idle w) :
    wp (stillCtx accepts task) (recordFailure operation ids message).lift (fun _ => Idle) w := by
  refine wp_stillRefreshed h fun w' hw' => ?_
  rw [lift_forEach]
  refine wp_forEach (fun _ => Idle) (fun _ hv => hv) (fun id _ v hv => ?_) hw'
  have hread {Q : Except SupervisorError Machine → World → Prop} (hQ : Q (.ok v.1) v) :
      wp (stillCtx accepts task) (Prog.read : Op Machine).lift Q v := hQ
  rw [lift_bind, wp_bind]
  refine hread ?_
  rw [either_ok]
  cases hfind : v.1.bindings.find id with
  | none => exact hv
  | some b =>
    refine wp_mono ?_ (wp_stillEdit (a := ()) hrecord hv (fits_find hfind) rfl rfl)
    rintro (e | _) x hx <;> exact hx

end Records

/-! ### Turns -/

section Turns

variable {accepts : Registry → Bool} {task : Task} {w w' : World}

/-- What is known where a turn ends. -/
def Ending (w : World) : Prop := Booked w ∧ w.1.progress.Calm

lemma UnderWay.ending (h : UnderWay task w) : Ending w := ⟨h.toBooked, h.calm⟩

lemma count_foldl_erase (marked underWay : List String) (id : String) :
    (marked.foldl List.erase underWay).count id = underWay.count id - marked.count id := by
  induction marked generalizing underWay with
  | nil => rfl
  | cons x xs ih =>
    rw [foldl_cons, ih, count_erase, count_cons]
    omega

lemma Ending.settleAll (h : Ending w) : Idle (w.1.settleAll, w.2) where
  steady base hbase := by
    obtain ⟨hpaused, hs⟩ := h.1.steady base hbase
    exact ⟨hpaused, hs.stored hs.bindings hs.disk rfl rfl⟩
  viewing := h.1.viewing
  marks id := by
    have hle := h.1.marks id
    show (w.1.pending.flatMap Task.marks).count id + count id [] ≤
      (w.1.marked.foldl List.erase w.1.underWay).count id
    rw [count_foldl_erase, count_nil]
    omega
  recovered := h.1.recovered
  sequences := h.1.sequences
  calm := h.2
  unmarked := rfl

lemma Ending.finish (h : Ending w) (c : Command) : Idle (c.finish w.1, w.2) := by
  rw [Command.finish]
  split_ifs
  · exact h.settleAll.beside (.of_same rfl) fun base _ hs => hs.release
  · exact h.settleAll

lemma Ending.failedAfterAnswer (h : Ending w) (operation : LifecycleOperation) (name : String)
    (ids : List String) (deadline : Option Nat) (e : SupervisorError) :
    Ending (w.1.failedAfterAnswer operation name ids deadline e, w.2) := by
  have henqueue (message : String) :
      Ending (w.1.enqueue (.recordFailure operation ids message), w.2) := by
    refine ⟨⟨fun base hbase => ?_, h.1.viewing, fun id => ?_, fun hp => ?_, fun c hc => ?_⟩, h.2⟩
    · obtain ⟨hpaused, hs⟩ := h.1.steady base hbase
      exact ⟨hpaused, hs.stored hs.bindings hs.disk rfl rfl⟩
    · have hle := h.1.marks id
      simpa [Machine.enqueue, Task.marks] using hle
    · have hnot := h.1.recovered hp
      simpa [Machine.enqueue] using hnot
    · exact h.1.sequences c (by simpa [Machine.enqueue] using hc)
  unfold Machine.failedAfterAnswer
  split
  · split_ifs
    · exact henqueue _
    · exact h
  · exact h

lemma underWay_of_unpaused (h : Booked w) (hcalm : w.1.progress.Calm)
    (hmarked : w.1.marked = task.marks) (hpaused : w.1.paused = false) : UnderWay task w := by
  have hnot {o : Option (String → Option Bool)} (ho : w.2.observed = o) : o = none := by
    cases o with
    | none => rfl
    | some base =>
      have hp := (h.steady base ho).1
      rw [hpaused] at hp
      cases hp
  refine ⟨⟨h, fun ids hids => ?_⟩, hnot rfl, hcalm, fun id hid => hmarked ▸ hid⟩
  have hp := h.viewing (by rw [hids]; rfl)
  rw [hpaused] at hp
  cases hp

lemma UnderWay.idle (h : UnderWay task w) (hmarks : task.marks = []) : Idle w := by
  refine ⟨h.toBooked, h.calm, eq_nil_iff_forall_not_mem.mpr fun id hid => ?_⟩
  have hown := h.own id hid
  rw [hmarks] at hown
  cases hown

variable {sequence : Nat}

lemma wp_stillAdmitted {operation : LifecycleOperation} {ids : Machine → List String} {deadline : Option Nat} {work : Op Unit} (h : Ending w)
    (hmarked : w.1.marked = task.marks) (hwork : ∀ w', UnderWay task w' → w'.1 = w.1 →
      wp (stillCtx accepts task) work.lift (fun _ => UnderWay task) w') :
    wp (stillCtx accepts task) (reportLate operation ids deadline (admitted sequence work))
      (fun _ => Ending) w := by
  have hadmitted : wp (stillCtx accepts task) (admitted sequence work) (fun _ => Ending) w := by
    refine wp_letIn (fun _ => h) fun hpaused => ⟨trivial, ?_⟩
    have hdecided : Booked (w.1, w.2.decide sequence) := h.1.beside (.of_same rfl) fun base _ hs => hs
    refine wp_mono (fun _ _ hw' => hw'.ending) (hwork _ ?_ rfl)
    exact underWay_of_unpaused hdecided h.2 hmarked hpaused
  refine wp_failsLate hadmitted (fun _ hw' => hw') fun e w' hw' => ⟨trivial, ?_⟩
  exact hw'.failedAfterAnswer operation _ _ deadline e

lemma wp_stillAnswered {work : Turn Unit} {finish : Machine → Machine}
    (hfinish : ∀ w, Ending w → Idle (finish w.1, w.2))
    (hwork : wp (stillCtx accepts task) work (fun _ => Ending) w) :
    wp (stillCtx accepts task) (answered sequence (work.andFinally (onMachine finish)))
      (fun _ => Idle) w := by
  refine wp_ends hwork (fun w' hw' => ⟨trivial, hfinish w' hw'⟩) fun e w' hw' => ?_
  exact ⟨trivial, trivial, (hfinish w' hw').beside (.of_same rfl) fun base _ hs => hs⟩

variable {rest : List Task}

lemma booked_next {s : Machine} {o : Watch} (h : Idle w)
    (hpending : w.1.pending = task :: rest) (hrest : s.pending = rest)
    (hmarked : s.marked = task.marks) (hunderWay : s.underWay = w.1.underWay)
    (hpaused : s.paused = w.1.paused) (hsequence : s.sequence = w.1.sequence)
    (hobserved : o.observed = w.2.observed) (hviewing : o.viewing = w.2.viewing)
    (hsteady : ∀ base, Steady base w.1 → Steady base s) : Booked (s, o) where
  steady base hbase := by
    obtain ⟨hp, hs⟩ := h.steady base (hobserved ▸ hbase)
    exact ⟨hpaused ▸ hp, hsteady base hs⟩
  viewing hview := by
    show s.paused
    rw [hpaused]
    exact h.viewing (hviewing ▸ hview)
  marks id := by
    have hle := h.marks id
    rw [hpending, h.unmarked, flatMap_cons, count_append, count_nil] at hle
    show (s.pending.flatMap Task.marks).count id + s.marked.count id ≤ s.underWay.count id
    rw [hrest, hmarked, hunderWay]
    omega
  recovered hp hmem := by
    refine h.recovered (hpaused ▸ hp) ?_
    rw [hpending]
    exact mem_cons_of_mem task (hrest ▸ hmem)
  sequences c hc := by
    show c.sequence ≤ s.sequence
    rw [hsequence]
    refine h.sequences c ?_
    rw [hpending]
    exact mem_cons_of_mem task (hrest ▸ hc)

lemma wp_stillIntent {c : Command} {Q : Except SupervisorError Unit → World → Prop}
    (h : Idle w) (hsequence : c.sequence ≤ w.1.sequence) (hstop : c.operation = .stop)
    (hk : ∀ r w', Idle w' → w'.1.progress = w.1.progress → c.Answered w'.1 → Q r w') :
    wp (stillCtx accepts (.command c)) (awaitIntent c).lift Q w := by
  rw [awaitIntent, if_pos hstop, lift_bind, wp_bind, Calls.intent, lift_request, wp_request]
  refine ⟨⟨h.shown, fun hm => (nomatch hm)⟩, fun w₁ hrely r w₂ ⟨o, hans⟩ => ⟨trivial, ?_⟩⟩
  have hw₂ := World.answer_intent hans
  have h₂ : Idle w₂ := by
    rw [hw₂]
    refine (h.rely hrely).beside (.of_same rfl) fun base _ hs => ?_
    exact ⟨hs.bindings, hs.disk, fun i hi => hs.writing i (mem_filter.mp hi).1, hs.stopped⟩
  have hanswered : c.Answered w₂.1 := by
    rw [hw₂]
    refine ⟨Nat.le_trans hsequence hrely.sequence, fun i hi => ?_⟩
    simpa using (mem_filter.mp hi).2
  have hprogress : w₂.1.progress = w.1.progress := by
    rw [hw₂]
    exact hrely.progress
  cases r <;> exact hk _ _ h₂ hprogress hanswered

lemma wp_stillCommandTurn {c : Command} (h : Idle w) (hpending : w.1.pending = .command c :: rest) :
    wp (stillCtx accepts (.command c)) (body (.command c)) (fun _ => Idle)
      ({ w.1 with
        pending := rest }, { w.2 with
        author := (Task.command c).author, intentWritten := false }) := by
  rw [body, wp_bind, onMachine, wp_update]
  refine ⟨trivial, wp_stillAnswered (fun _ hw' => hw'.finish c) ?_⟩
  have hbegun : Booked (({ w.1 with pending := rest } : Machine).beginTurn c.marks, { w.2 with
      author := (Task.command c).author, intentWritten := false }) :=
    booked_next h hpending rfl rfl rfl rfl rfl rfl rfl fun base hs => hs.stored hs.bindings hs.disk rfl rfl
  have hwork {w' : World} (hending : Ending w') (hmarked : w'.1.marked = c.marks)
      (hprogress : w'.1.progress = .init) (hanswered : c.operation = .stop → c.Answered w'.1) :
      wp (stillCtx accepts (.command c)) (reportLate c.operation
        (fun s => c.unhandled s.progress) c.deadline (admitted c.sequence (runCommand c)))
        (fun _ => Ending) w' := by
    refine wp_stillAdmitted hending hmarked fun w'' hw'' hsame => wp_stillCommand hw'' ?_
    rw [Command.Begun, hsame, hprogress]
    exact ⟨⟨rfl, rfl⟩, hanswered⟩
  rw [commandWork, wp_bind]
  by_cases hstop : c.operation = .stop
  · have hmarks : c.marks = [] := by rw [Command.marks, if_pos hstop]
    have hsequence : c.sequence ≤ w.1.sequence :=
      h.sequences c (by rw [hpending]; exact mem_cons_self)
    refine wp_stillIntent ⟨hbegun, Progress.init_calm, hmarks⟩ hsequence hstop
      fun r w' hw' hprogress hanswered => ?_
    cases r with
    | error e => exact ⟨hw'.toBooked, hw'.calm⟩
    | ok =>
      exact hwork ⟨hw'.toBooked, hw'.calm⟩ (hw'.unmarked.trans hmarks.symm) hprogress
        fun _ => hanswered
  · rw [awaitIntent, if_neg hstop]
    exact hwork ⟨hbegun, Progress.init_calm⟩ rfl rfl fun h => absurd h hstop

lemma wp_stillConfigureTurn {config : DaemonConfig} {deadline : Option Nat} (h : Idle w)
    (hpending : w.1.pending = .configure config sequence deadline :: rest) :
    wp (stillCtx accepts (.configure config sequence deadline))
      (body (.configure config sequence deadline)) (fun _ => Idle)
      ({ w.1 with
        pending := rest }, { w.2 with
        author := (Task.configure config sequence deadline).author, intentWritten := false }) := by
  rw [body, wp_bind, onMachine, wp_update]
  refine ⟨trivial, wp_stillAnswered (fun _ hw' => hw'.settleAll) ?_⟩
  have hbegun : Booked (({ w.1 with pending := rest } : Machine).beginTurn [config.workspaceId],
      { w.2 with
        author := (Task.configure config sequence deadline).author, intentWritten := false }) :=
    booked_next h hpending rfl rfl rfl rfl rfl rfl rfl
      fun base hs => hs.stored hs.bindings hs.disk rfl rfl
  refine wp_stillAdmitted ⟨hbegun, Progress.init_calm⟩ rfl fun w' hw' hsame => ?_
  refine wp_stillConfigure hw' ?_
  rw [hsame]
  exact cons_ne_nil _ _

lemma wp_stillBody (h : Idle w) (hpending : w.1.pending = task :: rest) :
    wp (stillCtx accepts task) (body task) (fun _ => Idle) ({ w.1 with
        pending := rest }, { w.2 with
        author := task.author, intentWritten := false }) := by
  have hbegun (hmarks : task.marks = []) : Idle ({ w.1 with pending := rest }, { w.2 with
      author := task.author, intentWritten := false }) := by
    refine ⟨booked_next h hpending rfl (h.unmarked.trans hmarks.symm) rfl rfl rfl rfl rfl ?_,
      h.calm, h.unmarked⟩
    exact fun base hs => hs.stored hs.bindings hs.disk rfl rfl
  have hforgot (hmarks : task.marks = []) : Idle ({ w.1 with pending := rest }, { w.2 with
      author := task.author, intentWritten := false, observed := none, viewing := none }) := by
    have hb := hbegun hmarks
    exact ⟨⟨fun _ h => (by cases h), fun h => (by cases h), hb.marks, hb.recovered, hb.sequences⟩,
      hb.calm, hb.unmarked⟩
  have hunderWay {w : World} (hmarks : task.marks = []) (h : Idle w)
      (hobserved : w.2.observed = none) : UnderWay task w :=
    ⟨h.shown, hobserved, h.calm, fun id hid => by rw [h.unmarked] at hid; cases hid⟩
  have hlifecycle {w : World} {p : Op Unit} (hmarks : task.marks = [])
      (hrecord : task.isRecord = false) (hstage : ∀ s, task.stage s) (h : UnderWay task w)
      (hp : ∀ s, (moving (fun _ => True) fun _ h => h).Loose s →
        wp (moving (fun _ => True) fun _ h => h).ctx p
          (moving (fun _ => True) fun _ h => h).Ended s) :
      wp (stillCtx accepts task) p.lift (fun _ => Idle) w :=
    wp_mono (fun _ _ hw' => hw'.idle hmarks) (wp_unmarked hrecord hstage h hp)
  cases task with
  | configure config sequence deadline => exact wp_stillConfigureTurn h hpending
  | command c => exact wp_stillCommandTurn h hpending
  | recover =>
    have hpaused : w.1.paused = false := by
      cases hp : w.1.paused with
      | false => rfl
      | true =>
        refine absurd ?_ (h.recovered hp)
        rw [hpending]
        exact mem_cons_self
    have hb := hbegun rfl
    exact hlifecycle rfl rfl (fun _ => trivial)
      (underWay_of_unpaused hb.toBooked hb.calm hb.unmarked hpaused)
      fun s hs => Concern.wp_reconcileBindings hs
  | reconcile =>
    have hb := hbegun rfl
    cases hpaused : w.1.paused with
    | true =>
      rw [body, reconcile, lift_bind, lift_gets, wp_bind, wp_gets, either_ok, hpaused]
      exact hb
    | false =>
      exact hlifecycle rfl rfl (fun _ => trivial)
        (underWay_of_unpaused hb.toBooked hb.calm hb.unmarked hpaused)
        fun s hs => Concern.wp_reconcile hs
  | recordUpgrade workspaceId requestId expectedVersion =>
    rw [body, wp_bind]
    refine wp_mono ?_ (wp_stillRecordUpgrade rfl (hbegun rfl))
    rintro (e | granted) w' hw'
    · exact hw'
    · cases granted with
      | true => exact ⟨trivial, hw'.beside (.of_same rfl) fun base _ hs => hs⟩
      | false => exact hw'
  | completeUpgrade workspaceId requestId settlement =>
    rw [body, wp_bind]
    refine wp_mono ?_ (wp_stillComplete rfl (hbegun rfl))
    rintro (e | _) w' hw' <;> exact hw'
  | acknowledgeUpgrade workspaceId requestId =>
    rw [body, wp_bind]
    refine wp_mono ?_ (wp_stillAcknowledge rfl (hbegun rfl))
    rintro (e | _) w' hw' <;> exact hw'
  | recordFailure operation workspaceIds message => exact wp_stillFailure rfl (hbegun rfl)
  | snapshot => exact wp_stillRefresh (hbegun rfl)
  | resume =>
    rw [body, wp_bind, forget, onWatch, wp_update]
    refine ⟨trivial, ?_⟩
    rw [either_ok, resume, lift_bind, lift_update, wp_bind, wp_update]
    refine ⟨trivial, ?_⟩
    have hf := hforgot rfl
    refine hlifecycle rfl rfl (fun _ => trivial) (hunderWay rfl ?_ rfl)
      fun s hs => Concern.wp_refreshed hs fun t ht => Concern.wp_reconcileBindings ht.toLoose
    exact ⟨⟨fun _ h => (by cases h), fun h => (by cases h), hf.marks, fun h => (by cases h),
      hf.sequences⟩, hf.calm, hf.unmarked⟩
  | shutdown =>
    rw [body, wp_bind, forget, onWatch, wp_update]
    exact ⟨trivial, hlifecycle rfl rfl (fun _ => trivial) (hunderWay rfl (hforgot rfl) rfl)
      fun s hs => Concern.wp_shutdown hs⟩

end Turns

/-! ### Runs -/

section Runs

variable {accepts : Registry → Bool} {task : Task} {w w' w'' : World} {s : System}

lemma Undisturbed.refl (task : Task) (w : World) : Undisturbed task w w where
  shown := id
  busy _ := id
  fits _ _ _ := id
  locked h := ⟨h, rfl⟩
  progress := rfl
  marked := rfl
  sequence := Nat.le_refl _

lemma Undisturbed.trans (h : Undisturbed task w w') (h' : Undisturbed task w' w'') :
    Undisturbed task w w'' where
  shown hs := h'.shown (h.shown hs)
  busy hrecord hb := h'.busy hrecord (h.busy hrecord hb)
  fits hrecord b hs hf := h'.fits hrecord b (h.shown hs) (h.fits hrecord b hs hf)
  locked hl := by
    obtain ⟨hl', hbindings⟩ := h.locked hl
    obtain ⟨hl'', hbindings'⟩ := h'.locked hl'
    exact ⟨hl'', hbindings'.trans hbindings⟩
  progress := h'.progress.trans h.progress
  marked := h'.marked.trans h.marked
  sequence := Nat.le_trans h.sequence h'.sequence

def stillSpec (accepts : Registry → Bool) : (supervisor accepts).Spec Conclusive where
  idle := Idle
  context := stillCtx accepts
  rely_refl := Undisturbed.refl
  rely_trans _ _ _ _ := .trans
  guar_refl _ _ := trivial
  guar_trans _ _ _ _ _ _ := trivial
  event_idle s l w' _ hok hevent h := by
    obtain ⟨hprogress, hmarked, -⟩ := Concern.progress_event hevent
    exact ⟨(h.shown.event hok hevent).toBooked, hprogress ▸ h.calm, hmarked.trans h.unmarked⟩
  event_rely _ _ _ _ _ hturn hok hevent := undisturbed_event hturn hok hevent
  reply_answer _ _ _ o _ _ _ _ hans := ⟨o, hans⟩
  body_safe s task w' _ _ hnext h := by
    obtain ⟨rest, hpending, rfl⟩ := World.next_cases hnext
    exact wp_stillBody h hpending

lemma idle_init (registry : Registry) (paused : Bool) :
    Idle (System.init registry paused).shared := by
  refine ⟨⟨fun _ h => (nomatch h), fun h => (nomatch h), fun id => ?_, fun hp => ?_, fun c hc => ?_⟩,
    Progress.init_calm, rfl⟩
  · cases paused <;> exact Nat.le_refl _
  · cases paused with
    | true => exact not_mem_nil
    | false => cases hp
  · cases paused with
    | true => cases hc
    | false => simp [System.init, Machine.init] at hc

lemma still_of_inv (h : (stillSpec accepts).Inv s) : Still s := by
  intro base hbase
  have hsteady (hs : Shown s.shared) :
      flags s.shared.1.bindings = base ∧ flags s.shared.1.disk = base := by
    have hs' := (hs.steady base hbase).2
    exact ⟨hs'.bindings, hs'.disk⟩
  rcases hturn : s.turn with _ | ⟨task, p⟩
  · have hidle := ((stillSpec accepts).inv_idle hturn).mp h
    obtain ⟨hbindings, hdisk⟩ := hsteady hidle.shown
    exact ⟨hbindings, hdisk, fun _ hmem => (nomatch hmem)⟩
  · obtain ⟨u, ⟨hshown, hmoves⟩, -, hrely⟩ := ((stillSpec accepts).inv_turn hturn).mp h
    obtain ⟨hbindings, hdisk⟩ := hsteady (hrely.shown hshown)
    refine ⟨hbindings, hdisk, fun turn hmem => ?_⟩
    obtain rfl := Option.some.inj hmem
    cases hmove : p.effect.movesProcess with
    | false => rfl
    | true =>
      obtain ⟨hrecord, hbusy⟩ := hmoves hmove
      have hnone := (hrely.busy hrecord hbusy).unobserved
      rw [hnone] at hbase
      cases hbase

/-- After a conclusive view of a paused machine that reported nothing under way, no process is
started or stopped and no flag changes, until the machine is resumed or shut down. -/
theorem paused_machine_still {accepts : Registry → Bool} {registry : Registry} {paused : Bool}
    {acts : List (Act Event Outcome)} {s : System}
    (hok : Permitted (supervisor accepts).step Conclusive (System.init registry paused) acts)
    (hrun : run (supervisor accepts).step (System.init registry paused) acts = some s) :
    Still s := by
  have hinit : (stillSpec accepts).Inv (System.init registry paused) :=
    ((stillSpec accepts).inv_idle rfl).mpr (idle_init registry paused)
  exact still_of_inv ((stillSpec accepts).safe_run hinit hok hrun)

end Runs

/-- A view of a paused machine, and a start that is refused after it. -/
def viewedRun : List (Act Event Outcome) :=
  [.event .view, .event (.sight "one"), .event .viewed, .event (.start none none), .begin]

theorem paused_machine_still_viewed :
    ∃ s, run (supervisor fun _ => true).step (System.init [sampleBinding "one" true] true)
        viewedRun = some s ∧ s.shared.2.observed.isSome ∧ Still s := by
  obtain ⟨s, hrun, hobserved⟩ := (Option.any_eq_true _ _).mp
    (show (run (supervisor fun _ => true).step (System.init [sampleBinding "one" true] true)
      viewedRun).any (fun s => s.shared.2.observed.isSome) by decide)
  exact ⟨s, hrun, hobserved, paused_machine_still (by decide) hrun⟩

/-- The machine is paused and viewed while a reconcile reads the store, and the reconcile goes on to
start a process that has gone. -/
def overlookedRun : List (Act Event Outcome) :=
  [.begin, .reply .ok, .reply (.value none), .reply (.value (some "first")), .event .reconcile,
    .begin, .event .pause, .event .view, .event (.sight "one"), .event .viewed, .reply .ok,
    .reply .ok, .reply (.value none), .reply (.value none)]

theorem overlooked_reconcile_starts :
    ¬ ∀ (accepts : Registry → Bool) (registry : Registry) paused acts s,
      run (supervisor accepts).step (System.init registry paused) acts = some s → Still s := by
  intro h
  obtain ⟨s, hrun, hstarting⟩ := (Option.any_eq_true _ _).mp
    (show (run (supervisor fun _ => true).step (System.init [sampleBinding "one" true] false)
      overlookedRun).any (fun s => s.shared.2.observed.isSome ∧
        ∃ turn ∈ s.turn, turn.2.effect.movesProcess) by decide)
  obtain ⟨hobserved, turn, hturn, hmoves⟩ := of_decide_eq_true hstarting
  obtain ⟨base, hbase⟩ := Option.isSome_iff_exists.mp hobserved
  have hnot := (h _ _ _ _ s hrun base hbase).2.2 turn hturn
  rw [hmoves] at hnot
  cases hnot

end Coforge.Supervisor
