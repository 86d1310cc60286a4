import Coforge.Display.Effects
import Coforge.Display.Revisions

/-!
# Fences and the index of leases

What the scripts keep of a display, by a clock that does not go back: a visible activity belongs to
the daemon instance of the process, the frames of a launch are accepted in the order of their
numbers, and the lease of a visible busy activity is in the index that the sweep walks. The last is
true unless a sweep takes the lease of an activity whose process is not known yet, and a status
adopts the activity later.
-/

namespace Coforge.Display

open Transition Trace Option DisplayState

/-- The store at the time of the last script, and the activity frames that each stored state has
accepted, by launch and number, the last one first. -/
structure Clocked where
  db : Store := .empty
  now : Nat := 0
  accepted : Scope → List (String × Nat) := fun _ => []

/-- When a script runs. -/
def Operation.now : Operation → Option Nat
  | .observeStatus _ now | .observeActivity _ _ now | .putContextUsage _ now
  | .snapshotMany _ now | .sweepStale _ _ _ now => some now
  | .expire _ => none

/-- The log of accepted activity frames after an operation. -/
def Clocked.accepts (time : Nat → Nat) (w : Clocked) : Operation → Scope → List (String × Nat)
  | .observeActivity frame fence now =>
    if (observeActivity time frame fence now w.db).2.isSome then
      Function.update w.accepted frame.scope
        ((frame.launchId, frame.clientSeq) :: w.accepted frame.scope)
    else w.accepted
  | .expire scope => Function.update w.accepted scope []
  | _ => w.accepted

/-- The clock does not go back. -/
def tick (time : Nat → Nat) (w : Clocked) (op : Operation) : Option Clocked :=
  if op.now.all fun now => w.now ≤ now then
    (step time w.db op).map fun db =>
      { db := db, now := op.now.getD w.now, accepted := w.accepts time op }
  else none

/-- The launch that was replaced last. -/
def lastRetired : List (String × Nat) → Option String
  | [] => none
  | x :: past => ((past.dropWhile fun y => y.1 = x.1).head?).map Prod.fst

/-- While a launch stays the stored one its frames are accepted in the order of their numbers, and
no frame of the launch that was retired last is accepted. -/
def Ordered (accepted : List (String × Nat)) : Prop :=
  Each (fun past x => (∀ y ∈ past.takeWhile fun y => y.1 = x.1, y.2 < x.2) ∧
    lastRetired past ≠ some x.1) accepted

/-- What the display of every scope keeps. -/
structure Consistent (w : Clocked) : Prop where
  owned : ∀ scope process activity, (w.db.face scope).process = some process →
    (w.db.face scope).visible = some activity →
      activity.daemonInstanceId = process.daemonInstanceId
  ordered : ∀ scope, Ordered (w.accepted scope)
  indexed : ∀ scope process activity, (w.db.face scope).running = some process →
    process.lapsed w.now = false → (w.db.face scope).visible = some activity →
      activity.kind.busy → ∃ expiresAt, activity.expiresAt = some expiresAt ∧
        w.db.leases scope = some expiresAt

/-- The times and the numbers of activity frames have at most 14 digits, and the first status of a
scope does not adopt a visible busy activity of its instance whose lease was removed. -/
def Whole (w : Clocked) : Operation → Prop
  | .observeStatus frame _ =>
    (w.db.face frame.scope).process = none → frame.status = .active →
      ∀ activity, (w.db.face frame.scope).visible = some activity → activity.kind.busy →
        activity.daemonInstanceId = frame.daemonInstanceId → (w.db.leases frame.scope).isSome
  | .observeActivity frame _ now => Exact frame.clientSeq ∧ Exact (now + workingLeaseMs)
  | _ => True

/-! ### One scope -/

/-- What is known of the display of a scope at a time. -/
structure Fenced (now : Nat) (s : DisplayState) (lease : Option Nat)
    (accepted : List (String × Nat)) : Prop where
  owned : ∀ process activity, s.process = some process → s.visible = some activity →
    activity.daemonInstanceId = process.daemonInstanceId
  expiring : ∀ activity, s.activity = some activity → activity.kind.busy →
    activity.expiresAt.isSome
  expired : s.processExpired → s.activityVisible = false ∧
    ∃ process, s.process = some process ∧ process.lapsed now
  indexed : ∀ process activity, s.running = some process → process.lapsed now = false →
    s.visible = some activity → activity.kind.busy → lease = activity.expiresAt
  provisional : ∀ activity, s.process = none → s.visible = some activity → activity.kind.busy →
    lease = none ∨ lease = activity.expiresAt
  latest : accepted.head? = s.activity.map fun activity => (activity.launchId, activity.sequence)
  retired : lastRetired accepted = s.retiredLaunchId
  ordered : Ordered accepted

section Scope

variable {now now' : Nat} {s : DisplayState} {lease : Option Nat} {accepted : List (String × Nat)}

lemma fenced_new : Fenced now {} lease [] where
  owned := nofun
  expiring := nofun
  expired := nofun
  indexed := nofun
  provisional := nofun
  latest := rfl
  retired := rfl
  ordered := trivial

variable {process : Process}

lemma Process.lapsed_mono (hle : now ≤ now') (h : process.lapsed now) : process.lapsed now' := by
  rw [Process.lapsed] at h ⊢
  cases hlease : process.leaseUntil with
  | none =>
    rw [hlease] at h
    cases h
  | some t =>
    rw [hlease] at h
    simp only [any_some, decide_eq_true_eq] at h ⊢
    exact h.trans hle

lemma Fenced.later (h : Fenced now s lease accepted) (hle : now ≤ now') :
    Fenced now' s lease accepted where
  owned := h.owned
  expiring := h.expiring
  expired hexpired := by
    obtain ⟨hhidden, process, hprocess, hlapsed⟩ := h.expired hexpired
    exact ⟨hhidden, process, hprocess, process.lapsed_mono hle hlapsed⟩
  indexed process activity hrunning hlive := by
    refine h.indexed process activity hrunning ?_
    by_contra hlapsed
    rw [Bool.not_eq_false] at hlapsed
    rw [process.lapsed_mono hle hlapsed] at hlive
    cases hlive
  provisional := h.provisional
  latest := h.latest
  retired := h.retired
  ordered := h.ordered

/-- What a projection does: nothing, or to find the process expired, or to hide the activity. -/
inductive Projects (s : DisplayState) (now : Nat) : DisplayState → Prop where
  | live (h : ∀ process, s.running = some process → process.lapsed now = false) :
      Projects s now s.unrevised
  | expired (process : Process) (hprocess : s.process = some process)
      (hlapsed : process.lapsed now) :
      Projects s now { s with processExpired := true, activityVisible := false, revision := none }
  | hidden (h : ∀ process, s.running = some process → process.lapsed now = false) :
      Projects s now { s with activityVisible := false, revision := none }

lemma process_of_running (h : s.running = some process) :
    s.processExpired = false ∧ s.process = some process ∧ process.status = .active := by
  rw [running] at h
  split_ifs at h with hexpired
  obtain ⟨hprocess, hactive⟩ := filter_eq_some_iff.mp h
  exact ⟨Bool.eq_false_iff.mpr hexpired, hprocess, of_decide_eq_true hactive⟩

lemma projects_projected (s : DisplayState) (now : Nat) : Projects s now (s.projected now) := by
  rw [projected]
  cases hrunning : s.running with
  | none =>
    have hprojection : s.projection now = none := by
      rw [projection, hrunning]
      rfl
    rw [hprojection]
    exact .live fun process h => by cases (hrunning.symm.trans h)
  | some process =>
    by_cases hlapsed : process.lapsed now
    · have hprojection : s.projection now =
          some { s with processExpired := true, activityVisible := false } := by
        rw [projection, hrunning, bind_some, if_pos hlapsed]
      rw [hprojection]
      exact .expired process (process_of_running hrunning).2.1 hlapsed
    · have hlive : ∀ p, s.running = some p → p.lapsed now = false := by
        intro p hp
        rw [← some.inj (hrunning.symm.trans hp)]
        exact Bool.eq_false_iff.mpr hlapsed
      have hprojection : s.projection now = s.visible.bind fun activity =>
          if activity.kind.busy && activity.lapsed now then some { s with activityVisible := false }
          else none := by
        rw [projection, hrunning, bind_some, if_neg hlapsed]
      rw [hprojection]
      cases s.visible with
      | none => exact .live hlive
      | some activity =>
        rw [bind_some]
        split_ifs
        · exact .hidden hlive
        · exact .live hlive

lemma projected_live (h : (s.projected now).running = some process) :
    process.lapsed now = false := by
  have hprojects := projects_projected s now
  generalize s.projected now = s' at h hprojects
  cases hprojects with
  | live hlive => exact hlive process h
  | expired => cases h
  | hidden hlive => exact hlive process h

lemma Fenced.projected (h : Fenced now s lease accepted) :
    Fenced now (s.projected now) lease accepted := by
  have hprojects := projects_projected s now
  generalize s.projected now = s' at hprojects
  cases hprojects with
  | live =>
    exact ⟨h.owned, h.expiring, h.expired, h.indexed, h.provisional, h.latest, h.retired, h.ordered⟩
  | expired process hprocess hlapsed =>
    exact ⟨nofun, h.expiring, fun _ => ⟨rfl, process, hprocess, hlapsed⟩, nofun, nofun, h.latest,
      h.retired, h.ordered⟩
  | hidden =>
    exact ⟨nofun, h.expiring, fun hexpired => ⟨rfl, (h.expired hexpired).2⟩, nofun, nofun, h.latest,
      h.retired, h.ordered⟩

variable {activity : Activity}

lemma Fenced.activity_of_visible (h : Fenced now s lease accepted)
    (hvisible : s.visible = some activity) :
    s.activity = some activity ∧ s.processExpired = false := by
  rw [visible] at hvisible
  split_ifs at hvisible with hshown
  refine ⟨hvisible, ?_⟩
  by_contra hexpired
  rw [Bool.not_eq_false] at hexpired
  rw [(h.expired hexpired).1] at hshown
  cases hshown

/-! ### Frames -/

lemma Fenced.withStatus (h : Fenced now s lease accepted)
    (hlive : ∀ process, s.running = some process → process.lapsed now = false) {frame : AgentStatus}
    (hadopts : s.process = none → frame.status = .active → ∀ activity, s.visible = some activity →
      activity.kind.busy → activity.daemonInstanceId = frame.daemonInstanceId → lease.isSome) :
    Fenced now (s.withStatus frame now) (if frame.status = .inactive then none else lease)
      accepted := by
  -- A visible activity was visible before, is of the frame's instance, and the process is active.
  have hvisible : ∀ activity, (s.withStatus frame now).visible = some activity →
      s.visible = some activity ∧ activity.daemonInstanceId = frame.daemonInstanceId ∧
        frame.status = .active ∧ ∀ process, s.process = some process → s.running = some process := by
    intro activity hactivity
    rw [visible] at hactivity
    split_ifs at hactivity with hshown
    simp only [DisplayState.withStatus] at hshown hactivity
    split_ifs at hshown with hresets
    have hbefore : s.visible = some activity := by rw [visible, if_pos hshown, hactivity]
    simp only [Bool.or_eq_true, not_or, Bool.not_eq_true] at hresets
    obtain ⟨hkeeps, hprovisional⟩ := hresets
    simp only [resets, Bool.or_eq_false_iff, decide_eq_false_iff_not] at hkeeps
    have hactive : frame.status = .active := by
      cases hstatus : frame.status with
      | active => rfl
      | inactive => exact absurd hstatus hkeeps.2
    refine ⟨hbefore, ?_, hactive, fun process hprocess => ?_⟩
    · cases hprocess : s.process with
      | none =>
        rw [hprocess] at hprovisional
        simp only [isNone_none, Bool.and_true, Bool.not_eq_false'] at hprovisional
        rw [preservesProvisional, hprocess, hbefore] at hprovisional
        simpa using hprovisional
      | some current =>
        rw [hprocess] at hkeeps
        simp only [any_some, Bool.or_eq_false_iff, decide_eq_false_iff_not, not_not] at hkeeps
        exact (h.owned current activity hprocess hbefore).trans hkeeps.1.1
    · rw [hprocess] at hkeeps
      simp only [any_some, Bool.or_eq_false_iff, decide_eq_false_iff_not, not_not] at hkeeps
      have hrunning : process.status = .active := by
        cases hstatus : process.status with
        | active => rfl
        | inactive => exact absurd hstatus hkeeps.1.2
      rw [running, (h.activity_of_visible hbefore).2, hprocess]
      simp [hrunning]
  refine ⟨?_, h.expiring, nofun, ?_, nofun, h.latest, h.retired, h.ordered⟩
  · intro process activity hprocess hactivity
    cases hprocess
    exact (hvisible activity hactivity).2.1
  · intro process activity _ _ hactivity hbusy
    obtain ⟨hbefore, hinstance, hactive, hrunning⟩ := hvisible activity hactivity
    rw [if_neg (by rw [hactive]; exact nofun)]
    cases hprocess : s.process with
    | none =>
      have hlease := hadopts hprocess hactive activity hbefore hbusy hinstance
      rcases h.provisional activity hprocess hbefore hbusy with hnone | hsame
      · rw [hnone] at hlease
        cases hlease
      · exact hsame
    | some current =>
      have hcurrent := hrunning current hprocess
      exact h.indexed current activity hcurrent (hlive current hcurrent) hbefore hbusy

lemma ordered_cons (hordered : Ordered accepted) {launchId : String} {clientSeq : Nat}
    (hfirst : ∀ n, accepted.head? = some (launchId, n) → n < clientSeq)
    (hretired : lastRetired accepted ≠ some launchId) :
    Ordered ((launchId, clientSeq) :: accepted) := by
  refine ⟨⟨fun y hy => ?_, hretired⟩, hordered⟩
  cases accepted with
  | nil => cases hy
  | cons x past =>
    by_cases hx : x.1 = launchId
    · have hxlt : x.2 < clientSeq := hfirst x.2 (by rw [← hx]; rfl)
      rw [List.takeWhile_cons_of_pos (by simpa using hx)] at hy
      rcases List.mem_cons.mp hy with rfl | hy
      · exact hxlt
      · have hbelow := hordered.1.1 y (by rw [hx]; exact hy)
        exact hbelow.trans hxlt
    · rw [List.takeWhile_cons_of_neg (by simpa using hx)] at hy
      cases hy

lemma lastRetired_cons (launchId : String) (clientSeq : Nat) (accepted : List (String × Nat)) :
    lastRetired ((launchId, clientSeq) :: accepted) =
      match accepted.head? with
      | none => none
      | some x => if x.1 = launchId then lastRetired accepted else some x.1 := by
  cases accepted with
  | nil => rfl
  | cons x past =>
    simp only [lastRetired, List.head?_cons]
    by_cases hx : x.1 = launchId
    · rw [if_pos hx, List.dropWhile_cons_of_pos (by simpa using hx), hx]
    · rw [if_neg hx, List.dropWhile_cons_of_neg (by simpa using hx)]
      rfl

lemma retires_of_activity {frame : AgentActivity} {previous : Activity}
    (h : s.activity = some previous) :
    s.retires frame = if previous.launchId = frame.launchId then none else some previous.launchId := by
  rw [retires, h, filter_some]
  by_cases hsame : previous.launchId = frame.launchId
  · rw [if_pos hsame, if_neg (by simpa using hsame)]
    rfl
  · rw [if_neg hsame, if_pos (by simpa using hsame)]
    rfl

lemma Fenced.withActivity (h : Fenced now s lease accepted) {frame : AgentActivity} {fence : Fence}
    {kind : AgentActivityKind} (haccepts : s.acceptsActivity frame fence now)
    (hsequence : Exact frame.clientSeq) (htime : Exact (now + workingLeaseMs)) :
    Fenced now (s.withActivity frame fence kind now)
      (if kind.busy then some (now + workingLeaseMs) else none)
      ((frame.launchId, frame.clientSeq) :: accepted) := by
  simp only [acceptsActivity, Bool.and_eq_true, decide_eq_true_eq] at haccepts
  obtain ⟨⟨⟨-, hprocess⟩, hretired⟩, hprevious⟩ := haccepts
  have hlive : ∀ process, s.process = some process →
      process.daemonInstanceId = fence.daemonInstanceId ∧ process.lapsed now = false := by
    intro process hsome
    rw [hsome, all_some] at hprocess
    simp only [Bool.and_eq_true, decide_eq_true_eq, Bool.not_eq_true'] at hprocess
    exact ⟨hprocess.1.1, hprocess.2⟩
  have hvisible : ∀ activity, (s.withActivity frame fence kind now).visible = some activity →
      activity = frame.activity fence kind now := by
    intro activity hactivity
    exact (some.inj hactivity).symm
  have hlease : kind.busy → (frame.activity fence kind now).expiresAt =
      some (now + workingLeaseMs) := by
    intro hbusy
    simp only [AgentActivity.activity]
    rw [if_pos hbusy, cjsonNumber_of_exact htime]
  refine ⟨?_, ?_, ?_, ?_, ?_, ?_, ?_, ?_⟩
  · intro process activity hsome hactivity
    rw [hvisible activity hactivity]
    exact (hlive process hsome).1.symm
  · intro activity hactivity hbusy
    cases hactivity
    rw [hlease hbusy]
    rfl
  · intro hexpired
    obtain ⟨-, process, hsome, hlapsed⟩ := h.expired hexpired
    rw [(hlive process hsome).2] at hlapsed
    cases hlapsed
  · intro process activity _ _ hactivity hbusy
    rw [hvisible activity hactivity] at hbusy ⊢
    have hkind : kind.busy := hbusy
    rw [if_pos hkind, hlease hkind]
  · intro activity _ hactivity hbusy
    rw [hvisible activity hactivity] at hbusy ⊢
    have hkind : kind.busy := hbusy
    rw [if_pos hkind, hlease hkind]
    exact .inr rfl
  · simp only [DisplayState.withActivity, List.head?_cons, map_some, AgentActivity.activity,
      cjsonNumber_of_exact hsequence]
  · rw [lastRetired_cons, h.latest]
    simp only [DisplayState.withActivity]
    cases hactivity : s.activity with
    | none =>
      have hnone : lastRetired accepted = none := by
        have hhead := h.latest
        rw [hactivity] at hhead
        cases accepted with
        | nil => rfl
        | cons => cases hhead
      rw [retires, hactivity, ← h.retired, hnone]
      rfl
    | some previous =>
      rw [retires_of_activity hactivity]
      simp only [map_some]
      by_cases hsame : previous.launchId = frame.launchId
      · rw [if_pos hsame, if_pos hsame]
        exact h.retired
      · rw [if_neg hsame, if_neg hsame]
        rfl
  · refine ordered_cons h.ordered (fun n hn => ?_) ?_
    · rw [h.latest] at hn
      obtain ⟨previous, hactivity, hpair⟩ := map_eq_some_iff.mp hn
      rw [hactivity, all_some, if_pos (congrArg Prod.fst hpair)] at hprevious
      have hnumber : previous.sequence = n := congrArg Prod.snd hpair
      rw [← hnumber]
      exact of_decide_eq_true hprevious
    · rw [h.retired]
      exact hretired

lemma Fenced.withUsage (h : Fenced now s lease accepted) (usage : ContextUsage) :
    Fenced now { s with contextUsage := some usage } lease accepted :=
  ⟨h.owned, h.expiring, h.expired, h.indexed, h.provisional, h.latest, h.retired, h.ordered⟩

/-! ### The sweep -/

lemma Fenced.removed (h : Fenced now s lease accepted) (hidle : s.busyVisible now = none) :
    Fenced now s none accepted := by
  refine ⟨h.owned, h.expiring, h.expired, ?_, fun _ _ _ _ => .inl rfl, h.latest, h.retired,
    h.ordered⟩
  intro process activity hrunning hlive hactivity hbusy
  rw [busyVisible, hrunning, filter_some, if_pos (by rw [hlive]; rfl),
    bind_some, hactivity, filter_some, if_pos hbusy] at hidle
  cases hidle

lemma busyVisible_eq_some (h : s.busyVisible now = some activity) :
    s.visible = some activity ∧ activity.kind.busy := by
  obtain ⟨-, -, h⟩ := bind_eq_some_iff.mp h
  exact filter_eq_some_iff.mp h

lemma Fenced.renewed (h : Fenced now s lease accepted) (hbusy : s.busyVisible now = some activity) :
    Fenced now s (some (activity.expiresAt.getD 0)) accepted := by
  obtain ⟨hvisible, hkind⟩ := busyVisible_eq_some hbusy
  have hexpires := h.expiring activity (h.activity_of_visible hvisible).1 hkind
  obtain ⟨expiresAt, hexpires⟩ := isSome_iff_exists.mp hexpires
  have hsame : ∀ activity', s.visible = some activity' →
      some (activity.expiresAt.getD 0) = activity'.expiresAt := by
    intro activity' hvisible'
    rw [← some.inj (hvisible.symm.trans hvisible'), hexpires]
    rfl
  exact ⟨h.owned, h.expiring, h.expired, fun _ activity' _ _ hvisible' _ => hsame activity' hvisible',
    fun activity' _ hvisible' _ => .inr (hsame activity' hvisible'), h.latest, h.retired, h.ordered⟩

lemma Fenced.hidden (h : Fenced now s lease accepted) :
    Fenced now { s with activityVisible := false, probe := none } none accepted :=
  ⟨nofun, h.expiring, fun hexpired => ⟨rfl, (h.expired hexpired).2⟩, nofun, nofun, h.latest,
    h.retired, h.ordered⟩

lemma Fenced.probed (h : Fenced now s lease accepted) (probe : Probe) :
    Fenced now { s with probe := some probe } lease accepted :=
  ⟨h.owned, h.expiring, h.expired, h.indexed, h.provisional, h.latest, h.retired, h.ordered⟩

end Scope

/-! ### Every scope -/

/-- The displays of all scopes at a time. -/
def AllFenced (now : Nat) (db : Store) (accepted : Scope → List (String × Nat)) : Prop :=
  ∀ scope, Fenced now (db.face scope) (db.leases scope) (accepted scope)

section Store

variable {time : Nat → Nat} {now : Nat} {db db' : Store} {scope : Scope}
  {accepted : Scope → List (String × Nat)}

lemma AllFenced.leaves (h : AllFenced now db accepted) {face : DisplayState} {lease : Option Nat}
    {log : List (String × Nat)} (hleaves : Leaves scope db db' face lease)
    (hface : Fenced now face lease log) :
    AllFenced now db' (Function.update accepted scope log) := by
  intro other
  by_cases hother : other = scope
  · rw [hother, Function.update_self, hleaves.face, hleaves.lease]
    exact hface
  · rw [Function.update_of_ne hother, hleaves.within.face other hother,
      hleaves.within.lease other hother]
    exact h other

lemma AllFenced.keeps (h : AllFenced now db accepted) {face : DisplayState} {lease : Option Nat}
    (hleaves : Leaves scope db db' face lease) (hface : Fenced now face lease (accepted scope)) :
    AllFenced now db' accepted := by
  have hall := h.leaves hleaves hface
  rwa [Function.update_eq_self] at hall

lemma AllFenced.projected (h : AllFenced now db accepted) (scope : Scope) :
    Fenced now ((db.state scope).projected now) (db.leases scope) (accepted scope) := by
  rw [projected_face]
  exact (h scope).projected

lemma projected_fields {s : DisplayState} : (s.projected now).process = s.process ∧
      ∀ activity, (s.projected now).visible = some activity → s.visible = some activity := by
  have hprojects := projects_projected s now
  generalize s.projected now = s' at hprojects
  cases hprojects with
  | live => exact ⟨rfl, fun _ h => h⟩
  | expired => exact ⟨rfl, nofun⟩
  | hidden => exact ⟨rfl, nofun⟩

lemma fenced_observeStatus (h : AllFenced now db accepted) {frame : AgentStatus}
    (hwhole : (db.face frame.scope).process = none → frame.status = .active →
      ∀ activity, (db.face frame.scope).visible = some activity → activity.kind.busy →
        activity.daemonInstanceId = frame.daemonInstanceId → (db.leases frame.scope).isSome) :
    AllFenced now (observeStatus time frame now db).1 accepted := by
  have hprojected := h.projected frame.scope
  by_cases haccepts : ((db.state frame.scope).projected now).acceptsStatus frame
  · refine h.keeps (observeStatus_accepted time haccepts).2 ?_
    refine hprojected.withStatus (fun process => projected_live) ?_
    intro hprocess hactive activity hvisible
    rw [projected_face] at hprocess hvisible
    rw [projected_fields.1] at hprocess
    exact hwhole hprocess hactive activity (projected_fields.2 activity hvisible)
  · exact h.keeps (observeStatus_refused time haccepts).2 hprojected

lemma fenced_putContextUsage (h : AllFenced now db accepted) {frame : AgentContextUsage} :
    AllFenced now (putContextUsage time frame now db).1 accepted := by
  have hprojected := h.projected frame.scope
  by_cases haccepts : ((db.state frame.scope).projected now).acceptsUsage frame
  · exact h.keeps (putContextUsage_accepted time haccepts).2 (hprojected.withUsage frame.usage)
  · exact h.keeps (putContextUsage_refused time haccepts).2 hprojected

lemma fenced_takeSnapshots (h : AllFenced now db accepted) (readKey : Scope) (scopes : List Scope) :
    AllFenced now (takeSnapshots time readKey now scopes db).1 accepted := by
  induction scopes generalizing db with
  | nil => exact h
  | cons scope scopes ih =>
    exact ih (h.keeps (takeSnapshot_leaves time readKey scope now db) (h.projected scope))

lemma fenced_sweepStale (h : AllFenced now db accepted) {probeId : String} {timeoutMs : Nat} :
    AllFenced now (sweepStale time scope probeId timeoutMs now db).1 accepted := by
  have hscope := h scope
  have hsame : (db.state scope).busyVisible now = (db.face scope).busyVisible now := rfl
  rw [sweepStale]
  simp only
  cases hbusy : (db.state scope).busyVisible now with
  | none =>
    rw [hsame] at hbusy
    exact h.keeps ⟨rfl, lease_zrem, within_zrem⟩ (hscope.removed hbusy)
  | some activity =>
    rw [hsame] at hbusy
    simp only
    split_ifs with hlapsed
    · exact h.keeps ⟨rfl, lease_zadd, within_zadd⟩ (hscope.renewed hbusy)
    · cases hprobe : (db.state scope).probe with
      | none =>
        exact h.keeps ⟨face_save, rfl, within_save⟩ (hscope.probed ⟨probeId, cjsonNumber now⟩)
      | some probe =>
        simp only
        split_ifs
        · exact h
        · have hleaves : Leaves scope db
              (((revision time scope scope db { db.state scope with
                activityVisible := false, probe := none }).1.save scope
                (revision time scope scope db { db.state scope with
                  activityVisible := false, probe := none }).2).zrem scope)
              { db.face scope with activityVisible := false, probe := none } none := by
            refine ⟨?_, lease_zrem, ?_⟩
            · exact face_save
            · exact ((within_revision time).trans within_save).trans within_zrem
          exact h.keeps hleaves hscope.hidden

lemma fenced_observeActivity {w : Clocked} (h : AllFenced now w.db w.accepted)
    {frame : AgentActivity} {fence : Fence}
    (hsequence : Exact frame.clientSeq) (htime : Exact (now + workingLeaseMs)) :
    AllFenced now (observeActivity time frame fence now w.db).1
      (w.accepts time (.observeActivity frame fence now)) := by
  rw [Clocked.accepts]
  cases hkind : activityKindForObservation frame with
  | none =>
    have hsame : observeActivity time frame fence now w.db = (w.db, none) := by
      simp only [observeActivity, hkind]
    rw [hsame, if_neg (by simp)]
    exact h
  | some kind =>
    have hprojected := h.projected frame.scope
    by_cases haccepts : ((w.db.state frame.scope).projected now).acceptsActivity frame fence now
    · obtain ⟨hsome, hleaves⟩ := observeActivity_accepted time hkind haccepts
      rw [if_pos hsome]
      exact h.leaves hleaves (hprojected.withActivity haccepts hsequence htime)
    · obtain ⟨hnone, hleaves⟩ := observeActivity_refused time hkind haccepts
      rw [if_neg (by rw [hnone]; exact Bool.false_ne_true)]
      exact h.keeps hleaves hprojected

lemma fenced_expire (h : AllFenced now db accepted) :
    AllFenced now { db with states := Function.update db.states scope none }
      (Function.update accepted scope []) := by
  intro other
  by_cases hother : other = scope
  · rw [hother, Function.update_self, Store.face, Store.state]
    simp only [Function.update_self]
    exact fenced_new
  · rw [Function.update_of_ne hother, Store.face, Store.state]
    simp only [Function.update_of_ne hother]
    exact h other

/-- What one script of a run preserves. -/
theorem fenced_tick {w w' : Clocked} {op : Operation} (h : AllFenced w.now w.db w.accepted)
    (hwhole : Whole w op) (htick : tick time w op = some w') :
    AllFenced w'.now w'.db w'.accepted := by
  rw [tick] at htick
  split_ifs at htick with hclock
  obtain ⟨db, hstep, rfl⟩ := map_eq_some_iff.mp htick
  have hlater : ∀ now, op.now = some now → AllFenced now w.db w.accepted := by
    intro now hnow scope
    rw [hnow] at hclock
    exact (h scope).later (of_decide_eq_true hclock)
  cases op with
  | observeStatus frame now =>
    cases hstep
    exact fenced_observeStatus (hlater now rfl) hwhole
  | observeActivity frame fence now =>
    cases hstep
    exact fenced_observeActivity (hlater now rfl) hwhole.1 hwhole.2
  | putContextUsage frame now =>
    cases hstep
    exact fenced_putContextUsage (hlater now rfl)
  | sweepStale scope probeId timeoutMs now =>
    cases hstep
    exact fenced_sweepStale (hlater now rfl)
  | expire scope =>
    cases hstep
    exact fenced_expire h
  | snapshotMany scopes now =>
    cases hstep
    cases scopes with
    | nil => exact hlater now rfl
    | cons first scopes => exact fenced_takeSnapshots (hlater now rfl) first (first :: scopes)

end Store

lemma AllFenced.consistent {w : Clocked} (h : AllFenced w.now w.db w.accepted) : Consistent w where
  owned scope process activity := (h scope).owned process activity
  ordered scope := (h scope).ordered
  indexed scope process activity hrunning hlive hvisible hbusy := by
    have hlease := (h scope).indexed process activity hrunning hlive hvisible hbusy
    have hexpires := (h scope).expiring activity ((h scope).activity_of_visible hvisible).1 hbusy
    obtain ⟨expiresAt, hexpires⟩ := isSome_iff_exists.mp hexpires
    exact ⟨expiresAt, hexpires, hlease.trans hexpires⟩

/-- Along a run in which no first status adopts a visible busy activity whose lease was removed,
every display is consistent. -/
theorem displays_consistent {time : Nat → Nat} {w : Clocked} {ops : List Operation}
    (hok : Permitted (tick time) Whole {} ops) (hrun : run (tick time) {} ops = some w) :
    Consistent w := by
  have hkept : ∀ w op w', AllFenced w.now w.db w.accepted → Whole w op →
      tick time w op = some w' → AllFenced w'.now w'.db w'.accepted :=
    fun w op w' h hwhole htick => fenced_tick h hwhole htick
  have hnew : AllFenced 0 Store.empty fun _ => [] := fun _ => fenced_new
  have hfenced : AllFenced w.now w.db w.accepted := invariant hkept hnew hok hrun
  exact hfenced.consistent

/-! ### An activity before its process -/

/-- A frame that says the Agent is at work. -/
def atWork (clientSeq : Nat) : AgentActivity where
  scope := firstScope
  detailKind := "tool_started"
  level := .info
  detail := ""
  observedAtMs := 1
  launchId := "launch"
  clientSeq := clientSeq
  entries := "[]"
  isHeartbeat := false

/-- The first status of the process. -/
def started : AgentStatus := ⟨firstScope, .active, "instance", 1, 1⟩

/-- The process is known before the activity, and the sweep finds the activity. -/
theorem process_first_consistent : ∃ w, run (tick fun _ => 1) {} [.observeStatus started 1,
        .observeActivity (atWork 1) ⟨"instance", "launch"⟩ 2,
        .sweepStale firstScope "probe" 10000 3] = some w ∧ Consistent w := by
  refine ⟨_, rfl, ?_⟩
  have hok : Permitted (tick fun _ => 1) Whole {} [.observeStatus started 1,
      .observeActivity (atWork 1) ⟨"instance", "launch"⟩ 2,
      .sweepStale firstScope "probe" 10000 3] := by
    refine ⟨?_, fun _ _ => ⟨⟨by decide, by decide⟩, fun _ _ => ⟨trivial, fun _ _ => trivial⟩⟩⟩
    intro _ _ activity hvisible
    exact nomatch (show (none : Option Activity) = some activity from hvisible)
  exact displays_consistent hok rfl

/-- A sweep takes the lease of the activity as long as its process is not known; the status that
adopts the activity leaves it visible and busy, out of the index. -/
theorem adopted_without_lease :
    ∃ w, run (tick fun _ => 1) {} [.observeActivity (atWork 1) ⟨"instance", "launch"⟩ 1,
        .observeActivity (atWork 2) ⟨"instance", "launch"⟩ 90002,
        .sweepStale firstScope "probe" 10000 90003, .observeStatus started 90004] = some w ∧
      ((w.db.face firstScope).visible.map fun activity => (activity.kind, activity.expiresAt)) =
        some (.working, some 180002) ∧ w.db.leases firstScope = none ∧ ¬Consistent w := by
  refine ⟨_, rfl, by decide, by decide, fun h => ?_⟩
  obtain ⟨expiresAt, -, hlease⟩ := h.indexed firstScope _ _ rfl (by decide) rfl (by decide)
  cases hlease

end Coforge.Display
