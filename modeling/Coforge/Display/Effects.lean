import Coforge.Display.Scripts

/-!
# What a script leaves

A script changes the state and the lease of its own scope, and the revision of the state in ways
that nothing but revisions depends on. Leaving the revision out, what it leaves is the projected
state, with the frame applied if it was accepted.
-/

namespace Coforge.Display

/-- The state without its revision. -/
def DisplayState.unrevised (state : DisplayState) : DisplayState := { state with revision := none }

/-- The state as `project` leaves it, but for the revision. -/
def DisplayState.projected (state : DisplayState) (now : Nat) : DisplayState :=
  ((state.projection now).getD state).unrevised

/-- The display of a scope without its revision. -/
def Store.face (db : Store) (scope : Scope) : DisplayState := (db.state scope).unrevised

/-- What a script does to the other scopes: nothing. -/
structure Within (scope : Scope) (db db' : Store) : Prop where
  face : ∀ other, other ≠ scope → db'.face other = db.face other
  lease : ∀ other, other ≠ scope → db'.leases other = db.leases other

/-- What a script leaves of its scope: the display without its revision, and the lease. -/
structure Leaves (scope : Scope) (db db' : Store) (face : DisplayState) (lease : Option Nat) :
    Prop where
  face : db'.face scope = face
  lease : db'.leases scope = lease
  within : Within scope db db'

/-- What `project` leaves: the store but for the counter, and the projected state. -/
structure Projected (scope : Scope) (now : Nat) (db : Store)
    (result : Store × DisplayState × Bool) : Prop where
  states : result.1.states = db.states
  leases : result.1.leases = db.leases
  state : result.2.1.unrevised = (db.state scope).projected now
  unchanged : result.2.2 = false → result.2.1 = db.state scope

section Effects

variable (time : Nat → Nat) {db db' : Store} {scope readKey : Scope} {now : Nat}
  {state : DisplayState} {projected : Bool}

lemma projected_project (readKey scope : Scope) (now : Nat) (db : Store) :
    Projected scope now db (project time readKey scope now db (db.state scope)) := by
  rw [project]
  cases hprojection : (db.state scope).projection now with
  | none =>
    refine ⟨rfl, rfl, ?_, fun _ => rfl⟩
    rw [DisplayState.projected, hprojection]
    rfl
  | some next =>
    refine ⟨rfl, rfl, ?_, nofun⟩
    rw [DisplayState.projected, hprojection]
    rfl

lemma Projected.within (h : Projected scope now db (db', state, projected)) :
    Within scope db db' := by
  refine ⟨fun other _ => ?_, fun other _ => ?_⟩
  · rw [Store.face, Store.state, h.states]
    rfl
  · rw [h.leases]

lemma Within.trans {db'' : Store} (h : Within scope db db') (h' : Within scope db' db'') :
    Within scope db db'' :=
  ⟨fun other hne => (h'.face other hne).trans (h.face other hne),
    fun other hne => (h'.lease other hne).trans (h.lease other hne)⟩

lemma within_save : Within scope db (db.save scope state) := by
  refine ⟨fun other hne => ?_, fun other _ => rfl⟩
  simp [Store.face, Store.state, Store.save, hne]

lemma within_zadd {score : Nat} : Within scope db (db.zadd scope score) :=
  ⟨fun _ _ => rfl, fun other hne => by simp [Store.zadd, hne]⟩

lemma within_zrem : Within scope db (db.zrem scope) :=
  ⟨fun _ _ => rfl, fun other hne => by simp [Store.zrem, hne]⟩

lemma within_revision {other : Scope} : Within scope db (revision time readKey other db state).1 :=
  ⟨fun _ _ => rfl, fun _ _ => rfl⟩

@[simp] lemma face_save : (db.save scope state).face scope = state.unrevised := by
  simp [Store.face, Store.state, Store.save]

@[simp] lemma lease_save : (db.save scope state).leases = db.leases := rfl

@[simp] lemma lease_zadd {score : Nat} : (db.zadd scope score).leases scope = some score := by
  simp [Store.zadd]

@[simp] lemma lease_zrem : (db.zrem scope).leases scope = none := by
  simp [Store.zrem]

@[simp] lemma lease_revision : (revision time readKey scope db state).1.leases = db.leases := rfl

lemma Projected.reject (h : Projected scope now db (db', state, projected)) :
    Leaves scope db (reject scope projected db' state) ((db.state scope).projected now)
      (db.leases scope) := by
  rw [Display.reject]
  cases projected with
  | true =>
    rw [if_pos rfl]
    refine ⟨?_, ?_, h.within.trans within_save⟩
    · rw [face_save]
      exact h.state
    · rw [lease_save, h.leases]
  | false =>
    rw [if_neg Bool.false_ne_true]
    refine ⟨?_, ?_, h.within⟩
    · rw [← h.state, h.unchanged rfl, Store.face, Store.state, h.states]
      rfl
    · rw [h.leases]

/-! ### The scripts -/

theorem observeStatus_accepted {frame : AgentStatus}
    (h : ((db.state frame.scope).projected now).acceptsStatus frame) :
    (observeStatus time frame now db).2.isSome ∧
      Leaves frame.scope db (observeStatus time frame now db).1
        (((db.state frame.scope).projected now).withStatus frame now)
        (if frame.status = .inactive then none else db.leases frame.scope) := by
  have hprojected := projected_project time frame.scope frame.scope now db
  simp only [observeStatus]
  rcases heq : project time frame.scope frame.scope now db (db.state frame.scope) with
    ⟨db', state, projected⟩
  rw [heq] at hprojected
  rw [← hprojected.state] at h ⊢
  have haccepts : state.acceptsStatus frame := h
  simp only
  rw [if_pos haccepts]
  refine ⟨rfl, ?_⟩
  by_cases hinactive : frame.status = .inactive
  · rw [if_pos hinactive, if_pos hinactive]
    refine ⟨by rw [face_save]; rfl, by simp, ?_⟩
    exact ((hprojected.within.trans within_zrem).trans (within_revision time)).trans within_save
  · rw [if_neg hinactive, if_neg hinactive]
    refine ⟨by rw [face_save]; rfl, ?_, ?_⟩
    · rw [lease_save, lease_revision, hprojected.leases]
    · exact (hprojected.within.trans (within_revision time)).trans within_save

theorem observeStatus_refused {frame : AgentStatus}
    (h : ¬((db.state frame.scope).projected now).acceptsStatus frame) :
    (observeStatus time frame now db).2 = none ∧
      Leaves frame.scope db (observeStatus time frame now db).1
        ((db.state frame.scope).projected now) (db.leases frame.scope) := by
  have hprojected := projected_project time frame.scope frame.scope now db
  simp only [observeStatus]
  rcases heq : project time frame.scope frame.scope now db (db.state frame.scope) with
    ⟨db', state, projected⟩
  rw [heq] at hprojected
  have hrefuses : ¬state.acceptsStatus frame := by
    rw [← hprojected.state] at h
    exact h
  simp only
  rw [if_neg hrefuses]
  exact ⟨rfl, hprojected.reject⟩

theorem observeActivity_accepted {frame : AgentActivity} {fence : Fence} {kind : AgentActivityKind}
    (hkind : activityKindForObservation frame = some kind)
    (h : ((db.state frame.scope).projected now).acceptsActivity frame fence now) :
    (observeActivity time frame fence now db).2.isSome ∧
      Leaves frame.scope db (observeActivity time frame fence now db).1
        (((db.state frame.scope).projected now).withActivity frame fence kind now)
        (if kind.busy then some (now + workingLeaseMs) else none) := by
  have hprojected := projected_project time frame.scope frame.scope now db
  simp only [observeActivity, hkind]
  rcases heq : project time frame.scope frame.scope now db (db.state frame.scope) with
    ⟨db', state, projected⟩
  rw [heq] at hprojected
  rw [← hprojected.state] at h ⊢
  have haccepts : state.acceptsActivity frame fence now := h
  simp only
  rw [if_pos haccepts]
  refine ⟨rfl, ?_⟩
  have hindexed : Within frame.scope db
      (if kind.busy then db'.zadd frame.scope (now + workingLeaseMs) else db'.zrem frame.scope) := by
    split_ifs
    · exact hprojected.within.trans within_zadd
    · exact hprojected.within.trans within_zrem
  have hlease : (if kind.busy then db'.zadd frame.scope (now + workingLeaseMs)
      else db'.zrem frame.scope).leases frame.scope =
      if kind.busy then some (now + workingLeaseMs) else none := by
    split_ifs
    · exact lease_zadd
    · exact lease_zrem
  by_cases hchanges : !frame.isFiller || state.visiblyChanges frame kind
  · rw [if_pos hchanges]
    refine ⟨by rw [face_save]; rfl, ?_, (hindexed.trans (within_revision time)).trans within_save⟩
    rw [lease_save, lease_revision, hlease]
  · rw [if_neg hchanges]
    refine ⟨by rw [face_save]; rfl, ?_, hindexed.trans within_save⟩
    rw [lease_save, hlease]

theorem observeActivity_refused {frame : AgentActivity} {fence : Fence} {kind : AgentActivityKind}
    (hkind : activityKindForObservation frame = some kind)
    (h : ¬((db.state frame.scope).projected now).acceptsActivity frame fence now) :
    (observeActivity time frame fence now db).2 = none ∧
      Leaves frame.scope db (observeActivity time frame fence now db).1
        ((db.state frame.scope).projected now) (db.leases frame.scope) := by
  have hprojected := projected_project time frame.scope frame.scope now db
  simp only [observeActivity, hkind]
  rcases heq : project time frame.scope frame.scope now db (db.state frame.scope) with
    ⟨db', state, projected⟩
  rw [heq] at hprojected
  have hrefuses : ¬state.acceptsActivity frame fence now := by
    rw [← hprojected.state] at h
    exact h
  simp only
  rw [if_neg hrefuses]
  exact ⟨rfl, hprojected.reject⟩

theorem putContextUsage_accepted {frame : AgentContextUsage}
    (h : ((db.state frame.scope).projected now).acceptsUsage frame) :
    (putContextUsage time frame now db).2.isSome ∧
      Leaves frame.scope db (putContextUsage time frame now db).1
        { (db.state frame.scope).projected now with contextUsage := some frame.usage }
        (db.leases frame.scope) := by
  have hprojected := projected_project time frame.scope frame.scope now db
  simp only [putContextUsage]
  rcases heq : project time frame.scope frame.scope now db (db.state frame.scope) with
    ⟨db', state, projected⟩
  rw [heq] at hprojected
  rw [← hprojected.state] at h ⊢
  have haccepts : state.acceptsUsage frame := h
  simp only
  rw [if_pos haccepts]
  refine ⟨rfl, ?_⟩
  by_cases hchanges : state.usageChanges frame
  · rw [if_pos hchanges]
    refine ⟨by rw [face_save]; rfl, ?_, (hprojected.within.trans (within_revision time)).trans within_save⟩
    rw [lease_save, lease_revision, hprojected.leases]
  · rw [if_neg hchanges]
    refine ⟨by rw [face_save]; rfl, ?_, hprojected.within.trans within_save⟩
    rw [lease_save, hprojected.leases]

theorem putContextUsage_refused {frame : AgentContextUsage}
    (h : ¬((db.state frame.scope).projected now).acceptsUsage frame) :
    (putContextUsage time frame now db).2 = none ∧
      Leaves frame.scope db (putContextUsage time frame now db).1
        ((db.state frame.scope).projected now) (db.leases frame.scope) := by
  have hprojected := projected_project time frame.scope frame.scope now db
  simp only [putContextUsage]
  rcases heq : project time frame.scope frame.scope now db (db.state frame.scope) with
    ⟨db', state, projected⟩
  rw [heq] at hprojected
  have hrefuses : ¬state.acceptsUsage frame := by
    rw [← hprojected.state] at h
    exact h
  simp only
  rw [if_neg hrefuses]
  exact ⟨rfl, hprojected.reject⟩

/-- A snapshot leaves the projection. -/
theorem takeSnapshot_leaves (readKey scope : Scope) (now : Nat) (db : Store) :
    Leaves scope db (takeSnapshot time readKey scope now db).1 ((db.state scope).projected now)
      (db.leases scope) := by
  cases hstate : db.states scope with
  | none =>
    have hnew : db.state scope = {} := by rw [Store.state, hstate]; rfl
    have hsnapshot : (takeSnapshot time readKey scope now db).1 =
        (revision time readKey scope db {}).1.save scope (revision time readKey scope db {}).2 := by
      simp only [takeSnapshot, hstate]
    rw [hsnapshot, hnew]
    exact ⟨face_save, rfl, (within_revision time).trans within_save⟩
  | some state =>
    have hsame : db.state scope = state := by rw [Store.state, hstate]; rfl
    have hprojected := projected_project time readKey scope now db
    rcases heq : project time readKey scope now db (db.state scope) with ⟨db', state', projected⟩
    have hsnapshot : (takeSnapshot time readKey scope now db).1 =
        reject scope projected db' state' := by
      simp only [takeSnapshot, hstate, ← hsame, heq]
      rfl
    rw [heq] at hprojected
    rw [hsnapshot]
    exact hprojected.reject

end Effects

lemma projected_face (db : Store) (scope : Scope) (now : Nat) :
    (db.state scope).projected now = (db.face scope).projected now := by
  have hprojection : ∀ state : DisplayState, state.unrevised.projection now =
      (state.projection now).map DisplayState.unrevised := by
    intro state
    simp only [DisplayState.projection]
    have hrunning : state.unrevised.running = state.running := rfl
    have hvisible : state.unrevised.visible = state.visible := rfl
    rw [hrunning, hvisible]
    cases state.running with
    | none => rfl
    | some process =>
      simp only [Option.bind_some]
      split_ifs
      · rfl
      · cases state.visible with
        | none => rfl
        | some activity =>
          simp only [Option.bind_some]
          split_ifs <;> rfl
  rw [DisplayState.projected, DisplayState.projected, Store.face, hprojection]
  cases (db.state scope).projection now <;> rfl

end Coforge.Display
