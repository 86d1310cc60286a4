import Coforge.Supervisor.Ledger

/-!
# At most one upgrade is pending

`recordUpgrade` looks for a pending operation in the binding of its own Workspace and nowhere else,
while the job it asks for works on the machine's one installation.

`OpensAlone` is the condition that no request opens an operation while another Workspace has one
pending.
-/

namespace Coforge.Supervisor

open Async Transition

/-- Any two pending operations of the machine are the same one. -/
def Registry.OnePending (registry : Registry) : Prop :=
  ∀ b ∈ registry, ∀ b' ∈ registry, ∀ o ∈ b.operations, ∀ o' ∈ b'.operations,
    o.state = .pending → o'.state = .pending → b.workspaceId = b'.workspaceId ∧ o = o'

instance (registry : Registry) : Decidable registry.OnePending :=
  inferInstanceAs (Decidable (∀ b ∈ registry, ∀ b' ∈ registry, ∀ o ∈ b.operations,
    ∀ o' ∈ b'.operations, _ → _ → _))

/-- A new request that is let in finds no other Workspace with a pending operation in the store. -/
def OpensAlone (s : System) : Act Event Outcome → Prop
  | .begin =>
    match s.shared.1.pending.head? with
    | some (.recordUpgrade workspaceId requestId expectedVersion) =>
      s.shared.1.paused ∨ expectedVersion = "" ∨
        (∃ b ∈ s.shared.1.disk, b.workspaceId = workspaceId ∧
          ∃ o ∈ b.operations, o.requestId = requestId) ∨
        ∀ b ∈ s.shared.1.disk, b.workspaceId ≠ workspaceId →
          ∀ o ∈ b.operations, o.state ≠ .pending
    | _ => True
  | _ => True

instance (s : System) : ∀ a, Decidable (OpensAlone s a)
  | .event _ => isTrue trivial
  | .begin =>
    match h : s.shared.1.pending.head? with
    | some (.recordUpgrade workspaceId requestId expectedVersion) =>
      decidable_of_iff (s.shared.1.paused ∨ expectedVersion = "" ∨
        (∃ b ∈ s.shared.1.disk, b.workspaceId = workspaceId ∧
          ∃ o ∈ b.operations, o.requestId = requestId) ∨
        ∀ b ∈ s.shared.1.disk, b.workspaceId ≠ workspaceId →
          ∀ o ∈ b.operations, o.state ≠ .pending) (by simp [OpensAlone, h])
    | none => isTrue (by simp [OpensAlone, h])
    | some .recover => isTrue (by simp [OpensAlone, h])
    | some .reconcile => isTrue (by simp [OpensAlone, h])
    | some (.configure _ _ _) => isTrue (by simp [OpensAlone, h])
    | some (.command _) => isTrue (by simp [OpensAlone, h])
    | some (.completeUpgrade _ _ _) => isTrue (by simp [OpensAlone, h])
    | some (.acknowledgeUpgrade _ _) => isTrue (by simp [OpensAlone, h])
    | some (.recordFailure _ _ _) => isTrue (by simp [OpensAlone, h])
    | some .snapshot => isTrue (by simp [OpensAlone, h])
    | some .resume => isTrue (by simp [OpensAlone, h])
    | some .shutdown => isTrue (by simp [OpensAlone, h])
  | .reply _ => isTrue trivial

/-! ### The pending operation -/

/-- One Workspace at most has a pending operation, and one at most. -/
structure Exclusive (m : String → List UpgradeOperation) : Prop where
  one : ∀ id, OnePending (m id)
  others : ∀ id id', id ≠ id' → NonePending (m id) ∨ NonePending (m id')

section Exclusive

variable {m : String → List UpgradeOperation} {id : String} {operations : List UpgradeOperation}

lemma Exclusive.update (h : Exclusive m) (hone : OnePending operations)
    (hothers : ∀ id', id' ≠ id → NonePending operations ∨ NonePending (m id')) :
    Exclusive (Function.update m id operations) := by
  constructor
  · intro i
    by_cases hi : i = id
    · rw [hi, Function.update_self]
      exact hone
    · rw [Function.update_of_ne hi]
      exact h.one i
  · intro i j hij
    by_cases hi : i = id
    · have hj : j ≠ id := fun hj => hij (hi.trans hj.symm)
      rw [hi, Function.update_self, Function.update_of_ne hj]
      exact hothers j hj
    · rw [Function.update_of_ne hi]
      by_cases hj : j = id
      · rw [hj, Function.update_self]
        exact (hothers i hi).symm
      · rw [Function.update_of_ne hj]
        exact h.others i j hij

/-- An operation is opened where no other Workspace has one pending, and none is opened by other
changes. -/
lemma Exclusive.amended {opened : Bool} (h : Exclusive m) (hamends : Amends opened (m id) operations)
    (hopen : opened → ∀ id', id' ≠ id → NonePending (m id')) :
    Exclusive (Function.update m id operations) := by
  refine h.update (hamends.sole (h.one id)) fun id' hid => ?_
  cases opened with
  | true => exact .inr (hopen rfl id' hid)
  | false => exact (h.others id id' (Ne.symm hid)).imp_left (hamends.settled rfl)

end Exclusive

/-- The machine's pending operation. -/
def exclusion : Ledger where
  holds m _ := Exclusive m
  guar _ _ := True
  mayOpen m id := ∀ id', id' ≠ id → NonePending (m id')
  mayDrop _ _ := True
  guar_refl _ := trivial
  guar_trans _ _ _ _ _ := trivial
  kept _ _ _ _ h := ⟨trivial, h⟩
  amended _ _ hamends hopen _ _ h := ⟨trivial, h.amended hamends hopen⟩
  dropped _ _ _ _ _ h := by
    have hnone : NonePending [] := fun _ ho => (nomatch ho)
    exact ⟨trivial, h.update hnone.sole fun _ _ => .inl hnone⟩
  granted _ h _ _ _ _ _ := ⟨trivial, h⟩

def exclusionSpec (accepts : Registry → Bool) : (supervisor accepts).Spec OpensAlone :=
  ledgerSpec exclusion accepts OpensAlone (fun _ _ _ _ _ _ _ => .inr fun _ _ => trivial)
    fun s workspaceId requestId expectedVersion rest hok hpending hpaused hversion m hstores hnew => by
      have halone : s.shared.1.paused ∨ expectedVersion = "" ∨
          (∃ b ∈ s.shared.1.disk, b.workspaceId = workspaceId ∧
            ∃ o ∈ b.operations, o.requestId = requestId) ∨
          ∀ b ∈ s.shared.1.disk, b.workspaceId ≠ workspaceId →
            ∀ o ∈ b.operations, o.state ≠ .pending := by
        simpa [OpensAlone, hpending] using hok
      rcases halone with hp | hv | ⟨b, hb, rfl, o, ho, hid⟩ | hnone
      · rw [hpaused] at hp
        cases hp
      · exact absurd hv hversion
      · have hoperations : b.operations = m b.workspaceId := hstores.all b hb
        exact absurd hid (hnew o (hoperations ▸ ho))
      · intro id' hid' o ho
        obtain ⟨b, hb, rfl⟩ := hstores.stay id' (List.ne_nil_of_mem ho)
        have hoperations : b.operations = m b.workspaceId := hstores.all b hb
        exact hnone b hb hid' o (hoperations ▸ ho)

lemma onePending_of_keeps {m : String → List UpgradeOperation} {registry : Registry}
    (h : Exclusive m) (hkeeps : registry.Keeps (history m).keeps (history m).stays) :
    registry.OnePending := by
  intro b hb b' hb' o ho o' ho' hpending hpending'
  have hoperations : b.operations = m b.workspaceId := hkeeps.all b hb
  have hoperations' : b'.operations = m b'.workspaceId := hkeeps.all b' hb'
  rw [hoperations] at ho
  rw [hoperations'] at ho'
  by_cases hid : b.workspaceId = b'.workspaceId
  · rw [hid] at ho
    exact ⟨hid, h.one _ o ho o' ho' hpending hpending'⟩
  · rcases h.others _ _ hid with hnone | hnone
    · exact absurd hpending (hnone o ho)
    · exact absurd hpending' (hnone o' ho')

lemma exclusive_history {registry : Registry} (hone : registry.OnePending) :
    Exclusive registry.history := by
  have hmem {id : String} {o : UpgradeOperation} (ho : o ∈ registry.history id) :
      ∃ b ∈ registry, b.workspaceId = id ∧ o ∈ b.operations := by
    rw [Registry.history] at ho
    cases hfind : registry.find id with
    | none =>
      rw [hfind] at ho
      cases ho
    | some b =>
      rw [hfind] at ho
      obtain ⟨hb, hid⟩ := Registry.mem_of_find hfind
      exact ⟨b, hb, hid, ho⟩
  constructor
  · intro id o ho o' ho' hpending hpending'
    obtain ⟨b, hb, -, ho⟩ := hmem ho
    obtain ⟨b', hb', -, ho'⟩ := hmem ho'
    exact (hone b hb b' hb' o ho o' ho' hpending hpending').2
  · intro id id' hne
    by_contra hboth
    obtain ⟨hsome, hsome'⟩ := not_or.mp hboth
    simp only [NonePending, not_forall, not_not] at hsome hsome'
    obtain ⟨o, ho, hpending⟩ := hsome
    obtain ⟨o', ho', hpending'⟩ := hsome'
    obtain ⟨b, hb, hid, hob⟩ := hmem ho
    obtain ⟨b', hb', hid', hob'⟩ := hmem ho'
    refine hne ?_
    rw [← hid, ← hid']
    exact (hone b hb b' hb' o hob o' hob' hpending hpending').1

/-- While no request opens an operation beside the pending one of another Workspace, at most one
upgrade is pending on the machine, through all restarts of the Coordinator. -/
theorem one_upgrade_pending {accepts : Registry → Bool} {registry : Registry} {paused : Bool}
    {steps : List Life} {s : System} (hregistry : registry.WellFormed) (hone : registry.OnePending)
    (hok : Permitted (lives accepts) (OfActs OpensAlone) (System.init registry paused) steps)
    (hrun : run (lives accepts) (System.init registry paused) steps = some s) :
    s.shared.1.disk.OnePending ∧
      (s.shared.1.reloadRequired = false → s.shared.1.bindings.OnePending) := by
  have hinit : (exclusionSpec accepts).Inv (System.init registry paused) :=
    ((exclusionSpec accepts).inv_idle rfl).mpr (known_init hregistry (exclusive_history hone))
  have hrestart (s : System) (paused : Bool) (hs : (exclusionSpec accepts).Inv s) :
      (exclusionSpec accepts).Inv (System.init s.shared.1.disk paused) := by
    obtain ⟨m, hloose, hwf, hexclusive⟩ := known_inv hs
    refine ((exclusionSpec accepts).inv_idle rfl).mpr ⟨m, ?_, hwf, hexclusive⟩
    exact loose_init hloose.held.disk
  obtain ⟨m, hloose, -, hexclusive⟩ :=
    known_inv (safe_lives (exclusionSpec accepts) hrestart hinit hok hrun)
  exact ⟨onePending_of_keeps hexclusive hloose.held.disk,
    fun hreload => onePending_of_keeps hexclusive (hloose.held.bindings hreload)⟩

/-- Two Workspaces that are stopped. -/
def twoStopped : Registry := [sampleBinding "one" false, sampleBinding "two" false]

/-- The Coordinator recovers them, and one of them asks for an upgrade. -/
def firstUpgrade : List Life :=
  [.act .begin, .act (.reply .ok), .act (.reply .ok), .act (.reply .ok), .act (.reply .ok),
    .act (.event (.recordUpgrade "one" "first" "1.2.0")), .act .begin, .act (.reply .ok),
    .act (.reply .ok), .act (.reply .ok)]

/-- So does the other one. -/
def secondUpgrade : List Life :=
  [.act (.event (.recordUpgrade "two" "second" "1.3.0")), .act .begin, .act (.reply .ok),
    .act (.reply .ok), .act (.reply .ok)]

/-- The upgrade of the first fails, and the Coordinator restarts. -/
def failedUpgrade : List Life :=
  [.act (.event (.completeUpgrade "one" "first" ⟨false, ⟨none, some "lost", none, 7⟩⟩)),
    .act .begin, .act (.reply .ok), .act (.reply .ok), .act (.reply .ok), .restart false,
    .act .begin, .act (.reply .ok), .act (.reply .ok), .act (.reply .ok), .act (.reply .ok)]

lemma wellFormed_twoStopped : twoStopped.WellFormed := by
  refine ⟨by decide, fun b hb => ?_⟩
  rcases List.mem_pair.mp hb with rfl | rfl <;> exact .nil

theorem one_upgrade_pending_settled : ∃ s, run (lives fun _ => true) (System.init twoStopped false)
        (firstUpgrade ++ failedUpgrade ++ secondUpgrade) = some s ∧
      (∃ b ∈ s.shared.1.disk, ∃ o ∈ b.operations, o.requestId = "second" ∧ o.state = .pending) ∧
      s.shared.1.disk.OnePending := by
  obtain ⟨s, hrun, hsecond⟩ := (Option.any_eq_true _ _).mp
    (show (run (lives fun _ => true) (System.init twoStopped false)
      (firstUpgrade ++ failedUpgrade ++ secondUpgrade)).any (fun s => ∃ b ∈ s.shared.1.disk,
        ∃ o ∈ b.operations, o.requestId = "second" ∧ o.state = .pending) by decide)
  exact ⟨s, hrun, of_decide_eq_true hsecond,
    (one_upgrade_pending wellFormed_twoStopped (by decide) (by decide) hrun).1⟩

theorem two_upgrades_pending : ¬ ∀ (accepts : Registry → Bool) (registry : Registry) paused steps s,
      registry.WellFormed → registry.OnePending →
      run (lives accepts) (System.init registry paused) steps = some s →
      s.shared.1.disk.OnePending ∧
        (s.shared.1.reloadRequired = false → s.shared.1.bindings.OnePending) := by
  intro h
  obtain ⟨s, hrun, htwo⟩ := (Option.any_eq_true _ _).mp
    (show (run (lives fun _ => true) (System.init twoStopped false)
      (firstUpgrade ++ secondUpgrade)).any (fun s => ¬ s.shared.1.disk.OnePending) by
        decide)
  exact of_decide_eq_true htwo (h _ _ _ _ s wellFormed_twoStopped (by decide) hrun).1

end Coforge.Supervisor
