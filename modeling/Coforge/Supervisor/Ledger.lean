import Coforge.Supervisor.Operations
import Coforge.Supervisor.Work

/-!
# The upgrade operations of all Workspaces

The upgrade operations live in the binding of their Workspace, which all lifecycle work rebuilds
and saves. `history m` is the concern that the bindings hold the operations `m`, and lifecycle work
keeps it, but for a configure, which builds its binding anew, without operations.

A `Ledger` is what is followed of the operations through their changes: an operation is opened,
settled or acknowledged, or all of a Workspace are dropped. One walk through the turns shows that
they keep every ledger, where the changes they make are allowed.
-/

namespace Coforge.Supervisor

open Async History Transition Function Concern
open Async.Prog hiding throw

/-- The bindings hold these operations. -/
def history (m : String → List UpgradeOperation) : Concern where
  keeps b := b.operations = m b.workspaceId
  stays id := m id ≠ []
  stage _ := True
  allows s t :=
    Held (fun b => b.operations = m b.workspaceId) (fun id => m id ≠ []) s ∧
      Held (fun b => b.operations = m b.workspaceId) (fun id => m id ≠ []) t ∧
      (s.progress.Calm → t.progress.Calm)
  keeps_of_kept {b c} h hb := by
    have hid : c.workspaceId = b.workspaceId :=
      congrArg (fun k => k.1.workspaceId) h
    have hoperations : c.upgradeOperations = b.upgradeOperations :=
      congrArg (fun k => k.2.2.2.2) h
    rw [ManagedBinding.operations, hoperations, hid]
    exact hb
  stage_aside _ := id
  allows_aside hs ht hst := ⟨hs, ht, hst.calm⟩

/-- The store holds these operations. -/
def Stores (m : String → List UpgradeOperation) (w : World) : Prop :=
  w.1.disk.Keeps (history m).keeps (history m).stays

/-- The request is granted. -/
def World.grant (w : World) (workspaceId requestId : String) : World :=
  (w.1, { w.2 with
    granted := ⟨workspaceId, requestId, w.2.recorded workspaceId⟩ :: w.2.granted })

/-! ### Ledgers -/

/-- What is followed of the operations of all Workspaces. `mayOpen` and `mayDrop` say of which
Workspace an operation may be opened or all of them dropped. -/
structure Ledger where
  holds : (String → List UpgradeOperation) → World → Prop
  guar : World → World → Prop
  mayOpen : (String → List UpgradeOperation) → String → Prop
  mayDrop : (String → List UpgradeOperation) → String → Prop
  guar_refl : ∀ w, guar w w
  guar_trans : ∀ w w' w'', guar w w' → guar w' w'' → guar w w''
  kept : ∀ {m w w'}, Stores m w → Stores m w' → (∀ id, w.2.recorded id ≤ w'.2.recorded id) →
    w'.2.granted = w.2.granted → holds m w → guar w w' ∧ holds m w'
  amended : ∀ {m w w' id operations opened}, Stores m w →
    Stores (Function.update m id operations) w' → Amends opened (m id) operations →
    (opened → mayOpen m id) → w'.2.granted = w.2.granted →
    (∀ i, w'.2.recorded i = w.2.recorded i + if opened ∧ i = id then 1 else 0) →
    holds m w → guar w w' ∧ holds (Function.update m id operations) w'
  dropped : ∀ {m w w' id}, Stores m w → Stores (Function.update m id []) w' → mayDrop m id →
    w'.2.granted = w.2.granted → w'.2.recorded = w.2.recorded →
    holds m w → guar w w' ∧ holds (Function.update m id []) w'
  granted : ∀ {m m' w w' id requestId pre o}, holds m w → holds m' w' →
    (∀ p ∈ m id, p.requestId ≠ requestId) → m' id = pre ++ [o] → o.requestId = requestId →
    w'.2.granted = w.2.granted → w.2.recorded id ≤ w'.2.recorded id →
    guar w' (w'.grant id requestId) ∧ holds m' (w'.grant id requestId)

/-- What is known at every point of a run. -/
def Ledger.Known (L : Ledger) (w : World) : Prop :=
  ∃ m, (history m).Loose w.1 ∧ (∀ id, WellFormed (m id)) ∧ L.holds m w

def ledgerCtx (L : Ledger) (accepts : Registry → Bool) : Context World Reply where
  rely w w' := (∀ m, (history m).Loose w.1 → (history m).Loose w'.1) ∧
    (∀ m, (history m).Sound w.1 → (history m).Sound w'.1) ∧
    (Locked w.1 → Locked w'.1) ∧
    w'.2.recorded = w.2.recorded ∧ w'.2.granted = w.2.granted
  answer e w r w' := ∃ o, w.answer accepts e o = some (r, w')
  guar := L.guar
  issue _ := L.Known

section Ledgers

variable {L : Ledger} {accepts : Registry → Bool} {m m' : String → List UpgradeOperation}
  {w w' : World}

lemma Ledger.congr (h : L.holds m w) (hloose : (history m).Loose w.1)
    (hloose' : (history m).Loose w'.1) (hrecorded : w'.2.recorded = w.2.recorded)
    (hgranted : w'.2.granted = w.2.granted) : L.guar w w' ∧ L.holds m w' :=
  L.kept hloose.held.disk hloose'.held.disk
    (fun id => Nat.le_of_eq (congrFun hrecorded id).symm) hgranted h

lemma Ledger.rely (h : L.holds m w) (hloose : (history m).Loose w.1)
    (hrely : (ledgerCtx L accepts).rely w w') : L.holds m w' :=
  (Ledger.congr h hloose (hrely.1 m hloose) hrely.2.2.2.1 hrely.2.2.2.2).2

lemma answer_watch {e : Effect} {o : Outcome} {r : Reply e}
    (h : w.answer accepts e o = some (r, w')) :
    (∀ id, w.2.recorded id ≤ w'.2.recorded id) ∧ w'.2.granted = w.2.granted := by
  rcases World.answer_cases h with rfl | ⟨-, -, rfl⟩ | ⟨_, _, -, -, rfl⟩ | ⟨_, _, _, -, -, -, rfl⟩
  · exact ⟨fun _ => Nat.le_refl _, rfl⟩
  · exact ⟨fun _ => Nat.le_refl _, rfl⟩
  · refine ⟨fun id => ?_, rfl⟩
    simp only [World.saved]
    split_ifs <;> omega
  · exact ⟨fun _ => Nat.le_refl _, rfl⟩

variable {α : Type}

lemma wp_history {p : Op α} {Q : Except SupervisorError α → Machine → Prop}
    (hloose : (history m).Loose w.1) (hwf : ∀ id, WellFormed (m id)) (h : L.holds m w)
    (hp : wp (history m).ctx p Q w.1) : wp (ledgerCtx L accepts) p.lift
      (fun r w' => Q r w'.1 ∧ (history m).Loose w'.1 ∧ L.holds m w') w := by
  refine wp_lift (I := fun w => (history m).Loose w.1 ∧ L.holds m w) ?_ ?_ ?_ ?_ ?_ ⟨hloose, h⟩ hp
  · intro e w w' hw _ hrely
    exact ⟨⟨hrely.1 m, hrely.2.1 m⟩, hrely.1 m hw.1, Ledger.rely hw.2 hw.1 hrely⟩
  · exact fun e w hw _ => ⟨m, hw.1, hwf, hw.2⟩
  · rintro e w r w' - ⟨o, hans⟩
    exact ⟨accepts, o, w.2, w'.2, hans⟩
  · rintro e w r w' hw ⟨o, hans⟩ hguar
    obtain ⟨hrecorded, hgranted⟩ := answer_watch hans
    obtain ⟨hguar', h'⟩ := L.kept hguar.1.disk hguar.2.1.disk hrecorded hgranted hw.2
    exact ⟨hguar', ⟨hguar.2.1, trivial, hguar.2.2 hw.1.calm⟩, h'⟩
  · intro w t hw hguar
    obtain ⟨hguar', h'⟩ := @Ledger.kept L _ _ (t, w.2) hguar.1.disk hguar.2.1.disk
      (fun _ => Nat.le_refl _) rfl hw.2
    exact ⟨hguar', ⟨hguar.2.1, trivial, hguar.2.2 hw.1.calm⟩, h'⟩

/-! ### Saving a history -/

variable {b : ManagedBinding} {operations : List UpgradeOperation}

lemma keeps_replace {registry : Registry}
    (h : registry.Keeps (history m).keeps (history m).stays) (hb : b.operations = operations) :
    (registry.replace b).Keeps (history (Function.update m b.workspaceId operations)).keeps
      (history (Function.update m b.workspaceId operations)).stays := by
  constructor
  · intro c hc
    rcases Registry.mem_replace.mp hc with rfl | ⟨hc, hid⟩
    · show c.operations = _
      rw [update_self, hb]
    · show c.operations = _
      rw [update_of_ne hid]
      exact h.all c hc
  · intro id hid
    by_cases hsame : id = b.workspaceId
    · exact ⟨b, Registry.mem_replace.mpr (.inl rfl), hsame.symm⟩
    · have hold : m id ≠ [] := by
        have hid' : update m b.workspaceId operations id ≠ [] := hid
        rwa [update_of_ne hsame] at hid'
      obtain ⟨c, hc, rfl⟩ := h.stay id hold
      exact ⟨c, Registry.mem_replace.mpr (.inr ⟨hc, hsame⟩), rfl⟩

lemma toStore_operations (s : Machine) (b : ManagedBinding) :
    (s.toStore b).operations = b.operations ∧ (s.toStore b).workspaceId = b.workspaceId := by
  unfold Machine.toStore ManagedBinding.operations
  split_ifs <;> simp

lemma loose_saved {next : Registry} {s t : Machine} (hnext : next.Keeps (history m).keeps
    (history m).stays) (hlocked : Locked s) (hcalm : s.progress.Calm) (hdisk : t.disk = next)
    (hbindings : t.reloadRequired = false → t.bindings = next) (hintents : t.intents = s.intents)
    (hprogress : t.progress = s.progress) : (history m).Loose t where
  stage := trivial
  calm := hprogress ▸ hcalm
  held :=
    { disk := hdisk ▸ hnext
      bindings := fun hreload => hbindings hreload ▸ hnext
      writing := fun i hi before next' hphase => by
        have hnot := hlocked.intents i (hintents ▸ hi)
        rw [StopIntent.isWriting, hphase] at hnot
        cases hnot }

/-- How the save of a history ends. -/
def Saved (L : Ledger) (m' : String → List UpgradeOperation) (w : World)
    (r : Except SupervisorError ManagedBinding) (w' : World) : Prop :=
  either
    (fun c => (history m').Sound w'.1 ∧ (history m').keeps c ∧ L.holds m' w' ∧
      w'.2.granted = w.2.granted ∧ ∀ id, w.2.recorded id ≤ w'.2.recorded id)
    (fun _ => L.Known w') r

lemma wp_saveOperations {opened : Bool}
    (hb : b.operations = operations) (hs : (history m).Sound w.1)
    (hwf : ∀ id, WellFormed (m id)) (h : L.holds m w) (hwf' : WellFormed operations)
    (hsaved : ∀ w w', Stores m w → Stores (Function.update m b.workspaceId operations) w' →
      w'.2.granted = w.2.granted → (∀ i, w'.2.recorded i =
        w.2.recorded i + if opened ∧ i = b.workspaceId then 1 else 0) →
      L.holds m w → L.guar w w' ∧ L.holds (Function.update m b.workspaceId operations) w') :
    wp (ledgerCtx L accepts) (saveBinding (if opened then some b.workspaceId else none) b).lift
      (Saved L (Function.update m b.workspaceId operations) w) w := by
  simp only [saveBinding, exclusive, Calls.exclusive, lift_bind, lift_gets, lift_request,
    lift_andFinally, lift_update, lift_pure, wp_bind, wp_gets, either_ok]
  obtain ⟨hoperations, hid⟩ := toStore_operations w.1 b
  generalize w.1.toStore b = stored at hoperations hid ⊢
  rw [wp_request]
  refine ⟨⟨m, hs.toLoose, hwf, h⟩, fun w₁ hrely₁ _ w₂ hans => ?_⟩
  obtain ⟨o, hans⟩ := hans
  obtain ⟨hfree, rfl⟩ := World.answer_exclusive hans
  have hs₁ := hrely₁.2.1 m hs
  have hs₂ : (history m).Sound { w₁.1 with locked := true } := hs₁.aside (.of_same rfl) rfl rfl rfl rfl
  obtain ⟨hguar₂, h₂⟩ := @Ledger.congr _ _ _ ({ w₁.1 with locked := true }, w₁.2)
    (Ledger.rely h hs.toLoose hrely₁) hs₁.toLoose hs₂.toLoose rfl rfl
  refine ⟨hguar₂, ?_⟩
  have hlocked₂ := locked_of_free hfree
  have hnext := keeps_replace hs₂.bindings (hoperations.trans hb)
  rw [hid] at hnext
  simp only [either_ok, wp_andFinally, wp_bind, wp_gets, store, Calls.save, lift_bind, lift_request]
  rw [wp_request]
  refine ⟨⟨m, hs₂.toLoose, hwf, h₂⟩, fun w₃ hrely₃ r w₄ hans => ?_⟩
  obtain ⟨o, hans⟩ := hans
  have hs₃ := hrely₃.2.1 m hs₂
  have hlocked₃ := hrely₃.2.2.1 hlocked₂
  have h₃ := Ledger.rely h₂ hs₂.toLoose hrely₃
  have hcount₃ : w₃.2.recorded = w.2.recorded := hrely₃.2.2.2.1.trans hrely₁.2.2.2.1
  have hgranted₃ : w₃.2.granted = w.2.granted := hrely₃.2.2.2.2.trans hrely₁.2.2.2.2
  have hwf₃ (id : String) : WellFormed (update m b.workspaceId operations id) := by
    by_cases hsame : id = b.workspaceId
    · rw [hsame, update_self]
      exact hwf'
    · rw [update_of_ne hsame]
      exact hwf id
  generalize hm : update m b.workspaceId operations = m' at hsaved hnext hwf₃ ⊢
  have hrecorded (i : String) : (w₃.saved w₃.2.author
      (if opened then some b.workspaceId else none) w₃.1.bindings
      (w₁.1.bindings.replace stored)).2.recorded i =
      w₃.2.recorded i + if opened ∧ i = b.workspaceId then 1 else 0 := by
    cases opened with
    | false => simp [World.saved]
    | true =>
      by_cases hi : i = b.workspaceId
      · simp [World.saved, hi]
      · simp [World.saved, hi, Ne.symm hi]
  obtain ⟨hguar, hholds⟩ := hsaved w₃ (w₃.saved w₃.2.author
    (if opened then some b.workspaceId else none) w₃.1.bindings (w₁.1.bindings.replace stored))
    hs₃.held.disk hnext rfl hrecorded h₃
  have hgrown (i : String) : w.2.recorded i ≤ (w₃.saved w₃.2.author
      (if opened then some b.workspaceId else none) w₃.1.bindings
      (w₁.1.bindings.replace stored)).2.recorded i := by
    rw [hrecorded i, hcount₃]
    exact Nat.le_add_right _ _
  -- the registry in the store is the new one from now on
  have hloose {s : Machine} (hdisk : s.disk = w₁.1.bindings.replace stored)
      (hbindings : s.reloadRequired = false → s.bindings = w₁.1.bindings.replace stored)
      (hintents : s.intents = w₃.1.intents) (hprogress : s.progress = w₃.1.progress) :
      (history m').Loose s :=
    loose_saved hnext hlocked₃ hs₃.calm hdisk hbindings hintents hprogress
  have hupdate {s t : Machine} {o : Watch} (hdisk : s.disk = w₁.1.bindings.replace stored)
      (hdisk' : t.disk = w₁.1.bindings.replace stored) (h : L.holds m' (s, o)) :
      L.guar (s, o) (t, o) ∧ L.holds m' (t, o) := by
    refine L.kept ?_ ?_ (fun _ => Nat.le_refl _) rfl h
    · rw [Stores, hdisk]
      exact hnext
    · rw [Stores, hdisk']
      exact hnext
  rcases World.answer_save hans with ⟨rfl, rfl⟩ | ⟨message, rfl, hsame | rfl⟩
  · obtain ⟨hguar₄, h₄⟩ := hupdate (t := { w₃.1 with
      disk := w₁.1.bindings.replace stored, bindings := w₁.1.bindings.replace stored }) rfl rfl hholds
    obtain ⟨hguar₅, h₅⟩ := hupdate (t := { w₃.1 with
      disk := w₁.1.bindings.replace stored, bindings := w₁.1.bindings.replace stored
      locked := false }) rfl rfl h₄
    refine ⟨hguar, hguar₄, hguar₅, ⟨hloose rfl (fun _ => rfl) rfl rfl, hnext⟩, ?_, h₅, hgranted₃,
      hgrown⟩
    show stored.operations = m' stored.workspaceId
    rw [hoperations, hb, hid, ← hm, update_self]
  · obtain rfl : w₃ = w₄ := hsame.symm
    obtain ⟨hguar₄, h₄⟩ := @Ledger.congr _ _ _ ({ w₃.1 with reloadRequired := true }, w₃.2) h₃
      hs₃.toLoose ⟨⟨hs₃.held.disk, fun h => (by cases h), hs₃.held.writing⟩, trivial, hs₃.calm⟩ rfl
      rfl
    have hloose₅ : (history m).Loose { w₃.1 with reloadRequired := true, locked := false } :=
      ⟨⟨hs₃.held.disk, fun h => (by cases h), hs₃.held.writing⟩, trivial, hs₃.calm⟩
    obtain ⟨hguar₅, h₅⟩ := @Ledger.congr _ _ _
      ({ w₃.1 with reloadRequired := true, locked := false }, w₃.2) h₄
      ⟨⟨hs₃.held.disk, fun h => (by cases h), hs₃.held.writing⟩, trivial, hs₃.calm⟩ hloose₅ rfl rfl
    exact ⟨L.guar_refl _, hguar₄, hguar₅, m, hloose₅, hwf, h₅⟩
  · obtain ⟨hguar₄, h₄⟩ := hupdate (t := { w₃.1 with
      disk := w₁.1.bindings.replace stored, reloadRequired := true }) rfl rfl hholds
    obtain ⟨hguar₅, h₅⟩ := hupdate (t := { w₃.1 with
      disk := w₁.1.bindings.replace stored, reloadRequired := true, locked := false }) rfl rfl h₄
    exact ⟨hguar, hguar₄, hguar₅, m', hloose rfl (fun h => by cases h) rfl rfl, hwf₃, h₅⟩

/-! ### The upgrade operations -/

lemma wp_historyRefreshed {f : Unit → Op α} {Q : Except SupervisorError α → World → Prop}
    (hloose : (history m).Loose w.1) (hwf : ∀ id, WellFormed (m id)) (h : L.holds m w)
    (herror : ∀ e w', L.Known w' → Q (.error e) w')
    (hf : ∀ w', (history m).Sound w'.1 → L.holds m w' → wp (ledgerCtx L accepts) (f ()).lift Q w') :
    wp (ledgerCtx L accepts) (refresh >>= f).lift Q w := by
  rw [lift_bind, wp_bind]
  refine wp_mono ?_ (wp_history hloose hwf h (wp_refresh hloose))
  rintro (e | _) w' ⟨⟨-, hsound⟩, hloose', h'⟩
  · exact herror e w' ⟨m, hloose', hwf, h'⟩
  · exact hf w' hsound h'

/-- How `recordUpgrade` ends: where it asks for the job, the request may be granted. -/
def Recorded (L : Ledger) (workspaceId requestId : String) (r : Except SupervisorError Bool)
    (w : World) : Prop :=
  L.Known w ∧ (r = .ok true →
    L.guar w (w.grant workspaceId requestId) ∧ L.Known (w.grant workspaceId requestId))

variable {requestId expectedVersion : String}

lemma wp_recordOperation {now : Nat} (hb : (history m).keeps b)
    (hs : (history m).Sound w.1) (hwf : ∀ id, WellFormed (m id)) (h : L.holds m w)
    (hopen : L.mayOpen m b.workspaceId) (hnew : ∀ p ∈ b.operations, p.requestId ≠ requestId)
    (hids : ∀ p ∈ operations, p.requestId ≠ requestId)
    (hamends : Amends false b.operations operations)
    (hnone : OnePending b.operations → NonePending operations) :
    wp (ledgerCtx L accepts)
      (do
        let _ ← saveBinding (some b.workspaceId)
          { b with
            upgradeOperations := some (openOperation operations requestId expectedVersion now) }
        return true : Op Bool).lift (Recorded L b.workspaceId requestId) w := by
  rw [lift_bind, wp_bind]
  have hb' : b.operations = m b.workspaceId := hb
  have hopened : Amends true b.operations
      (openOperation operations requestId expectedVersion now) := hamends.opened hnone hids
  rw [hb'] at hopened hnew
  obtain ⟨pre, o, hsplit, hid⟩ := openOperation_split operations requestId expectedVersion now
  generalize openOperation operations requestId expectedVersion now = next at *
  have hsave : wp (ledgerCtx L accepts)
      (saveBinding (some b.workspaceId) { b with upgradeOperations := some next }).lift
      (Saved L (update m b.workspaceId next) w) w :=
    @wp_saveOperations _ _ _ _ _ _ true rfl hs hwf h hopened.wellFormed
      fun _ _ hstores hstores' hgranted hrecorded hholds =>
        L.amended hstores hstores' hopened (fun _ => hopen) hgranted hrecorded hholds
  refine wp_mono ?_ hsave
  rintro (e | c) w' hw'
  · exact ⟨hw', fun h => (nomatch h)⟩
  · obtain ⟨hs', -, h', hgranted, hcount⟩ := hw'
    have hsplit' : update m b.workspaceId next b.workspaceId = pre ++ [o] := by
      rw [update_self]
      exact hsplit
    have hwf' (id : String) : WellFormed (update m b.workspaceId next id) := by
      by_cases hsame : id = b.workspaceId
      · rw [hsame, update_self]
        exact hopened.wellFormed
      · rw [update_of_ne hsame]
        exact hwf id
    obtain ⟨hguar, hholds⟩ := L.granted h h' hnew hsplit' hid hgranted (hcount b.workspaceId)
    exact ⟨⟨_, hs'.toLoose, hwf', h'⟩, fun _ => ⟨hguar, _, hs'.toLoose, hwf', hholds⟩⟩

/-- The operations that a new one follows: the pending one is settled, and the ids are the same. -/
lemma wp_unblockedOperations {k : List UpgradeOperation → Op α}
    {Q : Except SupervisorError α → World → Prop} (hb : (history m).keeps b)
    (hs : (history m).Sound w.1) (hwf : ∀ id, WellFormed (m id)) (h : L.holds m w)
    (herror : ∀ e w', L.Known w' → Q (.error e) w')
    (hk : ∀ operations w', (history m).Sound w'.1 → L.holds m w' →
      operations.map (·.requestId) = b.operations.map (·.requestId) →
      Amends false b.operations operations → (OnePending b.operations → NonePending operations) →
      wp (ledgerCtx L accepts) (k operations).lift Q w') :
    wp (ledgerCtx L accepts) (unblockedOperations b >>= k).lift Q w := by
  have hwf' : WellFormed b.operations := by
    have hb' : b.operations = m b.workspaceId := hb
    exact hb' ▸ hwf b.workspaceId
  rw [lift_bind, wp_bind]
  unfold unblockedOperations
  split
  · next hnone =>
    refine hk b.operations w hs h rfl (.refl hwf') fun _ o ho hpending => ?_
    have hnot := List.find?_eq_none.mp hnone o ho
    simp [hpending] at hnot
  · next pending hpending =>
    have hmem := List.mem_of_find?_eq_some hpending
    have hstate : pending.state = .pending := by simpa using List.find?_some hpending
    rw [lift_bind, wp_bind, Calls.settlePending, lift_request, wp_request]
    refine ⟨⟨m, hs.toLoose, hwf, h⟩, fun w₁ hrely r w₂ ⟨o, hans⟩ => ?_⟩
    have hsame : w₂ = w₁ := by
      rcases World.answer_cases hans with hsame | ⟨he, -⟩ | ⟨_, _, he, -⟩ | ⟨_, _, _, he, -⟩
      · exact hsame
      · cases he
      · cases he
      · cases he
    subst hsame
    refine ⟨L.guar_refl _, ?_⟩
    have hs' := hrely.2.1 m hs
    have h' := Ledger.rely h hs.toLoose hrely
    cases r with
    | none => exact herror _ _ ⟨m, hs'.toLoose, hwf, h'⟩
    | some settlement =>
      have hids : (editOperation b.operations pending.requestId (·.settled settlement)).map
          (·.requestId) = b.operations.map (·.requestId) := by
        refine map_editOperation ?_ pending.requestId
        exact fun _ => rfl
      exact hk _ _ hs' h' hids (settle_operation hwf' hmem hstate settlement)
        fun hone => settled_operation hone hmem hstate settlement

lemma wp_recordIn
    (hb : (history m).keeps b) (hs : (history m).Sound w.1) (hwf : ∀ id, WellFormed (m id))
    (h : L.holds m w)
    (hopen : expectedVersion ≠ "" → (∀ p ∈ m b.workspaceId, p.requestId ≠ requestId) →
      L.mayOpen m b.workspaceId) :
    wp (ledgerCtx L accepts) (recordIn b requestId expectedVersion).lift
      (Recorded L b.workspaceId requestId) w := by
  have hknown : L.Known w := ⟨m, hs.toLoose, hwf, h⟩
  have hb' : b.operations = m b.workspaceId := hb
  unfold recordIn
  split_ifs with hversion
  · exact ⟨hknown, fun h => (nomatch h)⟩
  cases hfind : findOperation b.operations requestId with
  | some existing =>
    dsimp only
    split_ifs <;> exact ⟨hknown, fun h => (nomatch h)⟩
  | none =>
    have hnew := not_mem_of_findOperation hfind
    refine wp_unblockedOperations hb hs hwf h (fun _ _ hw' => ⟨hw', fun h => (nomatch h)⟩)
      fun operations w' hs' h' hids hamends hnone => ?_
    rw [lift_bind, lift_gets, wp_bind, wp_gets, either_ok]
    refine wp_recordOperation hb hs' hwf h' (hopen hversion (hb' ▸ hnew)) hnew (fun p hp hid => ?_)
      hamends hnone
    have hmem : requestId ∈ b.operations.map (·.requestId) :=
      hids ▸ List.mem_map.mpr ⟨p, hp, hid⟩
    obtain ⟨p', hp', hid'⟩ := List.mem_map.mp hmem
    exact hnew p' hp' hid'

variable {workspaceId : String}

lemma wp_historyRecord
    (hloose : (history m).Loose w.1) (hwf : ∀ id, WellFormed (m id)) (h : L.holds m w)
    (hopen : w.1.paused = false → expectedVersion ≠ "" →
      (∀ p ∈ m workspaceId, p.requestId ≠ requestId) → L.mayOpen m workspaceId) :
    wp (ledgerCtx L accepts) (recordUpgrade workspaceId requestId expectedVersion).lift
      (Recorded L workspaceId requestId) w := by
  unfold recordUpgrade
  rw [lift_bind, wp_bind]
  refine wp_assertMutable (fun _ => ⟨⟨m, hloose, hwf, h⟩, fun h => (nomatch h)⟩) fun hpaused => ?_
  refine wp_historyRefreshed hloose hwf h (fun _ _ hw' => ⟨hw', fun h => (nomatch h)⟩)
    fun w' hs' h' => ?_
  rw [lift_bind, lift_gets, wp_bind, wp_gets, either_ok]
  cases hfind : w'.1.bindings.find workspaceId with
  | none => exact ⟨⟨m, hs'.toLoose, hwf, h'⟩, fun h => (nomatch h)⟩
  | some b =>
    obtain ⟨hmem, rfl⟩ := Registry.mem_of_find hfind
    exact wp_recordIn (hs'.bindings.all b hmem) hs' hwf h' (hopen hpaused)

lemma wp_saveEdited {a : α}
    (hb : (history m).keeps b) (hs : (history m).Sound w.1) (hwf : ∀ id, WellFormed (m id))
    (h : L.holds m w) (hamends : Amends false b.operations operations) :
    wp (ledgerCtx L accepts)
      (do
        let _ ← saveBinding none { b with upgradeOperations := some operations }
        return a : Op α).lift (fun _ => L.Known) w := by
  have hb' : b.operations = m b.workspaceId := hb
  rw [hb'] at hamends
  have hsave : wp (ledgerCtx L accepts)
      (saveBinding none { b with upgradeOperations := some operations }).lift
      (Saved L (update m b.workspaceId operations) w) w :=
    @wp_saveOperations _ _ _ _ _ _ false rfl hs hwf h hamends.wellFormed
      fun _ _ hstores hstores' hgranted hrecorded hholds =>
        L.amended hstores hstores' hamends (fun h => (nomatch h)) hgranted hrecorded hholds
  rw [lift_bind, wp_bind]
  refine wp_mono ?_ hsave
  rintro (e | c) w' hw'
  · exact hw'
  · refine ⟨_, hw'.1.toLoose, fun id => ?_, hw'.2.2.1⟩
    by_cases hsame : id = b.workspaceId
    · rw [hsame, update_self]
      exact hamends.wellFormed
    · rw [update_of_ne hsame]
      exact hwf id

lemma wp_historyComplete {settlement : PendingUpgradeSettlement}
    (hloose : (history m).Loose w.1) (hwf : ∀ id, WellFormed (m id)) (h : L.holds m w) :
    wp (ledgerCtx L accepts) (completeUpgrade workspaceId requestId settlement).lift
      (fun _ => L.Known) w := by
  unfold completeUpgrade
  refine wp_historyRefreshed hloose hwf h (fun _ _ hw' => hw') fun w' hs' h' => ?_
  rw [lift_bind, lift_gets, wp_bind, wp_gets, either_ok]
  cases hfind : w'.1.bindings.find workspaceId with
  | none => exact ⟨m, hs'.toLoose, hwf, h'⟩
  | some b =>
    have hkeeps := hs'.bindings.find hfind
    have hwf' : WellFormed b.operations := by
      have hb' : b.operations = m b.workspaceId := hkeeps
      exact hb' ▸ hwf b.workspaceId
    dsimp only
    split
    · exact ⟨m, hs'.toLoose, hwf, h'⟩
    · next o ho =>
      obtain ⟨hfound, hstate⟩ := Option.filter_eq_some_iff.mp ho
      obtain ⟨hmem, hid⟩ := mem_of_findOperation hfound
      have hamends := settle_operation hwf' hmem (by simpa using hstate) settlement
      rw [hid] at hamends
      exact wp_saveEdited hkeeps hs' hwf h' hamends

lemma wp_historyAcknowledge (hloose : (history m).Loose w.1)
    (hwf : ∀ id, WellFormed (m id)) (h : L.holds m w) :
    wp (ledgerCtx L accepts) (acknowledgeUpgrade workspaceId requestId).lift (fun _ => L.Known)
      w := by
  unfold acknowledgeUpgrade
  refine wp_historyRefreshed hloose hwf h (fun _ _ hw' => hw') fun w' hs' h' => ?_
  rw [lift_bind, lift_gets, wp_bind, wp_gets, either_ok]
  cases hfind : w'.1.bindings.find workspaceId with
  | none => exact ⟨m, hs'.toLoose, hwf, h'⟩
  | some b =>
    have hkeeps := hs'.bindings.find hfind
    have hwf' : WellFormed b.operations := by
      have hb' : b.operations = m b.workspaceId := hkeeps
      exact hb' ▸ hwf b.workspaceId
    dsimp only
    split
    · exact ⟨m, hs'.toLoose, hwf, h'⟩
    · next o ho =>
      obtain ⟨hmem, hid⟩ := mem_of_findOperation ho
      have hsave (hstate : o.state = .succeeded ∨ o.state = .failed) :
          wp (ledgerCtx L accepts)
            (do
              let _ ← saveBinding none
                { b with
                  upgradeOperations := some (editOperation b.operations requestId
                    fun o => { o with state := .acknowledged }) }
              return true : Op Bool).lift (fun _ => L.Known) w' := by
        have hamends := acknowledge_operation hwf' hmem hstate
        rw [hid] at hamends
        exact wp_saveEdited hkeeps hs' hwf h' hamends
      cases hstate : o.state with
      | acknowledged => exact ⟨m, hs'.toLoose, hwf, h'⟩
      | pending => exact ⟨m, hs'.toLoose, hwf, h'⟩
      | succeeded => exact hsave (.inl hstate)
      | failed => exact hsave (.inr hstate)

/-! ### Configures -/

lemma wp_historyConfigure {config : DaemonConfig} (hloose : (history m).Loose w.1)
    (hwf : ∀ id, WellFormed (m id)) (h : L.holds m w) (hdrop : L.mayDrop m config.workspaceId) :
    wp (ledgerCtx L accepts) (runConfigure config).lift (fun _ => L.Known) w := by
  unfold runConfigure
  refine wp_historyRefreshed hloose hwf h (fun _ _ hw' => hw') fun w' hs' h' => ?_
  rw [lift_bind, lift_gets, wp_bind, wp_gets, either_ok]
  dsimp only
  generalize w'.1.bindings.find config.workspaceId = previous
  -- the new binding takes the place of the old one, and its process starts
  have hrest {w : World} (hs : (history m).Sound w.1) (h : L.holds m w) :
      wp (ledgerCtx L accepts)
        (do
          Calls.clearParked (.configured config previous)
          let _ ← saveBinding none (.configured config previous)
          let _ ← track config.workspaceId (startWorkspace (.configured config previous))
          clearFailure config.workspaceId : Op Unit).lift (fun _ => L.Known) w := by
    have hclear : wp (history m).ctx (Calls.clearParked (.configured config previous))
        ((history m).Post fun _ => True) w.1 :=
      wp_process (e := .clearParked _) trivial hs fun _ _ hv =>
        wp_orThrow hv fun _ => trivial
    rw [lift_bind, wp_bind]
    refine wp_mono ?_ (wp_history hs.toLoose hwf h hclear)
    rintro (e | _) u ⟨hu, hloose', hholds⟩
    · exact ⟨m, hloose', hwf, hholds⟩
    have hsave : wp (ledgerCtx L accepts) (saveBinding none (.configured config previous)).lift
        (Saved L (update m config.workspaceId []) u) u := by
      refine @wp_saveOperations _ _ _ _ _ _ false rfl hu.1 hwf hholds .nil
        fun _ _ hstores hstores' hgranted hrecorded hholds => ?_
      exact L.dropped hstores hstores' hdrop hgranted (funext fun i => by simp [hrecorded i]) hholds
    rw [either_ok, lift_bind, wp_bind]
    refine wp_mono ?_ hsave
    rintro (e | c) v hv
    · exact hv
    have hwf' (id : String) : WellFormed (update m config.workspaceId [] id) := by
      by_cases hsame : id = config.workspaceId
      · rw [hsame, update_self]
        exact .nil
      · rw [update_of_ne hsame]
        exact hwf id
    have hstart : wp (history (update m config.workspaceId [])).ctx
        (do
          let _ ← track config.workspaceId (startWorkspace (.configured config previous))
          clearFailure config.workspaceId : Op Unit)
        ((history (update m config.workspaceId [])).Post fun _ => True) v.1 := by
      refine wp_seq (wp_track hv.1 fun x hx => wp_startWorkspace hx)
        fun _ x _ hx => wp_clearFailure hx
    refine wp_mono ?_ (wp_history hv.1.toLoose hwf' hv.2.2.1 hstart)
    rintro r x ⟨-, hloose'', hholds'⟩
    exact ⟨_, hloose'', hwf', hholds'⟩
  cases previous with
  | none => exact hrest hs' h'
  | some b =>
    rw [lift_bind, wp_bind]
    refine wp_mono ?_ (wp_history hs'.toLoose hwf h' (wp_stopWorkspace hs'))
    rintro (e | _) u ⟨hu, hloose', hholds⟩
    · exact ⟨m, hloose', hwf, hholds⟩
    · exact hrest hu.1 hholds

/-! ### Turns -/

lemma wp_knownWork {p : Op α} (h : L.Known w)
    (hp : ∀ m s, (history m).Loose s → wp (history m).ctx p (fun _ => (history m).Loose) s) :
    wp (ledgerCtx L accepts) p.lift (fun _ => L.Known) w := by
  obtain ⟨m, hloose, hwf, hholds⟩ := h
  refine wp_mono ?_ (wp_history hloose hwf hholds (hp m w.1 hloose))
  rintro r w' ⟨-, hloose', hholds'⟩
  exact ⟨m, hloose', hwf, hholds'⟩

lemma known_indifferent (hsame : Indifferent w w') (hloose : (history m).Loose w.1)
    (h : L.holds m w) : (history m).Loose w'.1 ∧ L.guar w w' ∧ L.holds m w' := by
  have hheld := hloose.held
  have hloose' : (history m).Loose w'.1 := by
    refine ⟨⟨hsame.disk ▸ hheld.disk, ?_, ?_⟩, trivial, hsame.calm hloose.calm⟩
    · rw [hsame.reloadRequired, hsame.bindings]
      exact hheld.bindings
    · rw [hsame.intents]
      exact hheld.writing
  exact ⟨hloose', Ledger.congr h hloose hloose' hsame.recorded hsame.granted⟩

lemma known_turn (hsame : Indifferent w w') (h : L.Known w) : L.guar w w' ∧ L.Known w' := by
  obtain ⟨m, hloose, hwf, hholds⟩ := h
  obtain ⟨hloose', hguar, hholds'⟩ := known_indifferent hsame hloose hholds
  exact ⟨hguar, m, hloose', hwf, hholds'⟩

lemma wp_historyConfigureTurn {config : DaemonConfig} {sequence : Nat} {deadline : Option Nat}
    (h : L.Known w) (hdrop : w.1.paused ∨ ∀ m, Stores m w → L.mayDrop m config.workspaceId) :
    wp (ledgerCtx L accepts) (body (.configure config sequence deadline)) (fun _ => L.Known) w := by
  have hbegun := known_turn (indifferent_beginTurn w [config.workspaceId]) h
  rw [body, wp_bind, onMachine, wp_update]
  refine ⟨hbegun.1, wp_answeredTurn (fun _ _ => known_turn) ?_ fun _ => (.of_same rfl)⟩
  have hadmitted : wp (ledgerCtx L accepts) (admitted sequence (runConfigure config))
      (fun _ => L.Known) (w.1.beginTurn [config.workspaceId], w.2) := by
    refine wp_letIn (fun _ => hbegun.2) fun hpaused => ?_
    obtain ⟨hguar, m, hloose, hwf, hholds⟩ := @known_turn L (w.1.beginTurn [config.workspaceId], w.2)
      (w.1.beginTurn [config.workspaceId], w.2.decide sequence) (.of_same rfl) hbegun.2
    refine ⟨hguar, wp_historyConfigure hloose hwf hholds ?_⟩
    rcases hdrop with hp | hdrop
    · exact absurd hp (by simpa [Machine.beginTurn] using hpaused)
    · exact hdrop m hloose.held.disk
  refine wp_failsLate hadmitted (fun _ hw' => hw') fun e w' hw' => ?_
  exact known_turn (indifferent_failedAfterAnswer w' _ _ _ _ _) hw'

lemma wp_historyBody {task : Task} (h : L.Known w)
    (hdrop : ∀ config sequence deadline, task = .configure config sequence deadline →
      w.1.paused ∨ ∀ m, Stores m w → L.mayDrop m config.workspaceId)
    (hopen : ∀ workspaceId requestId expectedVersion,
      task = .recordUpgrade workspaceId requestId expectedVersion → w.1.paused = false →
      expectedVersion ≠ "" → ∀ m, Stores m w → (∀ p ∈ m workspaceId, p.requestId ≠ requestId) →
      L.mayOpen m workspaceId) : wp (ledgerCtx L accepts) (body task) (fun _ => L.Known) w := by
  have hended {α : Type} {p : Op α} {m : String → List UpgradeOperation} {s : Machine}
      (hp : wp (history m).ctx p (history m).Ended s) :
      wp (history m).ctx p (fun _ => (history m).Loose) s := wp_mono (fun _ _ ht => ht.1) hp
  cases task with
  | configure config sequence deadline =>
    exact wp_historyConfigureTurn h (hdrop config sequence deadline rfl)
  | command c =>
    refine wp_commandTurn (fun _ _ => known_turn) h (fun w hw => ?_) fun w hw _ => ?_
    · exact wp_knownWork hw fun m s hs => hended (wp_awaitIntent hs)
    · refine wp_knownWork hw fun m s hs => hended (wp_runCommand (fun _ => trivial) ?_ hs)
      exact fun t u ht hu hq => ⟨ht.held, hu.held, hq.calm⟩
  | recover => exact wp_knownWork h fun m s hs => hended (wp_reconcileBindings hs)
  | reconcile => exact wp_knownWork h fun m s hs => hended (wp_reconcile hs)
  | recordUpgrade workspaceId requestId expectedVersion =>
    obtain ⟨m, hloose, hwf, hholds⟩ := h
    rw [body, wp_bind]
    refine wp_mono ?_ (wp_historyRecord hloose hwf hholds fun hpaused hversion =>
      hopen _ _ _ rfl hpaused hversion m hloose.held.disk)
    rintro (e | granted) w' ⟨hknown, hgrant⟩
    · exact hknown
    · cases granted with
      | true => exact hgrant rfl
      | false => exact hknown
  | completeUpgrade workspaceId requestId settlement =>
    obtain ⟨m, hloose, hwf, hholds⟩ := h
    rw [body, wp_bind]
    refine wp_mono ?_ (wp_historyComplete hloose hwf hholds)
    rintro (e | _) w' hw' <;> exact hw'
  | acknowledgeUpgrade workspaceId requestId =>
    obtain ⟨m, hloose, hwf, hholds⟩ := h
    rw [body, wp_bind]
    refine wp_mono ?_ (wp_historyAcknowledge hloose hwf hholds)
    rintro (e | _) w' hw' <;> exact hw'
  | recordFailure operation workspaceIds message =>
    exact wp_knownWork h fun m s hs => hended (wp_recordFailure hs)
  | snapshot =>
    exact wp_knownWork h fun m s hs => wp_mono (fun _ _ ht => ht.1) (wp_refresh hs)
  | resume =>
    have hforgot := @known_turn L w (w.1, { w.2 with observed := none, viewing := none })
      (.of_same rfl) h
    rw [body, wp_bind, forget, onWatch, wp_update]
    exact ⟨hforgot.1, wp_knownWork hforgot.2 fun m s hs => hended (wp_resume hs
      trivial ⟨hs.held, ⟨hs.held.disk, hs.held.bindings, hs.held.writing⟩, id⟩)⟩
  | shutdown =>
    have hforgot := @known_turn L w (w.1, { w.2 with observed := none, viewing := none })
      (.of_same rfl) h
    rw [body, wp_bind, forget, onWatch, wp_update]
    exact ⟨hforgot.1, wp_knownWork hforgot.2 fun m s hs => hended (wp_shutdown hs)⟩

lemma known_event {l : Event} (hknown : L.Known w) (h : w.event accepts l = some w') :
    L.Known w' ∧ L.guar w w' := by
  obtain ⟨m, hloose, hwf, hholds⟩ := hknown
  obtain ⟨hrecorded, hgranted, -⟩ := World.event_watch h
  have hloose' := hloose.event h trivial
  obtain ⟨hguar, hholds'⟩ := Ledger.congr hholds hloose hloose' hrecorded hgranted
  exact ⟨⟨m, hloose', hwf, hholds'⟩, hguar⟩

end Ledgers

/-! ### Runs -/

/-- Every ledger holds in all runs that allow its changes. -/
def ledgerSpec (L : Ledger) (accepts : Registry → Bool) (ok : System → Act Event Outcome → Prop)
    (hdrop : ∀ s config sequence deadline rest, ok s .begin →
      s.shared.1.pending = .configure config sequence deadline :: rest →
      s.shared.1.paused ∨ ∀ m, Stores m s.shared → L.mayDrop m config.workspaceId)
    (hopen : ∀ s workspaceId requestId expectedVersion rest, ok s .begin →
      s.shared.1.pending = .recordUpgrade workspaceId requestId expectedVersion :: rest →
      s.shared.1.paused = false → expectedVersion ≠ "" → ∀ m, Stores m s.shared →
      (∀ p ∈ m workspaceId, p.requestId ≠ requestId) → L.mayOpen m workspaceId) :
    (supervisor accepts).Spec ok where
  idle := L.Known
  context _ := ledgerCtx L accepts
  rely_refl _ _ := ⟨fun _ => id, fun _ => id, id, rfl, rfl⟩
  rely_trans _ _ _ _ h h' := ⟨fun m => h'.1 m ∘ h.1 m, fun m => h'.2.1 m ∘ h.2.1 m,
    h'.2.2.1 ∘ h.2.2.1, h'.2.2.2.1.trans h.2.2.2.1, h'.2.2.2.2.trans h.2.2.2.2⟩
  guar_refl _ := L.guar_refl
  guar_trans _ := L.guar_trans
  event_idle _ _ _ _ _ hevent h := (known_event h hevent).1
  event_rely s task p l w' _ _ hevent := by
    obtain ⟨hrecorded, hgranted, -⟩ := World.event_watch hevent
    exact ⟨fun m h => h.event hevent trivial, fun m h => h.event hevent trivial,
      fun h => (locked_event h hevent).1, hrecorded, hgranted⟩
  reply_answer _ _ _ o _ _ _ _ hans := ⟨o, hans⟩
  body_safe s task w _ hok hnext h := by
    obtain ⟨rest, hpending, rfl⟩ := World.next_cases hnext
    have hbegun := (@known_turn L s.shared ({ s.shared.1 with pending := rest },
      { s.shared.2 with author := task.author, intentWritten := false }) (.of_same rfl) h).2
    refine wp_historyBody hbegun ?_ ?_
    · rintro config sequence deadline rfl
      exact hdrop s config sequence deadline rest hok hpending
    · rintro workspaceId requestId expectedVersion rfl
      exact hopen s workspaceId requestId expectedVersion rest hok hpending

lemma known_inv {L : Ledger} {accepts : Registry → Bool} {ok : System → Act Event Outcome → Prop}
    {hdrop hopen} {s : System} (h : (ledgerSpec L accepts ok hdrop hopen).Inv s) :
    L.Known s.shared := by
  rcases hturn : s.turn with _ | ⟨task, p⟩
  · exact ((ledgerSpec L accepts ok hdrop hopen).inv_idle hturn).mp h
  · obtain ⟨u, ⟨m, hloose, hwf, hholds⟩, -, hrely⟩ :=
      ((ledgerSpec L accepts ok hdrop hopen).inv_turn hturn).mp h
    exact ⟨m, hrely.1 m hloose, hwf, Ledger.rely hholds hloose hrely⟩

/-- A registry as it is loaded: one binding for each Workspace, with a list of operations that the
store accepts. -/
structure Registry.WellFormed (registry : Registry) : Prop where
  unique : (registry.map (·.workspaceId)).Nodup
  operations : ∀ b ∈ registry, Supervisor.WellFormed b.operations

/-- The operations of a registry. -/
def Registry.history (registry : Registry) (workspaceId : String) : List UpgradeOperation :=
  ((registry.find workspaceId).map (·.operations)).getD []

variable {registry : Registry}

lemma keeps_history (h : registry.WellFormed) :
    registry.Keeps (history registry.history).keeps (history registry.history).stays := by
  constructor
  · intro b hb
    show b.operations = ((registry.find b.workspaceId).map (·.operations)).getD []
    cases hfind : registry.find b.workspaceId with
    | none =>
      have hnone := List.find?_eq_none.mp hfind b hb
      simp at hnone
    | some c =>
      obtain ⟨hc, hid⟩ := Registry.mem_of_find hfind
      rw [List.inj_on_of_nodup_map h.unique hc hb hid]
      rfl
  · intro id hid
    cases hfound : registry.find id with
    | none => exact absurd (by simp [Registry.history, hfound]) hid
    | some b => exact ⟨b, Registry.mem_of_find hfound⟩

lemma loose_init {m : String → List UpgradeOperation} {paused : Bool}
    (h : registry.Keeps (history m).keeps (history m).stays) :
    (history m).Loose (System.init registry paused).shared.1 :=
  ⟨⟨h, fun _ => h, fun _ hi => (nomatch hi)⟩, trivial, Progress.init_calm⟩

lemma known_init {L : Ledger} {paused : Bool} (h : registry.WellFormed)
    (hholds : L.holds registry.history (System.init registry paused).shared) :
    L.Known (System.init registry paused).shared := by
  refine ⟨registry.history, loose_init (keeps_history h), fun id => ?_, hholds⟩
  cases hfound : registry.find id with
  | none => simpa [Registry.history, hfound] using WellFormed.nil
  | some b => simpa [Registry.history, hfound] using h.operations b (Registry.mem_of_find hfound).1

end Coforge.Supervisor
