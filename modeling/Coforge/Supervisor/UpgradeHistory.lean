import Coforge.Supervisor.Ledger

/-!
# No upgrade operation is lost

An operation that was recorded is carried along by all work on the bindings, but for a configure:
that one builds the binding anew, without operations.

`SparesUpgrades` is the condition that no configure comes to its turn while the binding it
replaces has operations.
-/

namespace Coforge.Supervisor

open Async History Transition
open Async.Prog hiding throw

/-- No configure is let in while the store holds upgrade operations of its Workspace. -/
def SparesUpgrades (s : System) : Act Event Outcome → Prop
  | .begin =>
    match s.shared.1.pending.head? with
    | some (.configure config _ _) =>
      s.shared.1.paused ∨
        ∀ b ∈ s.shared.1.disk, b.workspaceId = config.workspaceId → b.operations = []
    | _ => True
  | _ => True

instance (s : System) : ∀ a, Decidable (SparesUpgrades s a)
  | .event _ => isTrue trivial
  | .begin =>
    match h : s.shared.1.pending.head? with
    | some (.configure config _ _) =>
      decidable_of_iff (s.shared.1.paused ∨
        ∀ b ∈ s.shared.1.disk, b.workspaceId = config.workspaceId → b.operations = [])
        (by simp [SparesUpgrades, h])
    | none => isTrue (by simp [SparesUpgrades, h])
    | some .recover => isTrue (by simp [SparesUpgrades, h])
    | some .reconcile => isTrue (by simp [SparesUpgrades, h])
    | some (.command _) => isTrue (by simp [SparesUpgrades, h])
    | some (.recordUpgrade _ _ _) => isTrue (by simp [SparesUpgrades, h])
    | some (.completeUpgrade _ _ _) => isTrue (by simp [SparesUpgrades, h])
    | some (.acknowledgeUpgrade _ _) => isTrue (by simp [SparesUpgrades, h])
    | some (.recordFailure _ _ _) => isTrue (by simp [SparesUpgrades, h])
    | some .snapshot => isTrue (by simp [SparesUpgrades, h])
    | some .resume => isTrue (by simp [SparesUpgrades, h])
    | some .shutdown => isTrue (by simp [SparesUpgrades, h])
  | .reply _ => isTrue trivial

/-- From one state to a later one, operations in the store are carried along for as long as not
too many newer ones have been recorded. -/
structure Evolved (w w' : World) : Prop where
  recorded : ∀ id, w.2.recorded id ≤ w'.2.recorded id
  carried : ∀ b ∈ w.1.disk, ∀ pre o post, b.operations = pre ++ o :: post →
    post.length + (w'.2.recorded b.workspaceId - w.2.recorded b.workspaceId) <
      upgradeOperationHistory →
    ∃ b' ∈ w'.1.disk, b'.workspaceId = b.workspaceId ∧
      ∃ pre' o' post', b'.operations = pre' ++ o' :: post' ∧
        post'.length ≤
          post.length + (w'.2.recorded b.workspaceId - w.2.recorded b.workspaceId) ∧
        o.Follows o'

/-- What `recordUpgrade` has asked for is in the history, until it is superseded, and it asks for
it once. -/
structure Promised (m : String → List UpgradeOperation) (w : World) : Prop where
  recorded : ∀ g ∈ w.2.granted, g.recorded ≤ w.2.recorded g.workspaceId
  kept : ∀ g ∈ w.2.granted,
    w.2.recorded g.workspaceId - g.recorded < upgradeOperationHistory →
    ∃ pre o post, m g.workspaceId = pre ++ o :: post ∧ o.requestId = g.requestId ∧
      post.length ≤ w.2.recorded g.workspaceId - g.recorded
  once : w.2.granted.Pairwise fun later earlier =>
    later.workspaceId = earlier.workspaceId → later.requestId = earlier.requestId →
      earlier.recorded + upgradeOperationHistory ≤ later.recorded

section Worlds

variable {m m' : String → List UpgradeOperation} {w w' w'' : World}

lemma Evolved.of_disk (hdisk : w'.1.disk = w.1.disk)
    (hrecorded : ∀ id, w.2.recorded id ≤ w'.2.recorded id) : Evolved w w' where
  recorded := hrecorded
  carried b hb pre o post hsplit _ :=
    ⟨b, hdisk ▸ hb, rfl, pre, o, post, hsplit, Nat.le_add_right _ _, .refl o⟩

lemma Evolved.refl (w : World) : Evolved w w := .of_disk rfl fun _ => Nat.le_refl _

lemma Evolved.trans (h : Evolved w w') (h' : Evolved w' w'') : Evolved w w'' where
  recorded id := Nat.le_trans (h.recorded id) (h'.recorded id)
  carried b hb pre o post hsplit hlt := by
    have hle := h.recorded b.workspaceId
    have hle' := h'.recorded b.workspaceId
    obtain ⟨b', hb', hid, pre', o', post', hsplit', hpost, hfollows⟩ :=
      h.carried b hb pre o post hsplit (by omega)
    rw [← hid] at hle hle' hlt hpost ⊢
    obtain ⟨b'', hb'', hid', pre'', o'', post'', hsplit'', hpost', hfollows'⟩ :=
      h'.carried b' hb' pre' o' post' hsplit' (by omega)
    exact ⟨b'', hb'', hid', pre'', o'', post'', hsplit'', by omega, hfollows.trans hfollows'⟩

lemma evolved_of_stores (hm : Stores m w) (hm' : Stores m' w')
    (hrecorded : ∀ id, w.2.recorded id ≤ w'.2.recorded id)
    (hcarries : ∀ id, Carries upgradeOperationHistory UpgradeOperation.Follows
      (w'.2.recorded id - w.2.recorded id) (m id) (m' id)) : Evolved w w' where
  recorded := hrecorded
  carried b hb pre o post hsplit hlt := by
    have hops : b.operations = m b.workspaceId := hm.all b hb
    obtain ⟨pre', o', post', hsplit', hpost, hfollows⟩ :=
      hcarries b.workspaceId pre o post (hops ▸ hsplit) hlt
    have hne : m' b.workspaceId ≠ [] := by simp [hsplit']
    obtain ⟨b', hb', hid⟩ := hm'.stay b.workspaceId hne
    have hops' : b'.operations = m' b'.workspaceId := hm'.all b' hb'
    exact ⟨b', hb', hid, pre', o', post', by rw [hops', hid, hsplit'], hpost, hfollows⟩

lemma Promised.carry (h : Promised m w) (hgranted : w'.2.granted = w.2.granted)
    (hrecorded : ∀ id, w.2.recorded id ≤ w'.2.recorded id)
    (hcarries : ∀ id, Carries upgradeOperationHistory UpgradeOperation.Follows
      (w'.2.recorded id - w.2.recorded id) (m id) (m' id)) : Promised m' w' where
  recorded g hg := Nat.le_trans (h.recorded g (hgranted ▸ hg)) (hrecorded g.workspaceId)
  kept g hg hlt := by
    rw [hgranted] at hg
    have hle := h.recorded g hg
    have hle' := hrecorded g.workspaceId
    obtain ⟨pre, o, post, hsplit, hid, hpost⟩ := h.kept g hg (by omega)
    obtain ⟨pre', o', post', hsplit', hpost', hfollows⟩ :=
      hcarries g.workspaceId pre o post hsplit (by omega)
    exact ⟨pre', o', post', hsplit', hfollows.requestId.trans hid, by omega⟩
  once := hgranted ▸ h.once

lemma Promised.congr (h : Promised m w) (hrecorded : ∀ id, w.2.recorded id ≤ w'.2.recorded id)
    (hgranted : w'.2.granted = w.2.granted) : Promised m w' :=
  h.carry hgranted hrecorded fun id =>
    .mono (Nat.zero_le _) (.refl .refl 0 (m id))

/-- A request is granted once its operation is the newest of a history that had none for it. -/
lemma Promised.grant {workspaceId requestId : String} {pre : List UpgradeOperation}
    {o : UpgradeOperation} (h : Promised m w) (h' : Promised m' w')
    (hnew : ∀ p ∈ m workspaceId, p.requestId ≠ requestId)
    (hsplit : m' workspaceId = pre ++ [o]) (hid : o.requestId = requestId)
    (hgranted : w'.2.granted = w.2.granted)
    (hrecorded : w.2.recorded workspaceId ≤ w'.2.recorded workspaceId) :
    Promised m' (w'.grant workspaceId requestId) where
  recorded g hg := by
    rcases List.mem_cons.mp hg with rfl | hg
    · exact Nat.le_refl _
    · exact h'.recorded g hg
  kept g hg hlt := by
    rcases List.mem_cons.mp hg with rfl | hg
    · exact ⟨pre, o, [], hsplit, hid, Nat.zero_le _⟩
    · exact h'.kept g hg hlt
  once := by
    refine List.pairwise_cons.mpr ⟨fun g hg hworkspace hrequest => ?_, h'.once⟩
    rw [hgranted] at hg
    have hle := h.recorded g hg
    by_contra hlt
    dsimp only at hworkspace hrequest hlt
    rw [← hworkspace] at hle
    obtain ⟨pre', p, post, hsplit', hid', -⟩ := h.kept g hg (by rw [← hworkspace]; omega)
    rw [← hworkspace] at hsplit'
    exact hnew p (by simp [hsplit']) (hid'.trans hrequest.symm)

end Worlds

/-- What was asked for of operations that are carried along. -/
def promises : Ledger where
  holds := Promised
  guar := Evolved
  mayOpen _ _ := True
  mayDrop m id := m id = []
  guar_refl := .refl
  guar_trans _ _ _ := .trans
  kept {m _ _} hstores hstores' hrecorded hgranted h :=
    ⟨evolved_of_stores hstores hstores' hrecorded fun id =>
      .mono (Nat.zero_le _) (.refl .refl 0 (m id)), h.congr hrecorded hgranted⟩
  amended {m w w' id operations opened} hstores hstores' hamends _ hgranted hrecorded h := by
    have hle (i : String) : w.2.recorded i ≤ w'.2.recorded i := by
      rw [hrecorded i]
      exact Nat.le_add_right _ _
    have hcarries (i : String) : Carries upgradeOperationHistory UpgradeOperation.Follows
        (w'.2.recorded i - w.2.recorded i) (m i) (Function.update m id operations i) := by
      by_cases hi : i = id
      · subst hi
        rw [Function.update_self]
        refine hamends.carries.mono ?_
        rw [hrecorded i]
        cases opened <;> simp
      · rw [Function.update_of_ne hi]
        exact .mono (Nat.zero_le _) (.refl .refl 0 (m i))
    exact ⟨evolved_of_stores hstores hstores' hle hcarries, h.carry hgranted hle hcarries⟩
  dropped {m w w' id} hstores hstores' hnone hgranted hrecorded h := by
    have hsame : Function.update m id [] = m := by rw [← hnone, Function.update_eq_self]
    rw [hsame] at hstores' ⊢
    have hle (i : String) : w.2.recorded i ≤ w'.2.recorded i :=
      Nat.le_of_eq (congrFun hrecorded i).symm
    exact ⟨evolved_of_stores hstores hstores' hle fun i =>
      .mono (Nat.zero_le _) (.refl .refl 0 (m i)), h.congr hle hgranted⟩
  granted h h' hnew hsplit hid hgranted hrecorded :=
    ⟨.of_disk rfl fun _ => Nat.le_refl _, h.grant h' hnew hsplit hid hgranted hrecorded⟩

/-- No step of a run that spares the operations breaks a promise. -/
def historySpec (accepts : Registry → Bool) : (supervisor accepts).Spec SparesUpgrades :=
  ledgerSpec promises accepts SparesUpgrades
    (fun s config sequence deadline rest hok hpending => by
      have hspares : s.shared.1.paused ∨
          ∀ b ∈ s.shared.1.disk, b.workspaceId = config.workspaceId → b.operations = [] := by
        simpa [SparesUpgrades, hpending] using hok
      refine hspares.imp_right fun hnone m hstores => ?_
      by_contra hne
      obtain ⟨b, hb, hid⟩ := hstores.stay config.workspaceId hne
      have hoperations : b.operations = m b.workspaceId := hstores.all b hb
      rw [hnone b hb hid, hid] at hoperations
      exact hne hoperations.symm)
    fun _ _ _ _ _ _ _ _ _ _ _ _ => trivial

lemma promised_init (m : String → List UpgradeOperation) (registry : Registry) (paused : Bool) :
    Promised m (System.init registry paused).shared :=
  ⟨fun _ hg => (nomatch hg), fun _ hg => (nomatch hg), .nil⟩

/-- While no configure replaces upgrade operations, an operation that was recorded stays until
128 newer ones have been, moves on from `pending` and no other way, and keeps its evidence; and its
job is asked for once. -/
theorem upgrade_operations_kept {accepts : Registry → Bool} {registry : Registry} {paused : Bool}
    {before after : List (Act Event Outcome)} {s t : System} (hregistry : registry.WellFormed)
    (hok : Permitted (supervisor accepts).step SparesUpgrades (System.init registry paused)
      (before ++ after))
    (hs : run (supervisor accepts).step (System.init registry paused) before = some s)
    (ht : run (supervisor accepts).step s after = some t) :
    (∀ g ∈ t.shared.2.granted,
      t.shared.2.recorded g.workspaceId - g.recorded < upgradeOperationHistory →
      ∃ b ∈ t.shared.1.disk, b.workspaceId = g.workspaceId ∧
        ∃ o ∈ b.operations, o.requestId = g.requestId) ∧
    Evolved s.shared t.shared ∧
    t.shared.2.granted.Pairwise fun later earlier =>
      later.workspaceId = earlier.workspaceId → later.requestId = earlier.requestId →
        earlier.recorded + upgradeOperationHistory ≤ later.recorded := by
  obtain ⟨hbefore, hafter⟩ := permitted_append.mp hok
  have hafter := hafter s hs
  have hinit : (historySpec accepts).Inv (System.init registry paused) :=
    ((historySpec accepts).inv_idle rfl).mpr (known_init hregistry (promised_init _ _ _))
  have hinv := (historySpec accepts).safe_run hinit hbefore hs
  have hevolved : Evolved s.shared t.shared := by
    refine (historySpec accepts).relate_run .refl (fun _ _ _ => .trans) ?_ ?_ ?_ hinv hafter ht
    · intro s l u hs _ hevent
      exact (known_event (known_inv hs) hevent).2
    · intro w task u hnext
      obtain ⟨rest, -, rfl⟩ := World.next_cases hnext
      exact .of_disk rfl fun _ => Nat.le_refl _
    · exact fun _ _ _ h => h
  obtain ⟨m, hloose, -, hpromised⟩ := known_inv ((historySpec accepts).safe_run hinv hafter ht)
  refine ⟨fun g hg hlt => ?_, hevolved, hpromised.once⟩
  obtain ⟨pre, o, post, hsplit, hid, -⟩ := hpromised.kept g hg hlt
  obtain ⟨b, hb, hworkspace⟩ := hloose.held.disk.stay g.workspaceId (by simp [history, hsplit])
  have hoperations : b.operations = m b.workspaceId := hloose.held.disk.all b hb
  refine ⟨b, hb, hworkspace, o, ?_, hid⟩
  rw [hoperations, hworkspace, hsplit]
  simp

/-- An operation is recorded for a stopped Workspace. -/
def recordedRun : List (Act Event Outcome) :=
  [.begin, .reply .ok, .reply .ok, .event (.recordUpgrade "one" "request" "1.2.0"), .begin,
    .reply .ok, .reply .ok, .reply .ok]

/-- It succeeds. -/
def completedRun : List (Act Event Outcome) :=
  [.event (.completeUpgrade "one" "request" ⟨true, ⟨some "1.2.0", none, none, 7⟩⟩), .begin,
    .reply .ok, .reply .ok, .reply .ok]

/-- Its Workspace is configured again. -/
def reconfiguredRun : List (Act Event Outcome) :=
  [.event (.configure (sampleBinding "one" true).toDaemonConfig none), .begin, .reply .ok,
    .reply .ok, .reply .ok, .reply .ok, .reply .ok]

lemma wellFormed_sample : Registry.WellFormed [sampleBinding "one" false] := by
  refine ⟨by decide, fun b hb => ?_⟩
  rw [List.mem_singleton.mp hb]
  exact .nil

theorem upgrade_operations_kept_completed :
    ∃ s t, run (supervisor fun _ => true).step (System.init [sampleBinding "one" false] false)
        recordedRun = some s ∧ run (supervisor fun _ => true).step s completedRun = some t ∧
      ∀ g ∈ t.shared.2.granted,
        t.shared.2.recorded g.workspaceId - g.recorded < upgradeOperationHistory →
        ∃ b ∈ t.shared.1.disk, b.workspaceId = g.workspaceId ∧
          ∃ o ∈ b.operations, o.requestId = g.requestId := by
  obtain ⟨u, hu⟩ := Option.isSome_iff_exists.mp
    (show (run (supervisor fun _ => true).step (System.init [sampleBinding "one" false] false)
      (recordedRun ++ completedRun)).isSome by decide)
  obtain ⟨s, hs, ht⟩ := run_append_eq_some.mp hu
  exact ⟨s, u, hs, ht, (upgrade_operations_kept wellFormed_sample (by decide) hs ht).1⟩

theorem configure_drops_operation :
    ¬ ∀ (accepts : Registry → Bool) (registry : Registry) paused before after s t,
      registry.WellFormed →
      run (supervisor accepts).step (System.init registry paused) before = some s →
      run (supervisor accepts).step s after = some t →
      (∀ g ∈ t.shared.2.granted,
        t.shared.2.recorded g.workspaceId - g.recorded < upgradeOperationHistory →
        ∃ b ∈ t.shared.1.disk, b.workspaceId = g.workspaceId ∧
          ∃ o ∈ b.operations, o.requestId = g.requestId) ∧
      Evolved s.shared t.shared ∧
      t.shared.2.granted.Pairwise fun later earlier =>
        later.workspaceId = earlier.workspaceId → later.requestId = earlier.requestId →
          earlier.recorded + upgradeOperationHistory ≤ later.recorded := by
  intro h
  obtain ⟨t, hrun, hlost⟩ := (Option.any_eq_true _ _).mp
    (show (run (supervisor fun _ => true).step (System.init [sampleBinding "one" false] false)
      (recordedRun ++ reconfiguredRun)).any (fun t => ∃ g ∈ t.shared.2.granted,
        t.shared.2.recorded g.workspaceId - g.recorded < upgradeOperationHistory ∧
        ∀ b ∈ t.shared.1.disk, b.operations = []) by decide)
  obtain ⟨g, hg, hlt, hnone⟩ := of_decide_eq_true hlost
  obtain ⟨s, hs, ht⟩ := run_append_eq_some.mp hrun
  obtain ⟨b, hb, -, o, ho, -⟩ := (h (fun _ => true) _ false _ _ s t wellFormed_sample hs ht).1 g hg hlt
  rw [hnone b hb] at ho
  cases ho

end Coforge.Supervisor
