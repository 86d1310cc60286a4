import Coforge.Supervisor.BindingFile
import Coforge.Supervisor.Work

/-!
# What was loaded can be written back

A registry that a store writes is one that it loads again as the same bindings: no operation of
the supervisor brings back the older list of upgrade requests, so nothing is left to migrate.

The bindings that are loaded pass the check of a save when each binding of the file is
`Migratable`. The migration itself may break a binding of the file that is not: it can leave two
operations pending.
-/

namespace Coforge.Supervisor

open Async Transition List
open Async.Prog hiding throw
open Json (items)

/-! ### The check of a save -/

section Save

variable {env : Environment} {now : Fin (2 ^ 53)} {bindings : List Json}

lemma each_eq_ok {check : Json → Json.Check} :
    Environment.each check bindings = .ok () ↔ ∀ b ∈ bindings, check b = .ok () := by
  induction bindings with
  | nil => simp [Environment.each]
  | cons b bs ih => simp [Environment.each, ih]

lemma assertBindings_eq_ok :
    env.assertBindings bindings = .ok () ↔ ∀ b ∈ bindings, env.assertBindings [b] = .ok () := by
  cases henv : env.expectedServerUrl with
  | none => simp [Environment.assertBindings, henv]
  | some expected =>
    by_cases hempty : expected = ""
    · simp [Environment.assertBindings, henv, hempty]
    · simp [Environment.assertBindings, henv, hempty, each_eq_ok]

lemma assertBindings_congr {b c : Json} (h : c.get? "serverHttpUrl" = b.get? "serverHttpUrl") :
    env.assertBindings [c] = env.assertBindings [b] := by
  simp only [Environment.assertBindings, Environment.each, Environment.assertBinding, h]

lemma save_eq_ok {stored : Stored} : save env bindings = .ok stored ↔
      validateBindings (.arr bindings) = .ok () ∧ env.assertBindings bindings = .ok () ∧
        .json (.arr bindings) = stored := by
  simp only [save, Json.bind_eq_ok, Json.pure_eq_ok]

lemma save_passes : save env bindings = .ok (.json (.arr bindings)) ↔
      validateBindings (.arr bindings) = .ok () ∧ env.assertBindings bindings = .ok () := by
  rw [save_eq_ok]
  simp

/-- A registry passes when its Workspaces are distinct and each binding passes on its own. -/
lemma save_each : save env bindings = .ok (.json (.arr bindings)) ↔
      (bindings.map workspaceIdOf).Nodup ∧
        ∀ b ∈ bindings, save env [b] = .ok (.json (.arr [b])) := by
  simp only [save_passes, validateBindings_eq_ok, mem_singleton, forall_eq, map_cons,
    map_nil, nodup_singleton, and_true]
  rw [assertBindings_eq_ok]
  constructor
  · rintro ⟨⟨hvalid, hnodup⟩, henv⟩
    exact ⟨hnodup, fun b hb => ⟨hvalid b hb, henv b hb⟩⟩
  · rintro ⟨hnodup, h⟩
    exact ⟨⟨fun b hb => (h b hb).1, hnodup⟩, fun b hb => (h b hb).2⟩

lemma get?_dropMalformedLastFailure {binding : Json} {key : String} (h : key ≠ "lastFailure") :
    (dropMalformedLastFailure binding).get? key = binding.get? key := by
  rw [dropMalformedLastFailure]
  split
  · rfl
  · split_ifs
    · rfl
    · rw [Json.get?_erase, if_neg h]

lemma migratable_dropMalformedLastFailure {binding : Json} :
    Migratable (dropMalformedLastFailure binding) ↔ Migratable binding := by
  rw [Migratable, Migratable, unmigrated, unmigrated,
    get?_dropMalformedLastFailure (by decide), get?_dropMalformedLastFailure (by decide)]

lemma load_checked {file : Stored} (h : load env now file = .ok bindings) :
    validateBindings (.arr (file.bindings.map dropMalformedLastFailure)) = .ok () ∧
      env.assertBindings (file.bindings.map dropMalformedLastFailure) = .ok () ∧
      bindings = (file.bindings.map dropMalformedLastFailure).map
        (migrateLegacyUpgradeRequests now) := by
  cases file with
  | missing =>
    cases h
    refine ⟨?_, ?_, rfl⟩
    · simp [Stored.bindings, validateBindings_eq_ok]
    · rw [assertBindings_eq_ok]
      simp [Stored.bindings]
  | unreadable message => cases h
  | json value =>
    simp only [load, Json.bind_eq_ok, Json.pure_eq_ok] at h
    obtain ⟨hvalid, henv, rfl⟩ := h
    cases value with
    | arr bs => exact ⟨hvalid, henv, rfl⟩
    | _ => cases hvalid

lemma load_saved (h : save env bindings = .ok (.json (.arr bindings)))
    (hnone : ∀ b ∈ bindings, items (b.get? "upgradeRequests") = []) :
    load env now (.json (.arr bindings)) = .ok bindings := by
  obtain ⟨hvalid, henv⟩ := save_passes.mp h
  have hkept : bindings.map dropMalformedLastFailure = bindings := by
    refine (map_congr_left fun b hb => ?_).trans (map_id bindings)
    have hoptional := ((validateBindings_eq_ok.mp hvalid).1 b hb).2
    simp only [validateOptional, Json.bind_eq_ok, Json.ifPresent_eq_ok, Json.require_eq_ok] at hoptional
    rw [dropMalformedLastFailure, id]
    split
    · rfl
    · next failure hfailure => rw [if_pos (hoptional.2.2.1 failure hfailure)]
  have hmigrated : bindings.map (migrateLegacyUpgradeRequests now) = bindings := by
    refine (map_congr_left fun b hb => ?_).trans (map_id bindings)
    rw [migrateLegacyUpgradeRequests, hnone b hb, isEmpty_nil, if_pos rfl, id]
  have hitems : items (some (dropMalformedLastFailures (.arr bindings))) = bindings := hkept
  simp only [load, Json.bind_eq_ok, Json.pure_eq_ok, hitems, hmigrated, and_true]
  rw [dropMalformedLastFailures, hkept]
  exact ⟨hvalid, henv⟩

lemma items_load {file : Stored} (h : load env now file = .ok bindings) :
    ∀ b ∈ bindings, items (b.get? "upgradeRequests") = [] := by
  obtain ⟨hvalid, -, rfl⟩ := load_checked h
  intro b hb
  obtain ⟨c, hc, rfl⟩ := mem_map.mp hb
  have hrecord := isRecord_of_validBinding ((validateBindings_eq_ok.mp hvalid).1 c hc).1
  rw [migrateLegacyUpgradeRequests]
  split_ifs with hempty
  · exact isEmpty_iff.mp hempty
  · rw [Json.get?_set (by simpa using hrecord), if_neg (by decide), Json.get?_erase, if_pos rfl]
    rfl

/-- The bindings that are loaded pass the check of a save when the migration broke none. -/
lemma save_load {file : Stored} (h : load env now file = .ok bindings) :
    save env bindings = .ok (.json (.arr bindings)) ↔ ∀ b ∈ file.bindings, Migratable b := by
  obtain ⟨hvalid, henv, rfl⟩ := load_checked h
  obtain ⟨hall, hnodup⟩ := validateBindings_eq_ok.mp hvalid
  have hrecord {c : Json} (hc : c ∈ file.bindings.map dropMalformedLastFailure) : c.isRecord :=
    isRecord_of_validBinding (hall c hc).1
  have hids : ((file.bindings.map dropMalformedLastFailure).map
      (migrateLegacyUpgradeRequests now)).map workspaceIdOf =
      (file.bindings.map dropMalformedLastFailure).map workspaceIdOf := by
    rw [map_map]
    refine map_congr_left fun c hc => ?_
    exact congrArg _ (get?_migrate (hrecord hc) (by decide) (by decide))
  have hserver : env.assertBindings ((file.bindings.map dropMalformedLastFailure).map
      (migrateLegacyUpgradeRequests now)) = .ok () := by
    rw [assertBindings_eq_ok] at henv ⊢
    intro b hb
    obtain ⟨c, hc, rfl⟩ := mem_map.mp hb
    rw [assertBindings_congr (get?_migrate (hrecord hc) (by decide) (by decide))]
    exact henv c hc
  rw [save_passes, validateBindings_eq_ok, hids]
  simp only [hnodup, hserver, and_true, forall_mem_map]
  constructor
  · intro hsaved b hb
    have hb' := mem_map_of_mem (f := dropMalformedLastFailure) hb
    obtain ⟨hbinding, hoptional⟩ := hall _ hb'
    exact migratable_dropMalformedLastFailure.mp
      ((validateOptional_migrate hbinding hoptional).mp (hsaved b hb).2)
  · intro hmigratable b hb
    have hb' := mem_map_of_mem (f := dropMalformedLastFailure) hb
    obtain ⟨hbinding, hoptional⟩ := hall _ hb'
    refine ⟨validBinding_migrate hbinding, (validateOptional_migrate hbinding hoptional).mpr ?_⟩
    exact migratable_dropMalformedLastFailure.mpr (hmigratable b hb)

end Save

/-! ### The runs of the supervisor -/

/-- The binding has no list of the older kind. -/
def ManagedBinding.Migrated (binding : ManagedBinding) : Prop :=
  binding.upgradeRequests.getD [] = []

lemma migrated_decode {binding : Json} :
    (ManagedBinding.decode binding).Migrated ↔ items (binding.get? "upgradeRequests") = [] := by
  show (decodeList LegacyUpgradeRequest.decode (binding.get? "upgradeRequests")).getD [] = [] ↔ _
  cases hfield : binding.get? "upgradeRequests" with
  | none => simp [decodeList, items]
  | some value => simp [decodeList]

/-- All bindings are migrated. -/
def migrated : Concern where
  keeps := ManagedBinding.Migrated
  stays _ := False
  stage _ := True
  allows s t :=
    Held ManagedBinding.Migrated (fun _ => False) s ∧
      Held ManagedBinding.Migrated (fun _ => False) t ∧ (s.progress.Calm → t.progress.Calm)
  keeps_of_kept {b c} h hb := by
    have hrequests : c.upgradeRequests = b.upgradeRequests := congrArg (fun k => k.2.2.2.1) h
    rw [ManagedBinding.Migrated, hrequests]
    exact hb
  stage_aside _ := id
  allows_aside hs ht hst := ⟨hs, ht, hst.calm⟩

/-- So are those of every registry that was written. -/
structure WritesMigrated (w : World) : Prop where
  loose : migrated.Loose w.1
  writes : ∀ x ∈ w.2.writes, ∀ b ∈ x.after, b.Migrated

def migratedCtx (accepts : Registry → Bool) : Context World Reply where
  rely w w' := (WritesMigrated w → WritesMigrated w') ∧ (migrated.Sound w.1 → migrated.Sound w'.1)
  answer e w r w' := ∃ o, w.answer accepts e o = some (r, w')
  guar _ _ := True
  issue _ := WritesMigrated

section Runs

variable {accepts : Registry → Bool} {w w' : World}

lemma writes_answer {e : Effect} {o : Outcome} {r : Reply e}
    (h : w.answer accepts e o = some (r, w')) :
    ∀ x ∈ w'.2.writes, x ∈ w.2.writes ∨ x.after = w'.1.disk := by
  intro x hx
  rcases World.answer_cases h with rfl | ⟨-, -, rfl⟩ | ⟨_, _, -, -, rfl⟩ | ⟨_, _, _, -, -, -, rfl⟩
  · exact .inl hx
  · exact .inl hx
  · rcases mem_cons.mp hx with rfl | hx
    · exact .inr rfl
    · exact .inl hx
  · exact .inl hx

lemma WritesMigrated.store (h : WritesMigrated w) (hloose : migrated.Loose w'.1)
    (hwrites : ∀ x ∈ w'.2.writes, x ∈ w.2.writes ∨ x.after = w'.1.disk) : WritesMigrated w' where
  loose := hloose
  writes x hx b hb := by
    rcases hwrites x hx with hx | hdisk
    · exact h.writes x hx b hb
    · rw [hdisk] at hb
      exact hloose.held.disk.all b hb

lemma WritesMigrated.event {l : Event} (h : WritesMigrated w)
    (hevent : w.event accepts l = some w') : WritesMigrated w' := by
  obtain ⟨-, -, hwrites⟩ := World.event_watch hevent
  exact h.store (h.loose.event hevent trivial) hwrites

lemma WritesMigrated.indifferent (hw : Indifferent w w') (h : WritesMigrated w) :
    (migratedCtx accepts).guar w w' ∧ WritesMigrated w' := by
  have hheld := h.loose.held
  refine ⟨trivial, ⟨⟨hw.disk ▸ hheld.disk, ?_, ?_⟩, trivial, hw.calm h.loose.calm⟩, ?_⟩
  · rw [hw.reloadRequired, hw.bindings]
    exact hheld.bindings
  · rw [hw.intents]
    exact hheld.writing
  · rw [hw.writes]
    exact h.writes

lemma wp_migrated {α : Type} {p : Op α} (h : WritesMigrated w)
    (hp : wp migrated.ctx p (fun _ => migrated.Loose) w.1) :
    wp (migratedCtx accepts) p.lift (fun _ => WritesMigrated) w := by
  refine wp_mono (fun _ _ hw' => hw'.2) (wp_lift (I := WritesMigrated) ?_ ?_ ?_ ?_ ?_ h hp)
  · intro e w w' hw _ hrely
    exact ⟨⟨fun _ => (hrely.1 hw).loose, hrely.2⟩, hrely.1 hw⟩
  · intro e w hw _
    exact hw
  · rintro e w r w' - ⟨o, hans⟩
    exact ⟨accepts, o, w.2, w'.2, hans⟩
  · rintro e w r w' hw ⟨o, hans⟩ hguar
    have hloose : migrated.Loose w'.1 := ⟨hguar.2.1, trivial, hguar.2.2 hw.loose.calm⟩
    exact ⟨trivial, hw.store hloose (writes_answer hans)⟩
  · intro w t hw hguar
    exact ⟨trivial, ⟨⟨hguar.2.1, trivial, hguar.2.2 hw.loose.calm⟩, hw.writes⟩⟩

lemma wp_migratedBody {task : Task} (h : WritesMigrated w) :
    wp (migratedCtx accepts) (body task) (fun _ => WritesMigrated) w := by
  have hended {α : Type} {p : Op α} {s : Machine} (hp : wp migrated.ctx p migrated.Ended s) :
      wp migrated.ctx p (fun _ => migrated.Loose) s := wp_mono (fun _ _ ht => ht.1) hp
  have hturn (w w' : World) : Indifferent w w' → WritesMigrated w →
      (migratedCtx accepts).guar w w' ∧ WritesMigrated w' := WritesMigrated.indifferent
  have hoperations (b : ManagedBinding) (operations : List UpgradeOperation)
      (hb : migrated.keeps b) : migrated.keeps { b with upgradeOperations := some operations } := hb
  cases task with
  | configure config sequence deadline =>
    refine wp_configureTurn hturn h fun w hw _ => wp_migrated hw (hended ?_)
    exact Concern.wp_runConfigure hw.loose fun _ _ => rfl
  | command c =>
    refine wp_commandTurn hturn h (fun w hw => ?_) fun w hw _ => ?_
    · exact wp_migrated hw (hended (Concern.wp_awaitIntent hw.loose))
    · refine wp_migrated hw (hended (Concern.wp_runCommand (fun _ => trivial) ?_ hw.loose))
      exact fun t u ht hu hq => ⟨ht.held, hu.held, hq.calm⟩
  | recover => exact wp_migrated h (hended (Concern.wp_reconcileBindings h.loose))
  | reconcile => exact wp_migrated h (hended (Concern.wp_reconcile h.loose))
  | recordUpgrade workspaceId requestId expectedVersion =>
    rw [body, wp_bind]
    refine wp_mono ?_ (wp_migrated h (Concern.wp_recordUpgrade hoperations h.loose))
    rintro (e | granted) w' hw'
    · exact hw'
    · cases granted with
      | true => exact ⟨trivial, ⟨hw'.loose, hw'.writes⟩⟩
      | false => exact hw'
  | completeUpgrade workspaceId requestId settlement =>
    rw [body, wp_bind]
    refine wp_mono ?_ (wp_migrated h (Concern.wp_completeUpgrade hoperations h.loose))
    rintro (e | _) w' hw' <;> exact hw'
  | acknowledgeUpgrade workspaceId requestId =>
    rw [body, wp_bind]
    refine wp_mono ?_ (wp_migrated h (Concern.wp_acknowledgeUpgrade hoperations h.loose))
    rintro (e | _) w' hw' <;> exact hw'
  | recordFailure operation workspaceIds message =>
    exact wp_migrated h (hended (Concern.wp_recordFailure h.loose))
  | snapshot => exact wp_migrated h (wp_mono (fun _ _ ht => ht.1) (Concern.wp_refresh h.loose))
  | resume =>
    obtain ⟨hguar, hforgot⟩ := hturn w (w.1, { w.2 with observed := none, viewing := none })
      (.of_same rfl) h
    rw [body, wp_bind, forget, onWatch, wp_update]
    have hheld := hforgot.loose.held
    exact ⟨hguar, wp_migrated hforgot (hended (Concern.wp_resume hforgot.loose trivial
      ⟨hheld, ⟨hheld.disk, hheld.bindings, hheld.writing⟩, id⟩))⟩
  | shutdown =>
    obtain ⟨hguar, hforgot⟩ := hturn w (w.1, { w.2 with observed := none, viewing := none })
      (.of_same rfl) h
    rw [body, wp_bind, forget, onWatch, wp_update]
    exact ⟨hguar, wp_migrated hforgot (hended (Concern.wp_shutdown hforgot.loose))⟩

end Runs

def migratedSpec (accepts : Registry → Bool) :
    Component.Spec (supervisor accepts) fun _ _ => True where
  idle := WritesMigrated
  context _ := migratedCtx accepts
  rely_refl _ _ := ⟨id, id⟩
  rely_trans _ _ _ _ h h' := ⟨h'.1 ∘ h.1, h'.2 ∘ h.2⟩
  guar_refl _ _ := trivial
  guar_trans _ _ _ _ _ _ := trivial
  event_idle _ _ _ _ _ hevent h := h.event hevent
  event_rely _ _ _ _ _ _ _ hevent := ⟨fun h => h.event hevent, fun h => h.event hevent trivial⟩
  reply_answer _ _ _ o _ _ _ _ hans := ⟨o, hans⟩
  body_safe s task w _ _ hnext h := by
    obtain ⟨rest, -, rfl⟩ := World.next_cases hnext
    refine wp_migratedBody ⟨⟨⟨h.loose.held.disk, h.loose.held.bindings, h.loose.held.writing⟩,
      trivial, h.loose.calm⟩, h.writes⟩

/-- Whatever the supervisor writes in a run that starts from migrated bindings is migrated. -/
lemma migrated_run {accepts : Registry → Bool} {registry : Registry} {paused : Bool}
    {acts : List (Act Event Outcome)} {s : System} (h : ∀ b ∈ registry, b.Migrated)
    (hrun : run (supervisor accepts).step (System.init registry paused) acts = some s) :
    ∀ x ∈ s.shared.2.writes, ∀ b ∈ x.after, b.Migrated := by
  have hkeeps : registry.Keeps ManagedBinding.Migrated (fun _ => False) :=
    ⟨h, fun _ hid => hid.elim⟩
  have hinit : (migratedSpec accepts).Inv (System.init registry paused) := by
    refine ((migratedSpec accepts).inv_idle rfl).mpr
      ⟨⟨⟨hkeeps, fun _ => hkeeps, ?_⟩, trivial, Progress.init_calm⟩, ?_⟩
    · intro i hi
      cases hi
    · intro x hx
      cases hx
  have hinv := (migratedSpec accepts).safe_run hinit (permitted_of_forall (fun _ _ => trivial) _ _)
    hrun
  rcases hturn : s.turn with _ | ⟨task, p⟩
  · exact (((migratedSpec accepts).inv_idle hturn).mp hinv).writes
  · obtain ⟨u, hu, -, hrely⟩ := ((migratedSpec accepts).inv_turn hturn).mp hinv
    exact (hrely.1 hu).writes

/-! ### Writing back -/

/-- Bindings that were loaded can be written back, and so can any registry of distinct Workspaces
that other bindings in order have come into; and a registry that the supervisor writes, with
whatever further fields its bindings carry, is loaded as the same bindings. -/
structure WritesBack (env : Environment) (bindings : List Json) : Prop where
  saved : save env bindings = .ok (.json (.arr bindings))
  mutated : ∀ next : List Json, (next.map workspaceIdOf).Nodup →
    (∀ b ∈ next, b ∈ bindings ∨ save env [b] = .ok (.json (.arr [b]))) →
    save env next = .ok (.json (.arr next))
  reloaded : ∀ accepts paused acts s,
    run (supervisor accepts).step (System.init (bindings.map ManagedBinding.decode) paused) acts =
      some s →
    ∀ x ∈ s.shared.2.writes, ∀ next stored now, next.map ManagedBinding.decode = x.after →
      save env next = .ok stored → load env now stored = .ok next

/-- Any server will do. -/
def anyServer : Environment where
  expectedServerUrl := none
  origin _ := none

/-- A file of an older version, with these upgrade requests. -/
def olderFile (requests : List String) : Stored :=
  .json (.arr [.obj [("workspaceId", .str "a"), ("computerId", .str "c"),
    ("workspaceRoot", .str "/a"), ("enabled", .bool true),
    ("upgradeRequests", .arr (requests.map fun id =>
      .obj [("requestId", .str id), ("expectedVersion", .str "0.1.0-dev.28")]))]])

end Coforge.Supervisor
