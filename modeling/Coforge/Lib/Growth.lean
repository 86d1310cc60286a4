import Coforge.Lib.Pool

/-!
# Calls over a state that only grows

A pool whose shared state has an invariant and only moves up along a preorder, whatever the calls
do. What a call learns then lasts: it has to be carried up to the current state, and nothing that
happens meanwhile takes it away. `Growth.Safe` states a program from such a base, one rule for each
way to build a program, and `Growth.spec` takes safe bodies to the runs of the pool.
-/

namespace Async

open Prog Transition

/-- An invariant, and the preorder along which the state moves. -/
structure Growth (σ : Type) where
  inv : σ → Prop
  le : σ → σ → Prop
  refl : ∀ s, le s s
  trans : ∀ {s t u}, le s t → le t u → le s u

namespace Growth

variable {σ E : Type} {R : E → Type} {ε α β : Type}

/-- The context of every call. -/
def context (g : Growth σ) (answer : (e : E) → σ → R e → σ → Prop) : Context σ R where
  rely s t := g.inv t ∧ g.le s t
  answer := answer
  guar s t := g.inv s → g.inv t ∧ g.le s t
  issue _ _ := True

variable (g : Growth σ) (answer : (e : E) → σ → R e → σ → Prop)

/-- From any state above `u` the program keeps the invariant and moves up, and if it returns a
value then `G` holds of it. -/
def Safe (u : σ) (p : Prog σ R ε α) (G : α → σ → Prop) : Prop :=
  ∀ s, g.inv s → g.le u s → wp (g.context answer) p
    (fun r t => g.inv t ∧ g.le u t ∧ ∀ a, r = .ok a → G a t) s

variable {g answer} {u : σ} {p : Prog σ R ε α} {G H : α → σ → Prop}

lemma Safe.mono (h : Safe g answer u p G) (hle : ∀ a t, g.le u t → G a t → H a t) :
    Safe g answer u p H := fun s hs hu =>
  wp_mono (fun _ t ⟨ht, hut, hG⟩ => ⟨ht, hut, fun a ha => hle a t hut (hG a ha)⟩) (h s hs hu)

lemma safe_pure {a : α} (h : ∀ t, g.inv t → g.le u t → G a t) :
    Safe g answer u (pure a : Prog σ R ε α) G := fun s hs hu =>
  ⟨hs, hu, fun _ ha => Except.ok.inj ha ▸ h s hs hu⟩

lemma safe_throw {e : ε} : Safe g answer u (MonadExcept.throw e : Prog σ R ε α) G :=
  fun _ hs hu => ⟨hs, hu, fun _ ha => nomatch ha⟩

lemma safe_ite {P : Prop} [Decidable P] {q : Prog σ R ε α} (hp : P → Safe g answer u p G)
    (hq : ¬ P → Safe g answer u q G) : Safe g answer u (if P then p else q) G := by
  split
  next h => exact hp h
  next h => exact hq h

/-- What the first part established is carried up to where the second starts. -/
lemma Safe.bind {f : α → Prog σ R ε β} {K : β → σ → Prop} (hp : Safe g answer u p G)
    (hf : ∀ a t, g.inv t → g.le u t → G a t → Safe g answer t (f a) K) :
    Safe g answer u (p >>= f) K := by
  intro s hs hu
  rw [wp_bind]
  refine wp_mono (fun r t ht => ?_) (hp s hs hu)
  obtain ⟨ht, hut, hG⟩ := ht
  cases r with
  | ok a =>
    refine wp_mono (fun r v hv => ?_) (hf a t ht hut (hG a rfl) t ht (g.refl t))
    exact ⟨hv.1, g.trans hut hv.2.1, hv.2.2⟩
  | error e => exact ⟨ht, hut, fun _ hb => nomatch hb⟩

lemma Safe.map {f : α → β} {K : β → σ → Prop} (hp : Safe g answer u p fun a t => K (f a) t) :
    Safe g answer u (f <$> p) K := by
  intro s hs hu
  rw [wp_map]
  refine wp_mono (fun r t ht => ?_) (hp s hs hu)
  obtain ⟨ht, hut, hK⟩ := ht
  cases r with
  | ok a => exact ⟨ht, hut, fun _ hb => Except.ok.inj hb ▸ hK a rfl⟩
  | error e => exact ⟨ht, hut, fun _ hb => nomatch hb⟩

lemma Safe.tryCatch {f : ε → Prog σ R ε α} (hp : Safe g answer u p G)
    (hf : ∀ e t, g.inv t → g.le u t → Safe g answer t (f e) G) :
    Safe g answer u (MonadExcept.tryCatch p f) G := by
  intro s hs hu
  rw [wp_tryCatch]
  refine wp_mono (fun r t ht => ?_) (hp s hs hu)
  obtain ⟨ht, hut, hG⟩ := ht
  cases r with
  | ok a => exact ⟨ht, hut, hG⟩
  | error e =>
    refine wp_mono (fun r v hv => ?_) (hf e t ht hut t ht (g.refl t))
    exact ⟨hv.1, g.trans hut hv.2.1, hv.2.2⟩

lemma Safe.result (hp : Safe g answer u p G) :
    Safe g answer u p.result fun r t => ∀ a, r = .ok a → G a t := by
  intro s hs hu
  rw [wp_result]
  refine wp_mono (fun r t ht => ?_) (hp s hs hu)
  obtain ⟨ht, hut, hG⟩ := ht
  exact ⟨ht, hut, fun _ hr => Except.ok.inj hr ▸ hG⟩

/-- An await whose answers keep the invariant and move up. -/
lemma safe_request {e : E} {G : R e → σ → Prop}
    (h : ∀ s r t, g.inv s → g.le u s → answer e s r t → g.inv t ∧ g.le s t ∧ G r t) :
    Safe g answer u (request e : Prog σ R ε (R e)) G := by
  intro s hs hu
  rw [wp_request]
  refine ⟨trivial, fun s' hs' r t ht => ?_⟩
  have hus' : g.le u s' := g.trans hu hs'.2
  obtain ⟨hinv, hle, hG⟩ := h s' r t hs'.1 hus' ht
  exact ⟨fun _ => ⟨hinv, hle⟩, hinv, g.trans hus' hle, fun _ ha => Except.ok.inj ha ▸ hG⟩

lemma safe_update {f : σ → σ} {G : Unit → σ → Prop}
    (h : ∀ s, g.inv s → g.le u s → g.inv (f s) ∧ g.le s (f s) ∧ G () (f s)) :
    Safe g answer u (update f : Prog σ R ε Unit) G := by
  intro s hs hu
  obtain ⟨hinv, hle, hG⟩ := h s hs hu
  exact ⟨fun _ => ⟨hinv, hle⟩, hinv, g.trans hu hle, fun _ _ => hG⟩

/-! ### Runs -/

section Runs

variable {ι T O : Type} {M : Pool σ ι T O R ε}

/-- The answers of the pool's world. -/
def answers (M : Pool σ ι T O R ε) (e : E) (s : σ) (r : R e) (t : σ) : Prop :=
  ∃ o, M.answer e o s = some (r, t)

/-- Safe bodies make a safe pool. -/
def spec (g : Growth σ)
    (hevent : ∀ s l t, g.inv s → M.event s l = some t → g.inv t ∧ g.le s t)
    (hbody : ∀ i task s, g.inv s → Safe g (answers M) s (M.body i task) fun _ _ => True) :
    M.Spec where
  inv := g.inv
  context _ := g.context (answers M)
  fresh _ _ := True
  away _ _ := True
  rely_refl _ s hs := ⟨hs, g.refl s⟩
  rely_trans _ _ _ _ hst htu := ⟨htu.1, g.trans hst.2 htu.2⟩
  guar_refl _ s hs := ⟨hs, g.refl s⟩
  guar_trans _ _ _ _ hst htu hs := ⟨(htu (hst hs).1).1, g.trans (hst hs).2 (htu (hst hs).1).2⟩
  guar_inv _ _ _ hs hst := (hst hs).1
  guar_rely _ _ _ _ _ hs hst := hst hs
  event_inv s l t hs ht := (hevent s l t hs ht).1
  event_rely _ s l t hs ht := hevent s l t hs ht
  fresh_rely _ _ _ h _ := h
  away_rely _ _ _ h _ := h
  answer_of _ _ o _ _ _ h := ⟨o, h⟩
  body_safe i task s hs _ := wp_mono (fun _ _ _ => trivial) (hbody i task s hs s hs (g.refl s))

/-- The invariant holds in every run. -/
theorem inv_run (g : Growth σ)
    (hevent : ∀ s l t, g.inv s → M.event s l = some t → g.inv t ∧ g.le s t)
    (hbody : ∀ i task s, g.inv s → Safe g (answers M) s (M.body i task) fun _ _ => True)
    {u : σ} {moves : List (Move ι T O)} {t : Roster σ T R ε} (hu : g.inv u)
    (hrun : run M.step ⟨u, []⟩ moves = some t) : g.inv t.shared := by
  have hinit : (g.spec hevent hbody).Inv (⟨u, []⟩ : Roster σ T R ε) :=
    Pool.Spec.inv_init hu fun _ => trivial
  exact (Pool.Spec.safe_run hinit hrun).shared

end Runs

end Growth

end Async
