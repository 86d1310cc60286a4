import Mathlib

/-!
# Runs of a partial step function

A system is a function `step : σ → ι → Option σ`: a label that is not enabled in a state has no
successor. Every choice of the environment is part of the label, so a run is determined by its
first state and its labels, and an interleaving is a list of labels.

`Permitted` restricts a run to steps that meet a condition on the label and the state the step
is taken from. The two rules of the module carry an invariant, and a relation to the first
state, along the permitted runs.
-/

namespace Transition

open Option

variable {σ ι : Type*} {step : σ → ι → Option σ}

/-- The state a list of labels leads to, if each of them is enabled when its turn comes. -/
def run (step : σ → ι → Option σ) : σ → List ι → Option σ
  | s, []      => some s
  | s, l :: ls => (step s l).bind fun t => run step t ls

@[simp] lemma run_nil (s : σ) : run step s [] = some s := rfl

@[simp] lemma run_cons (s : σ) (l : ι) (ls : List ι) :
    run step s (l :: ls) = (step s l).bind fun t => run step t ls := rfl

lemma run_cons_eq_some {s u : σ} {l : ι} {ls : List ι} :
    run step s (l :: ls) = some u ↔ ∃ t, step s l = some t ∧ run step t ls = some u := by
  simp [bind_eq_some_iff]

lemma run_append (s : σ) (ls ks : List ι) :
    run step s (ls ++ ks) = (run step s ls).bind fun t => run step t ks := by
  induction ls generalizing s with
  | nil => rfl
  | cons l ls ih =>
    simp only [List.cons_append, run_cons]
    cases step s l <;> simp [ih]

lemma run_append_eq_some {s u : σ} {ls ks : List ι} :
    run step s (ls ++ ks) = some u ↔ ∃ t, run step s ls = some t ∧ run step t ks = some u := by
  simp [run_append, bind_eq_some_iff]

/-- Every step of the run is taken from a state that permits it. -/
def Permitted (step : σ → ι → Option σ) (ok : σ → ι → Prop) : σ → List ι → Prop
  | _, []      => True
  | s, l :: ls => ok s l ∧ ∀ t, step s l = some t → Permitted step ok t ls

instance instDecidablePermitted {ok : σ → ι → Prop} [∀ s l, Decidable (ok s l)] :
    ∀ (s : σ) (ls : List ι), Decidable (Permitted step ok s ls)
  | _, []      => isTrue trivial
  | s, l :: ls =>
    match h : step s l with
    | none   => decidable_of_iff (ok s l) (by simp [Permitted, h])
    | some t =>
      have : Decidable (Permitted step ok t ls) := instDecidablePermitted t ls
      decidable_of_iff (ok s l ∧ Permitted step ok t ls) (by simp [Permitted, h])

lemma permitted_append {ok : σ → ι → Prop} {s : σ} {ls ks : List ι} :
    Permitted step ok s (ls ++ ks) ↔
      Permitted step ok s ls ∧ ∀ t, run step s ls = some t → Permitted step ok t ks := by
  induction ls generalizing s with
  | nil => simp [Permitted]
  | cons l ls ih =>
    simp only [List.cons_append, Permitted, ih, run_cons_eq_some]
    constructor
    · rintro ⟨hl, h⟩
      exact ⟨⟨hl, fun t ht => (h t ht).1⟩, fun u ⟨t, ht, hu⟩ => (h t ht).2 u hu⟩
    · rintro ⟨⟨hl, h⟩, h'⟩
      exact ⟨hl, fun t ht => ⟨h t ht, fun u hu => h' u ⟨t, ht, hu⟩⟩⟩

lemma permitted_of_forall {ok : σ → ι → Prop} (h : ∀ s l, ok s l) (s : σ) (ls : List ι) :
    Permitted step ok s ls := by
  induction ls generalizing s with
  | nil => trivial
  | cons l ls ih => exact ⟨h s l, fun t _ => ih t⟩

lemma permitted_of_mem {ok : ι → Prop} {ls : List ι} (h : ∀ l ∈ ls, ok l) (s : σ) :
    Permitted step (fun _ => ok) s ls := by
  induction ls generalizing s with
  | nil => trivial
  | cons l ls ih =>
    exact ⟨h l List.mem_cons_self, fun t _ => ih (fun k hk => h k (List.mem_cons_of_mem l hk)) t⟩

lemma Permitted.mono {ok ok' : σ → ι → Prop} (hle : ∀ s l, ok s l → ok' s l) {s : σ}
    {ls : List ι} (h : Permitted step ok s ls) : Permitted step ok' s ls := by
  induction ls generalizing s with
  | nil => trivial
  | cons l ls ih => exact ⟨hle s l h.1, fun t ht => ih (h.2 t ht)⟩

/-- A condition that keeps an invariant implies what follows from it where the invariant holds. -/
lemma Permitted.imp {ok ok' : σ → ι → Prop} {Inv : σ → Prop}
    (hstep : ∀ s l t, Inv s → ok s l → step s l = some t → Inv t)
    (himp : ∀ s l, Inv s → ok s l → ok' s l) {s : σ} {ls : List ι} (hs : Inv s)
    (h : Permitted step ok s ls) : Permitted step ok' s ls := by
  induction ls generalizing s with
  | nil => trivial
  | cons l ls ih =>
    exact ⟨himp s l hs h.1, fun t ht => ih (hstep s l t hs h.1 ht) (h.2 t ht)⟩

/-- Along a run that `within` permits, two conditions that agree wherever an invariant holds and
`within` does permit the same. -/
lemma permitted_iff_within {within ok ok' : σ → ι → Prop} {Inv : σ → Prop}
    (hstep : ∀ s l t, Inv s → step s l = some t → Inv t)
    (hiff : ∀ s l, Inv s → within s l → (ok s l ↔ ok' s l)) {s : σ} {ls : List ι} (hs : Inv s)
    (hwithin : Permitted step within s ls) : Permitted step ok s ls ↔ Permitted step ok' s ls := by
  induction ls generalizing s with
  | nil => exact Iff.rfl
  | cons l ls ih =>
    exact and_congr (hiff s l hs hwithin.1)
      (forall₂_congr fun t ht => ih (hstep s l t hs ht) (hwithin.2 t ht))

/-- Two conditions that agree wherever an invariant holds permit the same runs from there. -/
lemma permitted_iff {ok ok' : σ → ι → Prop} {Inv : σ → Prop}
    (hstep : ∀ s l t, Inv s → step s l = some t → Inv t)
    (hiff : ∀ s l, Inv s → (ok s l ↔ ok' s l)) {s : σ} (hs : Inv s) (ls : List ι) :
    Permitted step ok s ls ↔ Permitted step ok' s ls :=
  permitted_iff_within hstep (fun s l hs _ => hiff s l hs) hs (permitted_of_forall (fun _ _ => trivial) s ls)

/-- What one permitted step preserves, a permitted run preserves. -/
theorem invariant {ok : σ → ι → Prop} {Inv : σ → Prop}
    (hstep : ∀ s l t, Inv s → ok s l → step s l = some t → Inv t) {s t : σ} {ls : List ι}
    (hs : Inv s) (hok : Permitted step ok s ls) (hrun : run step s ls = some t) : Inv t := by
  induction ls generalizing s with
  | nil => exact some.inj hrun ▸ hs
  | cons l ls ih =>
    obtain ⟨u, hu, hrest⟩ := run_cons_eq_some.mp hrun
    exact ih (hstep s l u hs hok.1 hu) (hok.2 u hu) hrest

/-- Where a step that is not permitted ruins the state for good, a run is permitted and leads to a
good state, or is not and leads to a ruined one. -/
theorem permitted_or_ruined {ok : σ → ι → Prop} {Good Ruined : σ → Prop}
    (hgood : ∀ s l t, Good s → step s l = some t → ok s l ∧ Good t ∨ ¬ok s l ∧ Ruined t)
    (hruined : ∀ s l t, Ruined s → step s l = some t → Ruined t) {s t : σ} {ls : List ι}
    (hs : Good s) (hrun : run step s ls = some t) :
    Permitted step ok s ls ∧ Good t ∨ ¬Permitted step ok s ls ∧ Ruined t := by
  have hstays : ∀ {ls s}, Ruined s → run step s ls = some t → Ruined t := by
    intro ls
    induction ls with
    | nil => exact fun hs hrun => some.inj hrun ▸ hs
    | cons l ls ih =>
      intro s hs hrun
      obtain ⟨u, hu, hrest⟩ := run_cons_eq_some.mp hrun
      exact ih (hruined s l u hs hu) hrest
  induction ls generalizing s with
  | nil => exact .inl ⟨trivial, some.inj hrun ▸ hs⟩
  | cons l ls ih =>
    obtain ⟨u, hu, hrest⟩ := run_cons_eq_some.mp hrun
    rcases hgood s l u hs hu with ⟨hok, hu'⟩ | ⟨hbad, hu'⟩
    · refine (ih hu' hrest).imp (And.imp_left fun h => ⟨hok, fun v hv => ?_⟩)
        (And.imp_left fun h hp => h (hp.2 u hu))
      rw [hu] at hv
      exact some.inj hv ▸ h
    · exact .inr ⟨fun h => hbad h.1, hstays hu' hrest⟩

/-- Where a step from a good state meets a condition exactly if it does what is asked of it, and
then leaves a good state, every step of a run does what is asked exactly if the run is permitted. -/
theorem permitted_iff_each {ok : σ → ι → Prop} {Inv Good : σ → Prop} {Asked : σ → ι → σ → Prop}
    (hgood : ∀ s l t, Asked s l t → Good t)
    (hstep : ∀ s l t, Inv s → Good s → step s l = some t → Inv t ∧ (Asked s l t ↔ ok s l))
    {s t : σ} {ls : List ι} (hs : Inv s) (hs' : Good s) (hrun : run step s ls = some t) :
    Permitted step ok s ls ↔ ∀ as l bs u v, ls = as ++ l :: bs → run step s as = some u →
      step u l = some v → Asked u l v := by
  induction ls generalizing s with
  | nil => exact iff_of_true trivial fun as l bs u v heq => absurd heq (by simp)
  | cons l ls ih =>
    obtain ⟨u, hu, hrest⟩ := run_cons_eq_some.mp hrun
    obtain ⟨hinv, hiff⟩ := hstep s l u hs hs' hu
    constructor
    · rintro ⟨hok, hpermitted⟩ as k bs v w heq hv hw
      have hasked := hiff.mpr hok
      cases as with
      | nil =>
        obtain ⟨rfl, rfl⟩ := List.cons.inj heq
        obtain rfl : s = v := some.inj hv
        obtain rfl : u = w := some.inj (hu.symm.trans hw)
        exact hasked
      | cons a as =>
        obtain ⟨rfl, htail⟩ := List.cons.inj heq
        obtain ⟨x, hx, hxv⟩ := run_cons_eq_some.mp hv
        obtain rfl : u = x := some.inj (hu.symm.trans hx)
        exact (ih hinv (hgood s l u hasked) hrest).mp (hpermitted u hu) as k bs v w htail hxv hw
    · intro hall
      have hasked := hall [] l ls s u rfl rfl hu
      refine ⟨hiff.mp hasked, fun x hx => ?_⟩
      obtain rfl : u = x := some.inj (hu.symm.trans hx)
      refine (ih hinv (hgood s l u hasked) hrest).mpr fun as k bs v w heq hv hw => ?_
      exact hall (l :: as) k bs v w (congrArg (l :: ·) heq)
        (run_cons_eq_some.mpr ⟨u, hu, hv⟩) hw

/-- A reflexive and transitive relation that holds across each permitted step holds across the
run. The invariant is carried along for the steps to use. -/
theorem relation {ok : σ → ι → Prop} {Inv : σ → Prop} {Rel : σ → σ → Prop}
    (hrefl : ∀ s, Rel s s) (htrans : ∀ s t u, Rel s t → Rel t u → Rel s u)
    (hstep : ∀ s l t, Inv s → ok s l → step s l = some t → Inv t ∧ Rel s t) {s t : σ}
    {ls : List ι} (hs : Inv s) (hok : Permitted step ok s ls) (hrun : run step s ls = some t) :
    Rel s t := by
  induction ls generalizing s with
  | nil => exact some.inj hrun ▸ hrefl s
  | cons l ls ih =>
    obtain ⟨u, hu, hrest⟩ := run_cons_eq_some.mp hrun
    have ⟨hinv, hrel⟩ := hstep s l u hs hok.1 hu
    exact htrans s u t hrel (ih hinv (hok.2 u hu) hrest)

/-- A reflexive and transitive relation holds across each step of a run exactly if it holds from any
state of the run to any later one. -/
theorem permitted_iff_relation {Rel : σ → σ → Prop} (hrefl : ∀ s, Rel s s)
    (htrans : ∀ s t u, Rel s t → Rel t u → Rel s u) {s : σ} {ls : List ι} :
    Permitted step (fun s l => ∀ t, step s l = some t → Rel s t) s ls ↔
      ∀ as bs cs t u, ls = as ++ bs ++ cs → run step s as = some t → run step t bs = some u →
        Rel t u := by
  constructor
  · intro h as bs cs t u heq has hbs
    subst heq
    have hbetween := (permitted_append.mp (permitted_append.mp h).1).2 t has
    exact @relation _ _ _ _ (fun _ => True) _ hrefl htrans
      (fun s l t _ hok hstep => ⟨trivial, hok t hstep⟩) _ _ _ trivial hbetween hbs
  · intro h
    induction ls generalizing s with
    | nil => trivial
    | cons l ls ih =>
      refine ⟨fun t ht => ?_, fun t ht => ih fun as bs cs u v heq has hbs => ?_⟩
      · exact h [] [l] ls s t rfl rfl (run_cons_eq_some.mpr ⟨t, ht, rfl⟩)
      · refine h (l :: as) bs cs u v ?_ (run_cons_eq_some.mpr ⟨t, ht, has⟩) hbs
        rw [heq]
        rfl

end Transition
