import Mathlib

/-!
# The newest entries of a list

A query that orders rows by a time, newest first, and takes one row may return any row that no
other row is newer than. `newest` lists these rows.
-/

variable {α β : Type*} [LinearOrder β] {key : α → β} {l : List α}

/-- The entries that no entry is newer than. -/
def List.newest (key : α → β) (l : List α) : List α :=
  l.filter fun x => l.all fun y => key y ≤ key x

namespace List

lemma mem_newest {x : α} : x ∈ l.newest key ↔ x ∈ l ∧ ∀ y ∈ l, key y ≤ key x := by
  simp [newest]

@[simp] lemma newest_nil : ([] : List α).newest key = [] := rfl

/-- A list with an entry has a newest one. -/
lemma newest_eq_nil : l.newest key = [] ↔ l = [] := by
  constructor
  · intro hnone
    cases hmax : l.argmax key with
    | none   => exact argmax_eq_none.mp hmax
    | some x =>
      have hx : x ∈ l.newest key :=
        mem_newest.mpr ⟨argmax_mem hmax, fun y hy => le_of_mem_argmax hy hmax⟩
      rw [hnone] at hx
      exact absurd hx not_mem_nil
  · rintro rfl
    rfl

/-- Rewriting the entries in place keeps their order in time. -/
lemma newest_map {f : α → α} (hkey : ∀ x, key (f x) = key x) :
    (l.map f).newest key = (l.newest key).map f := by
  simp [newest, filter_map, Function.comp_def, hkey]

/-- Where one entry alone has a property, the newest entries have it exactly if all the others are
older. -/
lemma forall_newest_iff {P : α → Prop} {x : α} (hx : x ∈ l) (hPx : P x)
    (hone : ∀ y ∈ l, P y → y = x) : (∀ y ∈ l.newest key, P y) ↔ ∀ y ∈ l, ¬P y → key y < key x := by
  constructor
  · intro hall y hy hPy
    by_contra hle
    have hsome : l.newest key ≠ [] := mt newest_eq_nil.mp (ne_nil_of_mem hx)
    obtain ⟨z, hz⟩ := exists_mem_of_ne_nil _ hsome
    obtain ⟨hzl, hzmax⟩ := mem_newest.mp hz
    have hzx := hone z hzl (hall z hz)
    subst hzx
    refine hPy (hall y (mem_newest.mpr ⟨hy, fun w hw => ?_⟩))
    exact (hzmax w hw).trans (not_lt.mp hle)
  · intro hold y hy
    by_contra hPy
    obtain ⟨hyl, hymax⟩ := mem_newest.mp hy
    exact absurd (hymax x hx) (not_le.mpr (hold y hyl hPy))

end List
