import Mathlib

/-!
# Joins of tables

A table is the list of its rows. A query selects among the tuples of several tables and keeps a
column; a left join pairs a tuple with the rows that match it, or with none. Where a key of the
table lets at most one row match, a join finds that row.
-/

namespace Join

open List

variable {α β γ κ : Type*}

/-- The rows that match, or `none` alone where no row does. -/
def left (table : List α) (on : α → Bool) : List (Option α) :=
  match table.filter on with
  | [] => [none]
  | x :: xs => some x :: xs.map some

/-- At most one row matches. -/
def Single (table : List α) (on : α → Bool) : Prop :=
  ∀ x ∈ table, on x → ∀ y ∈ table, on y → x = y

/-! ### Keys -/

variable {table : List α}

lemma eq_of_key {key : α → κ} (hkey : (table.map key).Nodup) {x y : α}
    (hx : x ∈ table) (hy : y ∈ table) (h : key x = key y) : x = y :=
  inj_on_of_nodup_map hkey hx hy h

variable {on : α → Bool}

lemma single_of_key {key : α → κ} {k : κ}
    (hkey : (table.map key).Nodup) (hon : ∀ x ∈ table, on x → key x = k) : Single table on :=
  fun x hx honx y hy hony => eq_of_key hkey hx hy ((hon x hx honx).trans (hon y hy hony).symm)

lemma filter_of_single (hnodup : table.Nodup)
    (h : Single table on) : table.filter on = (table.find? on).toList := by
  induction table with
  | nil => rfl
  | cons x xs ih =>
    obtain ⟨hx, hnodup⟩ := nodup_cons.mp hnodup
    have hxs : Single xs on := fun y hy hony z hz honz =>
      h y (mem_cons_of_mem x hy) hony z (mem_cons_of_mem x hz) honz
    by_cases honx : on x
    · have hnone : xs.filter on = [] := by
        rw [filter_eq_nil_iff]
        intro y hy hony
        have heq := h x mem_cons_self honx y (mem_cons_of_mem x hy) hony
        exact hx (heq ▸ hy)
      rw [filter_cons_of_pos honx, find?_cons_of_pos honx, hnone]
      rfl
    · rw [filter_cons_of_neg honx, find?_cons_of_neg honx]
      exact ih hnodup hxs

lemma left_of_single (hnodup : table.Nodup)
    (h : Single table on) : left table on = [table.find? on] := by
  rw [left, filter_of_single hnodup h]
  cases table.find? on <;> rfl

lemma find?_eq_some_iff (h : Single table on) {x : α} :
    table.find? on = some x ↔ x ∈ table ∧ on x := by
  constructor
  · intro hfind
    exact ⟨mem_of_find?_eq_some hfind, find?_some hfind⟩
  · rintro ⟨hx, honx⟩
    cases hfind : table.find? on with
    | none => exact absurd honx (find?_eq_none.mp hfind x hx)
    | some y =>
      rw [h y (mem_of_find?_eq_some hfind) (find?_some hfind) x hx honx]

lemma any_find? {cond : α → Bool} (h : Single table on) :
    (table.find? on).any cond = table.any fun x => on x && cond x := by
  rw [Bool.eq_iff_iff, Option.any_eq_true, any_eq_true]
  constructor
  · rintro ⟨x, hx, hcond⟩
    obtain ⟨hx, hon⟩ := (find?_eq_some_iff h).mp hx
    exact ⟨x, hx, by rw [hon, hcond]; rfl⟩
  · rintro ⟨x, hx, hboth⟩
    obtain ⟨hon, hcond⟩ := Bool.and_eq_true_iff.mp hboth
    exact ⟨x, (find?_eq_some_iff h).mpr ⟨hx, hon⟩, hcond⟩

/-! ### Queries -/

/-- Each column value once, where it tells the tuples apart. -/
lemma nodup_select {tuples : List α} {cond : α → Bool} {column : α → β} (hnodup : tuples.Nodup)
    (h : ∀ x ∈ tuples, cond x → ∀ y ∈ tuples, cond y → column x = column y → x = y) :
    ((tuples.filter cond).map column).Nodup := by
  refine Nodup.map_on ?_ (hnodup.filter cond)
  intro x hx y hy hcolumn
  obtain ⟨hx, hcondx⟩ := mem_filter.mp hx
  obtain ⟨hy, hcondy⟩ := mem_filter.mp hy
  exact h x hx hcondx y hy hcondy hcolumn

/-- A query over a left join, where at most one row matches a tuple. -/
lemma select_left {tuples : List α} {table : List β} {on : α → β → Bool}
    {cond : α → Option β → Bool} {column : α → γ} (hnodup : table.Nodup)
    (h : ∀ x ∈ tuples, Single table (on x)) :
    (tuples.flatMap fun x => ((left table (on x)).filter (cond x)).map fun _ => column x) =
      (tuples.filter fun x => cond x (table.find? (on x))).map column := by
  induction tuples with
  | nil => rfl
  | cons x xs ih =>
    have hxs : ∀ y ∈ xs, Single table (on y) := fun y hy => h y (mem_cons_of_mem x hy)
    rw [flatMap_cons, ih hxs, left_of_single hnodup (h x mem_cons_self)]
    by_cases hcond : cond x (table.find? (on x))
    · simp [hcond]
    · simp [hcond]

end Join
