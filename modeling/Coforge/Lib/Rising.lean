import Mathlib

/-!
# Folding what rises above a mark

Entries with keys are folded into a state that bears the mark of the newest entry in it; an entry
at or below the mark is left out. `rising` lists what is taken, the entries whose key is above the
mark and above every key before it, and `foldl_skip` says that the fold is the one of `rising`.
-/

namespace Rising

open List

variable {α β σ : Type*} [LinearOrder β] {key : α → β}

/-- The entries whose key is above the mark and above the keys of all entries before them. -/
def rising (key : α → β) : WithBot β → List α → List α
  | _, []         => []
  | mark, x :: xs => if key x ≤ mark then rising key mark xs else x :: rising key (key x) xs

lemma rising_cons (mark : WithBot β) (x : α) (xs : List α) : rising key mark (x :: xs) =
    if key x ≤ mark then rising key mark xs else x :: rising key (key x) xs := rfl

variable {xs : List α} {x : α}

lemma lt_of_mem_rising {mark : WithBot β} (h : x ∈ rising key mark xs) : mark < key x := by
  induction xs generalizing mark with
  | nil => cases h
  | cons y ys ih =>
    simp only [rising_cons] at h
    split_ifs at h with hy
    · exact ih h
    · rcases mem_cons.mp h with rfl | h
      · exact not_le.mp hy
      · exact (not_le.mp hy).trans (ih h)

lemma sublist_rising (mark : WithBot β) (xs : List α) : List.Sublist (rising key mark xs) xs := by
  induction xs generalizing mark with
  | nil => exact Sublist.refl _
  | cons x xs ih =>
    simp only [rising_cons]
    split_ifs with hx
    · exact (ih mark).cons x
    · exact (ih (key x)).cons_cons x

/-- What is taken is taken in ascending order. -/
lemma pairwise_rising (mark : WithBot β) (xs : List α) :
    (rising key mark xs).Pairwise fun x y => key x < key y := by
  induction xs generalizing mark with
  | nil => exact .nil
  | cons x xs ih =>
    simp only [rising_cons]
    split_ifs with hx
    · exact ih mark
    · refine .cons (fun y hy => ?_) (ih (key x))
      exact WithBot.coe_lt_coe.mp (lt_of_mem_rising hy)

/-- An entry is taken exactly if it stands somewhere behind entries that are all older. -/
lemma mem_rising {mark : WithBot β} : x ∈ rising key mark xs ↔ mark < key x ∧
      ∃ before after, xs = before ++ x :: after ∧ ∀ y ∈ before, key y < key x := by
  constructor
  · intro h
    refine ⟨lt_of_mem_rising h, ?_⟩
    induction xs generalizing mark with
    | nil => cases h
    | cons y ys ih =>
      simp only [rising_cons] at h
      by_cases hy : key y ≤ mark
      · rw [if_pos hy] at h
        obtain ⟨before, after, rfl, hbefore⟩ := ih h
        refine ⟨y :: before, after, rfl, fun z hz => ?_⟩
        rcases mem_cons.mp hz with rfl | hz
        · exact WithBot.coe_lt_coe.mp (hy.trans_lt (lt_of_mem_rising h))
        · exact hbefore z hz
      · rw [if_neg hy] at h
        rcases mem_cons.mp h with rfl | h
        · exact ⟨[], ys, rfl, by simp⟩
        · obtain ⟨before, after, rfl, hbefore⟩ := ih h
          refine ⟨y :: before, after, rfl, fun z hz => ?_⟩
          rcases mem_cons.mp hz with rfl | hz
          · exact WithBot.coe_lt_coe.mp (lt_of_mem_rising h)
          · exact hbefore z hz
  · rintro ⟨hmark, before, after, rfl, hbefore⟩
    induction before generalizing mark with
    | nil =>
      simp only [nil_append, rising_cons]
      rw [if_neg (not_le.mpr hmark)]
      exact mem_cons_self
    | cons y ys ih =>
      simp only [cons_append, rising_cons]
      have hrest := fun z hz => hbefore z (mem_cons_of_mem y hz)
      split_ifs with hy
      · exact ih hmark hrest
      · refine mem_cons_of_mem y (ih ?_ hrest)
        exact WithBot.coe_lt_coe.mpr (hbefore y mem_cons_self)

/-- A fold that leaves out what is at or below the mark is the fold of what rises above it. -/
theorem foldl_skip {mark : σ → WithBot β} {add step : σ → α → σ}
    (hskip : ∀ s x, key x ≤ mark s → step s x = s)
    (htake : ∀ s x, ¬ key x ≤ mark s → step s x = add s x)
    (hmark : ∀ s x, ¬ key x ≤ mark s → mark (add s x) = key x) (s : σ) (xs : List α) :
    xs.foldl step s = (rising key (mark s) xs).foldl add s := by
  induction xs generalizing s with
  | nil => rfl
  | cons x xs ih =>
    simp only [foldl_cons, rising_cons]
    split_ifs with hx
    · rw [hskip s x hx, ih]
    · rw [htake s x hx, ih, hmark s x hx, foldl_cons]

/-! ### Ascending lists -/

lemma eq_of_key (h : xs.Pairwise fun x y => key x < key y) {y : α} (hx : x ∈ xs)
    (hy : y ∈ xs) (heq : key x = key y) : x = y := by
  have hnodup : (xs.map key).Nodup := (pairwise_map.mpr h).imp fun hlt => hlt.ne
  exact inj_on_of_nodup_map hnodup hx hy heq

/-- An ascending list with some of the entries of another one is a part of it. -/
lemma sublist_of_subset {ys : List α} (hxs : xs.Pairwise fun x y => key x < key y)
    (hys : ys.Pairwise fun x y => key x < key y) (h : ∀ x ∈ xs, x ∈ ys) : List.Sublist xs ys := by
  induction ys generalizing xs with
  | nil =>
    rw [eq_nil_iff_forall_not_mem.mpr fun x hx => absurd (h x hx) not_mem_nil]
  | cons y ys ih =>
    obtain ⟨hy, hys'⟩ := pairwise_cons.mp hys
    cases xs with
    | nil => exact nil_sublist _
    | cons x xs =>
      obtain ⟨hx, hxs'⟩ := pairwise_cons.mp hxs
      rcases mem_cons.mp (h x mem_cons_self) with rfl | hxy
      · refine (ih hxs' hys' fun z hz => ?_).cons_cons x
        rcases mem_cons.mp (h z (mem_cons_of_mem x hz)) with rfl | hz'
        · exact absurd (hx z hz) (lt_irrefl _)
        · exact hz'
      · refine (ih hxs hys' fun z hz => ?_).cons y
        rcases mem_cons.mp (h z hz) with rfl | hz'
        · rcases mem_cons.mp hz with rfl | hz
          · exact hxy
          · exact absurd ((hx z hz).trans (hy x hxy)) (lt_irrefl _)
        · exact hz'

/-! ### Sorting by the key -/

lemma pairwise_insertionSort (xs : List α) :
    (xs.insertionSort fun x y => key x ≤ key y).Pairwise fun x y => key x ≤ key y := by
  have htotal : Std.Total fun x y : α => key x ≤ key y := ⟨fun x y => le_total (key x) (key y)⟩
  have htrans : IsTrans α fun x y => key x ≤ key y := ⟨fun _ _ _ => le_trans⟩
  exact List.pairwise_insertionSort _ xs

lemma insertionSort_reverse (h : xs.Pairwise fun x y => key x < key y) :
    (xs.reverse.insertionSort fun x y => key x ≤ key y) = xs := by
  have hperm : (xs.reverse.insertionSort fun x y => key x ≤ key y).Perm xs :=
    (perm_insertionSort _ _).trans (reverse_perm xs)
  refine hperm.eq_of_pairwise (fun x y hx hy hxy hyx => ?_) (pairwise_insertionSort _)
    (h.imp fun hlt => hlt.le)
  exact eq_of_key h (hperm.subset hx) hy (le_antisymm hxy hyx)

/-- The descending order of an ascending list. -/
lemma insertionSort_descending (h : xs.Pairwise fun x y => key x < key y) :
    (xs.insertionSort fun x y => key y ≤ key x) = xs.reverse := by
  have hperm : (xs.insertionSort fun x y => key y ≤ key x).Perm xs.reverse :=
    (perm_insertionSort _ _).trans (reverse_perm xs).symm
  have hsorted := @pairwise_insertionSort α βᵒᵈ _ (fun x => OrderDual.toDual (key x)) xs
  refine hperm.eq_of_pairwise (fun x y hx hy hxy hyx => ?_) hsorted
    (pairwise_reverse.mpr (h.imp fun hlt => hlt.le))
  exact eq_of_key h (mem_reverse.mp (hperm.subset hx)) (mem_reverse.mp hy)
    (le_antisymm hyx hxy)

end Rising
