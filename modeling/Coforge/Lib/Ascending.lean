import Coforge.Lib.History
import Mathlib

/-!
# Ascending lists

A set of positions kept as an ascending list is searched by bisection and extended by a linear
merge. `partitionPoint` is the bisection: the number of elements in front of the first one that
fails a predicate which, along the list, fails for good once it fails. `mergeAbove` is the merge
of two ascending lists that keeps what lies above a bound, each value once.

The specifications say what a caller needs: the bisection finds the boundary, a lookup is
membership, and the merge is the union above the bound, strictly ascending.
-/

namespace Ascending

open List

variable {α : Type*}

/-! ### Bisection -/

/-- The search for the boundary between `low` and `high`. An interval gets shorter in each round,
so its length at the start is enough `fuel`. -/
def search (p : α → Bool) (xs : List α) : Nat → Nat → Nat → Nat
  | 0, low, _           => low
  | fuel + 1, low, high =>
    if low < high then
      let middle := (low + high) / 2
      if (xs[middle]?).any p then search p xs fuel (middle + 1) high
      else search p xs fuel low middle
    else low

def partitionPoint (p : α → Bool) (xs : List α) : Nat := search p xs xs.length 0 xs.length

/-- Once the predicate fails along the list, it fails for good. -/
def Splits (p : α → Bool) (xs : List α) : Prop := xs.Pairwise fun x y => p y → p x

variable {p : α → Bool}

lemma Splits.getElem {xs : List α} (h : Splits p xs) {i j : Nat} (hij : i ≤ j)
    (hj : j < xs.length) (hp : p (xs[j])) : p (xs[i]) := by
  rcases Nat.eq_or_lt_of_le hij with rfl | hlt
  · exact hp
  · exact pairwise_iff_getElem.mp h i j (by omega) hj hlt hp

lemma search_spec {xs : List α} (h : Splits p xs) :
    ∀ {fuel low high : Nat}, high - low ≤ fuel → low ≤ high → high ≤ xs.length →
      (∀ i (hi : i < xs.length), i < low → p (xs[i])) →
      (∀ i (hi : i < xs.length), high ≤ i → ¬ p (xs[i])) →
      (∀ i (hi : i < xs.length), p (xs[i]) ↔ i < search p xs fuel low high) ∧
        search p xs fuel low high ≤ xs.length
  | 0, low, high, hfuel, hle, hlen, hlow, hhigh => by
    have heq : low = high := by omega
    subst heq
    refine ⟨fun i hi => ⟨fun hp => ?_, fun hlt => hlow i hi hlt⟩, hlen⟩
    by_contra hge
    exact hhigh i hi (by simpa [search] using hge) hp
  | fuel + 1, low, high, hfuel, hle, hlen, hlow, hhigh => by
    simp only [search]
    split_ifs with hlt hp
    · have hmid : (low + high) / 2 < xs.length := by omega
      rw [getElem?_eq_getElem hmid] at hp
      refine search_spec h (by omega) (by omega) hlen ?_ hhigh
      intro i hi hlti
      exact h.getElem (Nat.le_of_lt_succ hlti) hmid (by simpa using hp)
    · have hmid : (low + high) / 2 < xs.length := by omega
      rw [getElem?_eq_getElem hmid] at hp
      refine search_spec h (by omega) (by omega) (by omega) hlow ?_
      intro i hi hge hpi
      exact hp (by simpa using h.getElem hge hi hpi)
    · have heq : low = high := by omega
      subst heq
      refine ⟨fun i hi => ⟨fun hp => ?_, fun hlt => hlow i hi hlt⟩, hlen⟩
      by_contra hge
      exact hhigh i hi (by omega) hp

/-- The elements in front of the partition point are those that meet the predicate. -/
lemma partitionPoint_spec {xs : List α} (h : Splits p xs) :
    (∀ i (hi : i < xs.length), p (xs[i]) ↔ i < partitionPoint p xs) ∧
      partitionPoint p xs ≤ xs.length :=
  search_spec h (by omega) (by omega) le_rfl (fun i hi hlt => absurd hlt (Nat.not_lt_zero i))
    fun i hi hge => absurd hi (by omega)

variable {x : α}

lemma mem_drop_partitionPoint {xs : List α} (h : Splits p xs) :
    x ∈ xs.drop (partitionPoint p xs) ↔ x ∈ xs ∧ ¬ p x := by
  obtain ⟨hspec, hle⟩ := partitionPoint_spec h
  constructor
  · intro hx
    obtain ⟨i, hi, rfl⟩ := mem_iff_getElem.mp hx
    rw [length_drop] at hi
    have hlt : partitionPoint p xs + i < xs.length := by omega
    rw [getElem_drop]
    refine ⟨getElem_mem hlt, fun hp => ?_⟩
    have := (hspec _ hlt).mp hp
    omega
  · rintro ⟨hx, hp⟩
    obtain ⟨i, hi, rfl⟩ := mem_iff_getElem.mp hx
    have hge : partitionPoint p xs ≤ i := by
      by_contra hlt
      exact hp ((hspec i hi).mpr (by omega))
    refine mem_iff_getElem.mpr ⟨i - partitionPoint p xs, ?_, ?_⟩
    · rw [length_drop]
      omega
    · simp only [getElem_drop, Nat.add_sub_cancel' hge]

/-! ### Lookup -/

variable [LinearOrder α]

/-- Whether an ascending list holds a value, by bisection. -/
def holds (xs : List α) (x : α) : Bool := xs[partitionPoint (fun y => y < x) xs]? = some x

/-- The part of an ascending list above a bound, by bisection. -/
def above (bound : α) (xs : List α) : List α := xs.drop (partitionPoint (fun y => y ≤ bound) xs)

lemma splits_lt {xs : List α} (h : xs.Pairwise (· < ·)) (x : α) :
    Splits (fun y => decide (y < x)) xs :=
  h.imp fun {a b} hab hb => by
    simp only [decide_eq_true_eq] at hb ⊢
    exact hab.trans hb

lemma splits_le {xs : List α} (h : xs.Pairwise (· < ·)) (x : α) :
    Splits (fun y => decide (y ≤ x)) xs :=
  h.imp fun {a b} hab hb => by
    simp only [decide_eq_true_eq] at hb ⊢
    exact hab.le.trans hb

theorem holds_iff {xs : List α} (h : xs.Pairwise (· < ·)) : holds xs x ↔ x ∈ xs := by
  obtain ⟨hspec, hle⟩ := partitionPoint_spec (splits_lt h x)
  simp only [holds, decide_eq_true_eq]
  constructor
  · exact mem_of_getElem?
  · intro hx
    obtain ⟨i, hi, rfl⟩ := mem_iff_getElem.mp hx
    -- everything before `i` is smaller, and the element at `i` is not
    have hge : partitionPoint (fun y => decide (y < xs[i])) xs ≤ i := by
      by_contra hlt
      simpa using (hspec i hi).mpr (by omega)
    have hle : i ≤ partitionPoint (fun y => decide (y < xs[i])) xs := by
      by_contra hlt
      have hpre := pairwise_iff_getElem.mp h (partitionPoint (fun y => decide (y < xs[i])) xs)
        i (by omega) hi (by omega)
      exact absurd ((hspec _ (by omega)).mp (decide_eq_true hpre)) (lt_irrefl _)
    rw [show partitionPoint (fun y => decide (y < xs[i])) xs = i from le_antisymm hge hle]
    exact getElem?_eq_getElem hi

@[simp] lemma mem_above {xs : List α} (h : xs.Pairwise (· < ·)) {bound : α} :
    x ∈ above bound xs ↔ x ∈ xs ∧ bound < x := by
  rw [above, mem_drop_partitionPoint (splits_le h bound)]
  simp

lemma pairwise_above {R : α → α → Prop} {xs : List α} (h : xs.Pairwise R) (bound : α) :
    (above bound xs).Pairwise R :=
  h.sublist (drop_sublist _ _)

/-! ### The greatest -/

/-- The last of an ascending list have few enough greater ones. -/
theorem mem_sliceLast {xs : List α} (h : xs.Pairwise (· < ·)) {k : Nat} :
    x ∈ History.sliceLast k xs ↔ x ∈ xs ∧ (xs.filter fun y => x < y).length < k := by
  induction xs with
  | nil => simp [History.sliceLast]
  | cons y ys ih =>
    obtain ⟨hy, hys⟩ := pairwise_cons.mp h
    have hall : (ys.filter fun z => y < z) = ys := filter_eq_self.mpr (by simpa using hy)
    have hsmall (hx : x ∈ ys) : ¬ x < y := not_lt.mpr (hy x hx).le
    rw [History.sliceLast_cons]
    by_cases hfull : ys.length < k
    · rw [if_pos hfull]
      refine (and_iff_left_of_imp fun hx => ?_).symm
      rcases mem_cons.mp hx with rfl | hx
      · rw [filter_cons_of_neg (by simp), hall]
        exact hfull
      · rw [filter_cons_of_neg (by simpa using hsmall hx)]
        exact lt_of_le_of_lt (length_filter_le _ _) hfull
    · rw [if_neg hfull, ih hys]
      constructor
      · rintro ⟨hx, hlt⟩
        rw [filter_cons_of_neg (by simpa using hsmall hx)]
        exact ⟨mem_cons_of_mem y hx, hlt⟩
      · rintro ⟨hx, hlt⟩
        rcases mem_cons.mp hx with rfl | hx
        · rw [filter_cons_of_neg (by simp), hall] at hlt
          exact absurd hlt hfull
        · rw [filter_cons_of_neg (by simpa using hsmall hx)] at hlt
          exact ⟨hx, hlt⟩

/-! ### Merge -/

/-- The merge of a list that begins with `x` and goes on as `rest` merges it. -/
def weaveCons (x : α) (rest : List α → List α) : List α → List α
  | []      => x :: rest []
  | y :: ys => if x ≤ y then x :: rest (y :: ys) else y :: weaveCons x rest ys

/-- Two lists in one pass, the smaller head first and the left one at a tie. -/
def weave : List α → List α → List α
  | [], ys      => ys
  | x :: xs, ys => weaveCons x (weave xs) ys

lemma weave_eq_merge (xs ys : List α) : weave xs ys = xs.merge ys := by
  induction xs generalizing ys with
  | nil => simp [weave]
  | cons x xs ih =>
    simp only [weave]
    induction ys with
    | nil => simp [weaveCons, ih]
    | cons y ys ihy =>
      simp only [weaveCons, cons_merge_cons, decide_eq_true_eq, ih, ihy]

lemma mem_weave {xs ys : List α} : x ∈ weave xs ys ↔ x ∈ xs ∨ x ∈ ys := by
  rw [weave_eq_merge, mem_merge]

lemma pairwise_weave {xs ys : List α} (hxs : xs.Pairwise (· ≤ ·)) (hys : ys.Pairwise (· ≤ ·)) :
    (weave xs ys).Pairwise (· ≤ ·) := by
  rw [weave_eq_merge]
  have := @List.pairwise_merge _ (fun a b : α => decide (a ≤ b))
    (by simpa using fun a b c : α => le_trans) (by simpa using le_total) xs ys
    (by simpa using hxs) (by simpa using hys)
  simpa using this

/-- A value is added unless it is at or below the bound, or the one added last. -/
def keep (bound : α) (merged : List α) (x : α) : List α :=
  if bound < x ∧ merged.getLast? ≠ some x then merged ++ [x] else merged

def mergeAbove (bound : α) (xs ys : List α) : List α := (weave xs ys).foldl (keep bound) []

lemma foldl_keep_spec {bound : α} {xs : List α} (hxs : xs.Pairwise (· ≤ ·)) :
    ∀ {merged : List α}, merged.Pairwise (· < ·) → (∀ x ∈ merged, ∀ y ∈ xs, x ≤ y) →
      (xs.foldl (keep bound) merged).Pairwise (· < ·) ∧
        ∀ x, x ∈ xs.foldl (keep bound) merged ↔ x ∈ merged ∨ x ∈ xs ∧ bound < x := by
  induction xs with
  | nil => simp
  | cons y ys ih =>
    intro merged hmerged hle
    obtain ⟨hy, hys⟩ := pairwise_cons.mp hxs
    simp only [foldl_cons, mem_cons]
    by_cases hkeep : bound < y ∧ merged.getLast? ≠ some y
    · rw [keep, if_pos hkeep]
      have hlt : ∀ x ∈ merged, x < y := by
        intro x hx
        refine lt_of_le_of_ne (hle x hx y mem_cons_self) ?_
        rintro rfl
        -- the largest value of an ascending list is its last one
        obtain rfl | ⟨pre, z, rfl⟩ := eq_nil_or_concat' merged
        · exact nomatch hx
        have hz : z ≠ x := by simpa using hkeep.2
        have hzx : z ≤ x := hle z (by simp) x mem_cons_self
        rcases mem_append.mp hx with hpre | hlast
        · have := pairwise_append.mp hmerged
          exact absurd (this.2.2 x hpre z (by simp)) (not_lt.mpr hzx)
        · exact hz (mem_singleton.mp hlast).symm
      have happend : (merged ++ [y]).Pairwise (· < ·) := by
        refine pairwise_append.mpr ⟨hmerged, pairwise_singleton _ _, ?_⟩
        intro x hx z hz
        rw [mem_singleton.mp hz]
        exact hlt x hx
      obtain ⟨hpw, hmem⟩ := ih hys happend (by
        intro x hx z hz
        rcases mem_append.mp hx with hx | hx
        · exact hle x hx z (mem_cons_of_mem _ hz)
        · rw [mem_singleton.mp hx]
          exact hy z hz)
      refine ⟨hpw, fun x => ?_⟩
      rw [hmem, mem_append, mem_singleton]
      constructor
      · rintro ((hx | rfl) | hx)
        · exact Or.inl hx
        · exact Or.inr ⟨Or.inl rfl, hkeep.1⟩
        · exact Or.inr ⟨Or.inr hx.1, hx.2⟩
      · rintro (hx | ⟨rfl | hx, hlt⟩)
        · exact Or.inl (Or.inl hx)
        · exact Or.inl (Or.inr rfl)
        · exact Or.inr ⟨hx, hlt⟩
    · rw [keep, if_neg hkeep]
      obtain ⟨hpw, hmem⟩ := ih hys hmerged fun x hx z hz => hle x hx z (mem_cons_of_mem _ hz)
      refine ⟨hpw, fun x => ?_⟩
      rw [hmem]
      constructor
      · rintro (hx | hx)
        · exact Or.inl hx
        · exact Or.inr ⟨Or.inr hx.1, hx.2⟩
      · rintro (hx | ⟨rfl | hx, hlt⟩)
        · exact Or.inl hx
        · have hlast : merged.getLast? = some x := by
            by_contra hne
            exact hkeep ⟨hlt, hne⟩
          exact Or.inl (mem_of_getLast? hlast)
        · exact Or.inr ⟨hx, hlt⟩

section Merged

variable {xs ys : List α}

theorem pairwise_mergeAbove (bound : α) (hxs : xs.Pairwise (· ≤ ·)) (hys : ys.Pairwise (· ≤ ·)) :
    (mergeAbove bound xs ys).Pairwise (· < ·) :=
  (foldl_keep_spec (pairwise_weave hxs hys) Pairwise.nil (by simp)).1

theorem mem_mergeAbove {bound x : α} (hxs : xs.Pairwise (· ≤ ·)) (hys : ys.Pairwise (· ≤ ·)) :
    x ∈ mergeAbove bound xs ys ↔ (x ∈ xs ∨ x ∈ ys) ∧ bound < x := by
  have h := (@foldl_keep_spec _ _ bound _ (pairwise_weave hxs hys) _ Pairwise.nil
    (by simp)).2 x
  rw [mergeAbove, h, mem_weave]
  simp

/-- A list without repetitions ascends strictly once it is sorted. -/
lemma pairwise_mergeSort (h : xs.Nodup) :
    (xs.mergeSort fun a b => decide (a ≤ b)).Pairwise (· < ·) := by
  have hsorted : (xs.mergeSort fun a b => decide (a ≤ b)).Pairwise (· ≤ ·) := by
    have h := @List.pairwise_mergeSort _ (fun a b : α => decide (a ≤ b))
      (by simpa using fun a b c : α => le_trans) (by simpa using le_total) xs
    simpa using h
  have hnodup := (mergeSort_perm xs fun a b => decide (a ≤ b)).nodup_iff.mpr h
  exact (hsorted.and hnodup).imp fun h => lt_of_le_of_ne h.1 h.2

/-- The merge is what sorting the values above the bound gives, each of them once. -/
theorem mergeAbove_eq_mergeSort (bound : α) (hxs : xs.Pairwise (· ≤ ·))
    (hys : ys.Pairwise (· ≤ ·)) : mergeAbove bound xs ys =
      (((xs ++ ys).filter fun x => bound < x).dedup.mergeSort fun a b => decide (a ≤ b)) := by
  refine (pairwise_mergeAbove bound hxs hys).eq_of_mem_iff
    (pairwise_mergeSort (nodup_dedup _)) fun x => ?_
  rw [mem_mergeAbove hxs hys, mem_mergeSort, mem_dedup, mem_filter, mem_append, decide_eq_true_eq]

end Merged

end Ascending
