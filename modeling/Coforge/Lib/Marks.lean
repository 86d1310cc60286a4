import Coforge.Lib.Ascending
import Mathlib

/-!
# Marks above a frontier

What was marked one by one above a frontier, when only the `limit` greatest marks are kept. Marks
are `recorded` once and for all, and `evicted` by a recording that leaves too many of them: the
`surplus` of a set is what has `limit` elements above it. A mark that was evicted has the whole
limit above it from then on, unless the frontier moves.
-/

variable {α : Type*} [LinearOrder α]

/-! ### The surplus of a set -/

/-- The smallest elements of a set, beyond its `limit` greatest. -/
def Finset.surplus (limit : Nat) (s : Finset α) : Finset α :=
  s.filter fun n => limit ≤ (s.filter (n < ·)).card

namespace Finset

variable {limit : Nat} {s t : Finset α} {n : α}

lemma mem_surplus : n ∈ s.surplus limit ↔ n ∈ s ∧ limit ≤ (s.filter (n < ·)).card := mem_filter

/-- A set without its surplus is as large as the limit allows. -/
lemma card_sdiff_surplus (limit : Nat) (s : Finset α) :
    (s \ s.surplus limit).card = min limit s.card := by
  induction s using Finset.induction_on_min with
  | empty => simp
  | insert a s ha ih =>
    have hnot : a ∉ s := fun h => lt_irrefl a (ha a h)
    have habove : ∀ n ∈ insert a s, (insert a s).filter (n < ·) = s.filter (n < ·) := by
      intro n hn
      rw [filter_insert, if_neg]
      rcases mem_insert.mp hn with rfl | hn
      · exact lt_irrefl n
      · exact not_lt.mpr (ha n hn).le
    have hall : s.filter (a < ·) = s := filter_true_of_mem ha
    have hsurplus : (insert a s).surplus limit =
        if limit ≤ s.card then insert a (s.surplus limit) else s.surplus limit := by
      ext n
      rw [mem_surplus]
      split_ifs with hfull
      · rw [mem_insert, mem_insert, mem_surplus]
        constructor
        · rintro ⟨rfl | hn, hle⟩
          · exact Or.inl rfl
          · rw [habove n (mem_insert_of_mem hn)] at hle
            exact Or.inr ⟨hn, hle⟩
        · rintro (rfl | ⟨hn, hle⟩)
          · rw [habove n (mem_insert_self n s), hall]
            exact ⟨Or.inl rfl, hfull⟩
          · rw [habove n (mem_insert_of_mem hn)]
            exact ⟨Or.inr hn, hle⟩
      · rw [mem_insert, mem_surplus]
        constructor
        · rintro ⟨rfl | hn, hle⟩
          · rw [habove n (mem_insert_self n s), hall] at hle
            exact absurd hle hfull
          · rw [habove n (mem_insert_of_mem hn)] at hle
            exact ⟨hn, hle⟩
        · rintro ⟨hn, hle⟩
          rw [habove n (mem_insert_of_mem hn)]
          exact ⟨Or.inr hn, hle⟩
    have hsub : a ∉ s.surplus limit := fun h => hnot (mem_surplus.mp h).1
    rw [hsurplus, card_insert_of_notMem hnot]
    split_ifs with hfull
    · have hsdiff : insert a s \ insert a (s.surplus limit) = s \ s.surplus limit := by
        rw [insert_sdiff_of_mem s (mem_insert_self a _), sdiff_insert_of_notMem hnot]
      rw [hsdiff, ih]
      omega
    · rw [insert_sdiff_of_notMem s hsub, card_insert_of_notMem, ih]
      · omega
      · exact fun h => hnot (mem_sdiff.mp h).1

/-- What is kept above an element: as much as the limit allows. -/
lemma card_above_sdiff_surplus (limit : Nat) (s : Finset α) (n : α) :
    ((s \ s.surplus limit).filter (n < ·)).card = min limit (s.filter (n < ·)).card := by
  rw [← card_sdiff_surplus]
  congr 1
  ext k
  simp only [mem_filter, mem_sdiff, mem_surplus, not_and, not_le]
  have habove (hnk : n < k) : (s.filter (n < ·)).filter (k < ·) = s.filter (k < ·) := by
    rw [filter_filter]
    refine filter_congr fun m _ => ?_
    exact and_iff_right_of_imp hnk.trans
  constructor
  · rintro ⟨⟨hk, hkeep⟩, hnk⟩
    exact ⟨⟨hk, hnk⟩, fun _ => (habove hnk).symm ▸ hkeep hk⟩
  · rintro ⟨⟨hk, hnk⟩, hkeep⟩
    exact ⟨⟨hk, fun _ => habove hnk ▸ hkeep ⟨hk, hnk⟩⟩, hnk⟩

/-- Cut to its last elements, an ascending list loses its surplus. -/
lemma toFinset_sliceLast {xs : List α} (h : xs.Pairwise (· < ·)) (limit : Nat) :
    (History.sliceLast limit xs).toFinset = xs.toFinset \ xs.toFinset.surplus limit := by
  ext n
  have hcard : (xs.toFinset.filter (n < ·)).card = (xs.filter fun k => n < k).length := by
    have hfilter : xs.toFinset.filter (n < ·) = (xs.filter fun k => n < k).toFinset := by
      ext k
      simp
    rw [hfilter, List.toFinset_card_of_nodup]
    exact (h.imp fun h => h.ne).filter _
  rw [List.mem_toFinset, Ascending.mem_sliceLast h, mem_sdiff, mem_surplus, hcard,
    List.mem_toFinset]
  simp +contextual

end Finset

/-! ### Marks -/

structure Marks (α : Type*) where
  frontier : α
  recorded : Finset α
  evicted : Finset α

namespace Marks

open Finset

variable {limit : Nat} {m : Marks α} {ns : Finset α} {n k : α}

/-- The marks above the frontier that were not evicted. -/
def held (m : Marks α) : Finset α := (m.recorded \ m.evicted).filter (m.frontier < ·)

/-- The held marks with new ones, before any of them is evicted. -/
def live (m : Marks α) (ns : Finset α) : Finset α := m.held ∪ ns.filter (m.frontier < ·)

def advance (m : Marks α) (n : α) : Marks α := { m with frontier := max m.frontier n }

def record (limit : Nat) (m : Marks α) (ns : Finset α) : Marks α :=
  { m with
    recorded := m.recorded ∪ ns
    evicted := (m.evicted \ ns) ∪ (m.live ns).surplus limit }

lemma mem_held : n ∈ m.held ↔ (n ∈ m.recorded ∧ n ∉ m.evicted) ∧ m.frontier < n := by
  rw [held, mem_filter, mem_sdiff]

lemma mem_live : n ∈ m.live ns ↔ (n ∈ m.held ∨ n ∈ ns) ∧ m.frontier < n := by
  rw [live, mem_union, mem_filter]
  constructor
  · rintro (hn | hn)
    · exact ⟨Or.inl hn, (mem_held.mp hn).2⟩
    · exact ⟨Or.inr hn.1, hn.2⟩
  · rintro ⟨hn | hn, hlt⟩
    · exact Or.inl hn
    · exact Or.inr ⟨hn, hlt⟩

lemma held_advance : (m.advance n).held = m.held.filter (n < ·) := by
  ext k
  simp [held, advance, and_assoc]

/-- A recording keeps the greatest of the live marks. -/
lemma held_record : (m.record limit ns).held = m.live ns \ (m.live ns).surplus limit := by
  ext k
  rw [mem_held, mem_sdiff, mem_live]
  simp only [record, mem_union, mem_sdiff, mem_held]
  tauto

/-- A mark that has the limit of held marks above it. -/
def Beyond (limit : Nat) (m : Marks α) (n : α) : Prop := limit ≤ (m.held.filter (n < ·)).card

lemma Beyond.record (h : Beyond limit m n) : Beyond limit (m.record limit ns) n := by
  rw [Beyond, held_record, card_above_sdiff_surplus]
  refine le_min (le_refl _) (le_trans h (card_le_card ?_))
  exact filter_subset_filter _ subset_union_left

lemma beyond_of_evicted (hnew : n ∈ (m.record limit ns).evicted) (hold : n ∉ m.evicted) :
    Beyond limit (m.record limit ns) n := by
  have hsurplus : n ∈ (m.live ns).surplus limit := by
    rcases mem_union.mp hnew with h | h
    · exact absurd (mem_sdiff.mp h).1 hold
    · exact h
  rw [Beyond, held_record, card_above_sdiff_surplus]
  exact le_min (le_refl _) (mem_surplus.mp hsurplus).2

/-- Where no more than the limit is held, the held marks are all above one that was evicted. -/
lemma Beyond.lt (h : Beyond limit m n) (hcard : m.held.card ≤ limit) (hk : k ∈ m.held) : n < k := by
  have hall : m.held.filter (n < ·) = m.held :=
    eq_of_subset_of_card_le (filter_subset _ _) (le_trans hcard h)
  exact (mem_filter.mp (hall.symm ▸ hk)).2

end Marks
