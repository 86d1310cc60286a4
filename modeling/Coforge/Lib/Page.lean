import Mathlib

/-!
# Pages of an ordered list

A page is what an ordered list starts with. Whatever does not come after an element of the page is
in the page.
-/

namespace Page

variable {α : Type*} {r : α → α → Prop} {l : List α} {n : Nat} {x y : α}

/-- What a page's element does not come before is in the page. -/
lemma mem_take_of_not_rel (h : l.Pairwise r) (hx : x ∈ l) (hy : y ∈ l.take n) (hxy : ¬r y x) :
    x ∈ l.take n := by
  rw [← List.take_append_drop n l] at h hx
  rcases List.mem_append.mp hx with hx | hx
  · exact hx
  · exact absurd ((List.pairwise_append.mp h).2.2 y hy x hx) hxy

/-- A page that is not full is the whole list. -/
lemma take_eq_of_length_le (h : (l.take (n + 1)).length ≤ n) : l.take n = l := by
  rw [List.length_take] at h
  exact List.take_of_length_le (by omega)

/-- The page is a page of the rows that were read. -/
lemma take_take_succ : (l.take (n + 1)).take n = l.take n := by
  rw [List.take_take, Nat.min_eq_left (Nat.le_succ n)]

end Page
