import Mathlib

/-!
# Bounded histories

A history of at most `cap` entries drops its oldest ones when new ones are added. `Carries` says
what an entry can count on meanwhile: until it is among the `cap` newest no more it stays, and it
only changes along a relation `R`.
-/

namespace History

variable {α : Type*}

/-- The last `n` entries of a list. -/
def sliceLast (n : Nat) (xs : List α) : List α := xs.drop (xs.length - n)

lemma sliceLast_sublist (n : Nat) (xs : List α) : List.Sublist (sliceLast n xs) xs :=
  List.drop_sublist _ xs

lemma length_sliceLast_le (n : Nat) (xs : List α) : (sliceLast n xs).length ≤ n := by
  rw [sliceLast, List.length_drop]
  omega

/-- A short list is all of its last entries. -/
lemma sliceLast_eq_self {n : Nat} {xs : List α} (h : xs.length ≤ n) : sliceLast n xs = xs := by
  rw [sliceLast, Nat.sub_eq_zero_of_le h, List.drop_zero]

/-- The last entries are those of the second part, and what room they leave is for the first. -/
lemma sliceLast_append {n : Nat} (xs : List α) {ys : List α} (h : ys.length ≤ n) :
    sliceLast n (xs ++ ys) = sliceLast (n - ys.length) xs ++ ys := by
  have hle : (xs ++ ys).length - n ≤ xs.length := by
    rw [List.length_append]
    omega
  have hcut : (xs ++ ys).length - n = xs.length - (n - ys.length) := by
    rw [List.length_append]
    omega
  rw [sliceLast, List.drop_append_of_le_length hle, hcut, sliceLast]

lemma sliceLast_cons (k : Nat) (x : α) (xs : List α) :
    sliceLast k (x :: xs) = if xs.length < k then x :: xs else sliceLast k xs := by
  rw [sliceLast, List.length_cons]
  split_ifs with h
  · rw [show xs.length + 1 - k = 0 by omega, List.drop_zero]
  · rw [show xs.length + 1 - k = xs.length - k + 1 by omega, List.drop_succ_cons, sliceLast]

/-- An entry with few enough behind it is still there. -/
lemma sliceLast_split {n : Nat} (pre : List α) (x : α) {post : List α} (h : post.length < n) :
    ∃ pre', sliceLast n (pre ++ x :: post) = pre' ++ x :: post := by
  refine ⟨pre.drop ((pre ++ x :: post).length - n), ?_⟩
  have hle : (pre ++ x :: post).length - n ≤ pre.length := by
    rw [List.length_append, List.length_cons]
    omega
  rw [sliceLast, List.drop_append_of_le_length hle]

/-- While `n` entries are added to a history, what has fewer than `cap` entries behind it at the
end is still in it, and has changed along `R`. -/
def Carries (cap : Nat) (R : α → α → Prop) (n : Nat) (xs ys : List α) : Prop :=
  ∀ pre x post, xs = pre ++ x :: post → post.length + n < cap →
    ∃ pre' y post', ys = pre' ++ y :: post' ∧ post'.length ≤ post.length + n ∧ R x y

section Carries

variable {cap n m : Nat} {R : α → α → Prop} {xs ys zs : List α}

lemma Carries.refl (hrefl : ∀ x, R x x) (n : Nat) (xs : List α) : Carries cap R n xs xs :=
  fun pre x post hxs _ => ⟨pre, x, post, hxs, Nat.le_add_right _ _, hrefl x⟩

lemma Carries.trans (htrans : ∀ x y z, R x y → R y z → R x z) (hxy : Carries cap R n xs ys)
    (hyz : Carries cap R m ys zs) : Carries cap R (n + m) xs zs := by
  intro pre x post hxs hlt
  obtain ⟨pre', y, post', hys, hle, hxy⟩ := hxy pre x post hxs (by omega)
  obtain ⟨pre'', z, post'', hzs, hle', hyz⟩ := hyz pre' y post' hys (by omega)
  exact ⟨pre'', z, post'', hzs, by omega, htrans x y z hxy hyz⟩

lemma Carries.mono (hnm : n ≤ m) (h : Carries cap R n xs ys) : Carries cap R m xs ys := by
  intro pre x post hxs hlt
  obtain ⟨pre', y, post', hys, hle, hxy⟩ := h pre x post hxs (by omega)
  exact ⟨pre', y, post', hys, by omega, hxy⟩

/-- Entries are edited in place. -/
lemma carries_map {f : α → α} (h : ∀ x ∈ xs, R x (f x)) : Carries cap R 0 xs (xs.map f) := by
  rintro pre x post rfl -
  refine ⟨pre.map f, f x, post.map f, by simp, by simp, h x (by simp)⟩

/-- One entry is added, and the oldest one gives way. -/
lemma carries_push (hrefl : ∀ x, R x x) (x : α) :
    Carries cap R 1 xs (sliceLast cap (xs ++ [x])) := by
  rintro pre y post rfl hlt
  have hpost : (post ++ [x]).length < cap := by simpa using hlt
  obtain ⟨pre', hslice⟩ := sliceLast_split pre y hpost
  refine ⟨pre', y, post ++ [x], ?_, by simp, hrefl y⟩
  rw [← hslice]
  simp

end Carries

end History
