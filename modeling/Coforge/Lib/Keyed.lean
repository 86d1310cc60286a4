import Mathlib

/-!
# Lists of entries found by a key

A table is a list of entries, each of which carries its key. `find` is the first entry with a
key, `put` replaces that entry or appends a new one, `drop` removes the entries with a key, and
`latest` keeps the last entry of each key. Keys that are made of a word and a number differ with the
number (`numbered_injective`).
-/

namespace Keyed

open List

variable {α κ : Type*} [DecidableEq κ] {key : α → κ}

def find (key : α → κ) (k : κ) (xs : List α) : Option α := xs.find? fun x => key x = k

def put (key : α → κ) (x : α) : List α → List α
  | []      => [x]
  | y :: ys => if key y = key x then x :: ys else y :: put key x ys

def drop (key : α → κ) (k : κ) (xs : List α) : List α := xs.filter fun x => key x ≠ k

def latest (key : α → κ) : List α → List α
  | []      => []
  | x :: xs => if key x ∈ xs.map key then latest key xs else x :: latest key xs

lemma put_nil (x : α) : put key x [] = [x] := rfl

lemma put_cons (x y : α) (ys : List α) :
    put key x (y :: ys) = if key y = key x then x :: ys else y :: put key x ys := rfl

lemma latest_cons (x : α) (xs : List α) : latest key (x :: xs) =
    if key x ∈ xs.map key then latest key xs else x :: latest key xs := rfl

/-! ### Lookup -/

@[simp] lemma find_nil (k : κ) : find key k [] = none := rfl

lemma find_cons (x : α) (xs : List α) (k : κ) :
    find key k (x :: xs) = if key x = k then some x else find key k xs := by
  simp only [find, find?_cons]
  by_cases h : key x = k <;> simp [h]

variable {xs : List α} {k : κ} {x : α}

lemma key_of_find (h : find key k xs = some x) : key x = k := by
  simpa using find?_some h

lemma mem_of_find (h : find key k xs = some x) : x ∈ xs :=
  mem_of_find?_eq_some h

lemma find_eq_none : find key k xs = none ↔ ∀ x ∈ xs, key x ≠ k := by
  simp [find]

lemma isSome_find : (find key k xs).isSome ↔ k ∈ xs.map key := by
  rw [← Option.ne_none_iff_isSome, Ne, find_eq_none, mem_map]
  push Not
  rfl

lemma find_put (x : α) (xs : List α) (k : κ) :
    find key k (put key x xs) = if key x = k then some x else find key k xs := by
  induction xs with
  | nil => simp [put_nil, find_cons]
  | cons y ys ih =>
    rw [put_cons]
    split_ifs with hyx hxk hxk
    · rw [find_cons, if_pos hxk]
    · rw [find_cons, find_cons, if_neg hxk, if_neg (hyx ▸ hxk)]
    · have hyk : key y ≠ k := fun h => hyx (h.trans hxk.symm)
      rw [find_cons, if_neg hyk, ih, if_pos hxk]
    · rw [find_cons, find_cons, ih, if_neg hxk]

lemma drop_cons (x : α) (xs : List α) (k : κ) :
    drop key k (x :: xs) = if key x = k then drop key k xs else x :: drop key k xs := by
  by_cases h : key x = k <;> simp [drop, h]

lemma find_drop (xs : List α) (k' k : κ) :
    find key k (drop key k' xs) = if k = k' then none else find key k xs := by
  induction xs with
  | nil => simp [drop]
  | cons y ys ih =>
    rw [drop_cons]
    by_cases hy : key y = k'
    · rw [if_pos hy, ih, find_cons]
      by_cases hk : k = k'
      · rw [if_pos hk, if_pos hk]
      · have hyk : key y ≠ k := fun h => hk (h ▸ hy)
        rw [if_neg hk, if_neg hk, if_neg hyk]
    · rw [if_neg hy, find_cons, find_cons, ih]
      by_cases hk : k = k'
      · have hyk : key y ≠ k := fun h => hy (h ▸ hk)
        rw [if_neg hyk, if_pos hk, if_pos hk]
      · rw [if_neg hk, if_neg hk]

/-- Of entries that are put one after the other the last one with a key is found. -/
lemma find_foldl_put (xs acc : List α) (k : κ) :
    find key k (xs.foldl (fun table x => put key x table) acc) =
      (xs.filter fun x => key x = k).getLast?.or (find key k acc) := by
  induction xs generalizing acc with
  | nil => rfl
  | cons x xs ih =>
    rw [foldl_cons, ih, find_put]
    by_cases hx : key x = k
    · have hcons : (x :: xs).filter (fun x => key x = k) = x :: xs.filter fun x => key x = k :=
        filter_cons_of_pos (by simpa using hx)
      rw [if_pos hx, hcons, getLast?_cons]
      cases (xs.filter fun x => key x = k).getLast? <;> rfl
    · have hcons : (x :: xs).filter (fun x => key x = k) = xs.filter fun x => key x = k :=
        filter_cons_of_neg (by simpa using hx)
      rw [if_neg hx, hcons]

/-! ### Membership -/

lemma mem_put_self (x : α) (xs : List α) : x ∈ put key x xs := by
  induction xs with
  | nil => exact mem_singleton_self x
  | cons y ys ih =>
    rw [put_cons]
    split_ifs
    · exact mem_cons_self
    · exact mem_cons_of_mem _ ih

lemma mem_of_mem_put {y : α} (h : x ∈ put key y xs) : x = y ∨ x ∈ xs := by
  induction xs with
  | nil => exact Or.inl (mem_singleton.mp h)
  | cons z zs ih =>
    rw [put_cons] at h
    split_ifs at h
    · exact (mem_cons.mp h).imp_right (mem_cons_of_mem _)
    · rcases mem_cons.mp h with rfl | h
      · exact Or.inr mem_cons_self
      · exact (ih h).imp_right (mem_cons_of_mem _)

/-! ### Distinct keys -/

lemma mem_keys_put : k ∈ (put key x xs).map key ↔ k = key x ∨ k ∈ xs.map key := by
  induction xs with
  | nil => simp [put_nil]
  | cons y ys ih =>
    rw [put_cons]
    split_ifs with h
    · simp [h]
    · rw [map_cons, mem_cons, ih, map_cons, mem_cons]
      exact or_left_comm

lemma nodup_keys_put (h : (xs.map key).Nodup) : ((put key x xs).map key).Nodup := by
  induction xs with
  | nil => simp [put_nil]
  | cons y ys ih =>
    rw [put_cons]
    have ⟨hy, hys⟩ := nodup_cons.mp h
    split_ifs with heq
    · exact nodup_cons.mpr ⟨heq ▸ hy, hys⟩
    · refine nodup_cons.mpr ⟨fun hmem => ?_, ih hys⟩
      rcases mem_keys_put.mp hmem with hkey | hmem
      · exact heq hkey
      · exact hy hmem

lemma put_of_mem (hxs : (xs.map key).Nodup) (hx : x ∈ xs) : put key x xs = xs := by
  induction xs with
  | nil => cases hx
  | cons y ys ih =>
    obtain ⟨hy, hys⟩ := nodup_cons.mp hxs
    rw [put_cons]
    rcases mem_cons.mp hx with rfl | hmem
    · rw [if_pos rfl]
    · have hne : key y ≠ key x := fun heq => hy (heq ▸ mem_map_of_mem hmem)
      rw [if_neg hne, ih hys hmem]

/-! ### Length -/

lemma length_put_of_find {y : α} (h : find key (key x) xs = some y) :
    (put key x xs).length = xs.length := by
  induction xs with
  | nil => cases h
  | cons z zs ih =>
    rw [put_cons]
    rw [find_cons] at h
    split_ifs at h ⊢ with heq
    · rfl
    · rw [length_cons, ih h, length_cons]

lemma length_drop_lt (h : find key k xs = some x) : (drop key k xs).length < xs.length := by
  refine length_filter_lt_length_iff_exists.mpr ⟨x, mem_of_find h, ?_⟩
  simp [key_of_find h]

/-! ### The last entry of each key -/

lemma mem_keys_latest : k ∈ (latest key xs).map key ↔ k ∈ xs.map key := by
  induction xs with
  | nil => rfl
  | cons x xs ih =>
    rw [latest_cons, map_cons, mem_cons]
    split_ifs with h
    · rw [ih]
      exact ⟨Or.inr, fun hk => hk.elim (fun heq => heq ▸ h) id⟩
    · rw [map_cons, mem_cons, ih]

lemma mem_of_mem_latest (h : x ∈ latest key xs) : x ∈ xs := by
  induction xs with
  | nil => exact h
  | cons y ys ih =>
    rw [latest_cons] at h
    split_ifs at h
    · exact mem_cons_of_mem y (ih h)
    · exact mem_cons.mpr ((mem_cons.mp h).imp_right ih)

lemma nodup_keys_latest (xs : List α) : ((latest key xs).map key).Nodup := by
  induction xs with
  | nil => exact nodup_nil
  | cons x xs ih =>
    rw [latest_cons]
    split_ifs with h
    · exact ih
    · exact nodup_cons.mpr ⟨fun hmem => h (mem_keys_latest.mp hmem), ih⟩

lemma drop_eq_self (h : k ∉ xs.map key) : drop key k xs = xs := by
  refine filter_eq_self.mpr fun x hx => ?_
  exact decide_eq_true fun heq => h (mem_map.mpr ⟨x, hx, heq⟩)

lemma put_eq_append (h : key x ∉ xs.map key) : put key x xs = xs ++ [x] := by
  induction xs with
  | nil => rfl
  | cons y ys ih =>
    rw [map_cons, mem_cons, not_or] at h
    rw [put_cons, if_neg (Ne.symm h.1), ih h.2, cons_append]

lemma notMem_keys_drop : k ∉ (drop key k xs).map key := by
  intro hmem
  obtain ⟨x, hx, heq⟩ := mem_map.mp hmem
  exact of_decide_eq_true (mem_filter.mp hx).2 heq

/-- An entry that comes last takes the place of the earlier one with its key. -/
lemma latest_concat (x : α) (xs : List α) :
    latest key (xs ++ [x]) = drop key (key x) (latest key xs) ++ [x] := by
  induction xs with
  | nil => rfl
  | cons y ys ih =>
    have hkeys : key y ∈ (ys ++ [x]).map key ↔ key y ∈ ys.map key ∨ key y = key x := by simp
    rw [cons_append, latest_cons, latest_cons, ih]
    by_cases hys : key y ∈ ys.map key
    · rw [if_pos (hkeys.mpr (Or.inl hys)), if_pos hys]
    · rw [if_neg hys, drop_cons]
      by_cases hyx : key y = key x
      · rw [if_pos (hkeys.mpr (Or.inr hyx)), if_pos hyx]
      · rw [if_neg (by rw [hkeys]; tauto), if_neg hyx, cons_append]

/-- Of entries with distinct keys at most one has a key. -/
lemma countP_drop (p : α → Bool) (hxs : (xs.map key).Nodup)
    (hp : ∀ x ∈ xs, key x = k → p x = true) :
    (drop key k xs).countP p + (if (find key k xs).isSome then 1 else 0) = xs.countP p := by
  induction xs with
  | nil => rfl
  | cons y ys ih =>
    obtain ⟨hy, hys⟩ := nodup_cons.mp hxs
    have hp' : ∀ x ∈ ys, key x = k → p x = true := fun x hx => hp x (mem_cons_of_mem y hx)
    rw [drop_cons, find_cons]
    by_cases hk : key y = k
    · have hout : k ∉ ys.map key := by rwa [← hk]
      rw [if_pos hk, if_pos hk, drop_eq_self hout, countP_cons_of_pos (hp y mem_cons_self hk)]
      rfl
    · rw [if_neg hk, if_neg hk, countP_cons, countP_cons, ← ih hys hp']
      omega

lemma countP_drop_of_false (p : α → Bool)
    (hp : ∀ x ∈ xs, key x = k → p x = false) : (drop key k xs).countP p = xs.countP p := by
  rw [drop, countP_filter]
  refine countP_congr fun x hx => ?_
  by_cases hk : key x = k
  · simp [hp x hx hk]
  · simp [hk]

/-! ### Numbered keys -/

lemma numbered_injective (stem : String) : Function.Injective fun n : ℕ => stem ++ toString n := by
  intro m n h
  have hdigits : Nat.toDigits 10 m = Nat.toDigits 10 n := by
    simpa using congrArg String.toList h
  rw [← Nat.ofDigitChars_ten_toDigits (n := m), hdigits, Nat.ofDigitChars_ten_toDigits]

end Keyed
