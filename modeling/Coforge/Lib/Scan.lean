import Mathlib

/-!
# Searching a text from a cursor

What a pattern matches at a place does not depend on where the search began. So the first match at
or after a cursor stays the first one until the cursor passes it, and a search that found nothing
finds nothing from a later cursor either.
-/

namespace Scan

variable {β : Type*} {matchAt : ℕ → Option β} {last cursor cursor' : ℕ} {found : ℕ × β}

/-- The first place of a text with a match, at or after a cursor. -/
def firstFrom (matchAt : ℕ → Option β) (last cursor : ℕ) : Option (ℕ × β) :=
  (List.range' cursor (last + 1 - cursor)).findSome? fun p => (matchAt p).map (p, ·)

lemma firstFrom_succ (h : cursor ≤ last) : firstFrom matchAt last cursor =
    ((matchAt cursor).map (cursor, ·)).or (firstFrom matchAt last (cursor + 1)) := by
  have hlength : last + 1 - cursor = (last + 1 - (cursor + 1)) + 1 := by omega
  rw [firstFrom, hlength, List.range'_succ, List.findSome?_cons]
  cases matchAt cursor <;> rfl

lemma firstFrom_of_lt (h : last < cursor) : firstFrom matchAt last cursor = none := by
  rw [firstFrom, Nat.sub_eq_zero_of_le h]
  rfl

lemma bounds (h : firstFrom matchAt last cursor = some found) :
    cursor ≤ found.1 ∧ found.1 ≤ last ∧ matchAt found.1 = some found.2 := by
  obtain ⟨p, hp, hfound⟩ := List.exists_of_findSome?_eq_some h
  obtain ⟨m, hm, rfl⟩ := Option.map_eq_some_iff.mp hfound
  rw [List.mem_range'_1] at hp
  exact ⟨hp.1, by omega, hm⟩

/-- A match stays the next one until the cursor passes it. -/
lemma firstFrom_later (h : firstFrom matchAt last cursor = some found) (hle : cursor ≤ cursor')
    (hfound : cursor' ≤ found.1) : firstFrom matchAt last cursor' = some found := by
  induction cursor', hle using Nat.le_induction with
  | base => exact h
  | succ c hle ih =>
    have hc := ih (by omega)
    have hlast := (bounds hc).2.1
    rw [firstFrom_succ (by omega)] at hc
    cases hm : matchAt c with
    | none =>
      rw [hm] at hc
      exact hc
    | some m =>
      rw [hm] at hc
      obtain rfl := Option.some.inj hc
      exact absurd hfound (by simp)

lemma firstFrom_none_later (h : firstFrom matchAt last cursor = none) (hle : cursor ≤ cursor') :
    firstFrom matchAt last cursor' = none := by
  induction cursor', hle using Nat.le_induction with
  | base => exact h
  | succ c hle ih =>
    by_cases hc : c ≤ last
    · rw [firstFrom_succ hc, Option.or_eq_none_iff] at ih
      exact ih.2
    · exact firstFrom_of_lt (by omega)

/-! ### A cached match -/

/-- What a scanner keeps between two searches: nothing yet, or the answer of a search that began at
or before the cursor. -/
def Cached (matchAt : ℕ → Option β) (last cursor : ℕ) : Option (Option (ℕ × β)) → Prop
  | none         => True
  | some pending => ∃ c ≤ cursor, firstFrom matchAt last c = pending

/-- The pending answer when it is still ahead of the cursor, and else a new search. -/
def refresh (matchAt : ℕ → Option β) (last cursor : ℕ) :
    Option (Option (ℕ × β)) → Option (ℕ × β)
  | none              => firstFrom matchAt last cursor
  | some none         => none
  | some (some found) => if found.1 < cursor then firstFrom matchAt last cursor else some found

/-- A search is skipped only when it would give the pending answer again. -/
theorem Cached.refresh {pending : Option (Option (ℕ × β))}
    (h : Cached matchAt last cursor pending) :
    refresh matchAt last cursor pending = firstFrom matchAt last cursor := by
  cases pending with
  | none => rfl
  | some answer =>
    obtain ⟨c, hc, hanswer⟩ := h
    cases answer with
    | none => exact (firstFrom_none_later hanswer hc).symm
    | some found =>
      rw [Scan.refresh]
      split_ifs with hlt
      · rfl
      · exact (firstFrom_later hanswer hc (by omega)).symm

end Scan
