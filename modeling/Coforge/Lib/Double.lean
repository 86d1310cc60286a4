import Mathlib

/-!
# Doubles

The finite binary64 numbers from 0 up, as the rational numbers that a significand of 53 bits and an
exponent in range can write. A sum is rounded to the nearest of them, and a tie to the even one.

`Parsed` is a parsed JSON value with numbers of this kind: a double, its sign, or an infinite number
where the text was too great.

A counter that is kept in a double grows as long as its numbers are close enough to each other.
From `2 ^ 53` on every second whole number is missing, and adding 1 may give the same number again:
`lt_addOne_iff` says when it does not.
-/

/-- A significand of 53 bits and an exponent. -/
def Representable (q : ℚ) : Prop :=
  ∃ (m : ℕ) (e : ℤ), m < 2 ^ 53 ∧ -1074 ≤ e ∧ e ≤ 971 ∧ q = m * 2 ^ e

/-! ### Rounding -/

/-- The nearest whole number, and the even one of two. -/
def halfEven (x : ℚ) : ℤ :=
  if x - ⌊x⌋ < 1 / 2 ∨ x - ⌊x⌋ = 1 / 2 ∧ Even ⌊x⌋ then ⌊x⌋ else ⌊x⌋ + 1

lemma floor_le_halfEven (x : ℚ) : ⌊x⌋ ≤ halfEven x := by
  rw [halfEven]
  split_ifs <;> omega

lemma sub_half_le_halfEven (x : ℚ) : x - 1 / 2 ≤ halfEven x := by
  have hfloor := Int.lt_floor_add_one x
  rw [halfEven]
  split_ifs with hdown
  · rcases hdown with hlt | ⟨heq, -⟩ <;> linarith
  · push_cast
    linarith

lemma halfEven_le {x : ℚ} {n : ℤ} (h : x < n + 1 / 2) : halfEven x ≤ n := by
  have hfloor : ⌊x⌋ < n + 1 := by
    rw [Int.floor_lt]
    push_cast
    linarith
  rw [halfEven]
  split_ifs with hdown
  · omega
  · -- a number that is rounded up is not below its half
    rw [not_or] at hdown
    by_contra hgt
    have heq : ⌊x⌋ = n := by omega
    rw [heq] at hdown
    exact hdown.1 (by linarith)

lemma halfEven_mono {x y : ℚ} (h : x ≤ y) : halfEven x ≤ halfEven y := by
  rcases (Int.floor_mono h).lt_or_eq with hless | heq
  · have hup : halfEven x ≤ ⌊x⌋ + 1 := by
      rw [halfEven]
      split_ifs <;> omega
    have hlow := floor_le_halfEven y
    omega
  · rw [halfEven, halfEven, ← heq]
    split_ifs with hx hy hy
    · exact le_rfl
    · omega
    · -- what is rounded down is not above what is rounded up
      refine absurd ?_ hx
      rcases hy with hlt | ⟨hhalf, heven⟩
      · exact Or.inl (by linarith)
      · rcases h.lt_or_eq with hless | rfl
        · exact Or.inl (by linarith)
        · exact Or.inr ⟨hhalf, heven⟩
    · exact le_rfl

/-- A whole number and less than a half. -/
lemma halfEven_add_lt {n : ℤ} {f : ℚ} (h0 : 0 ≤ f) (hlt : f < 1 / 2) : halfEven (n + f) = n := by
  have hfloor : ⌊(n : ℚ) + f⌋ = n := by
    rw [Int.floor_eq_iff]
    constructor <;> linarith
  rw [halfEven, hfloor, if_pos (Or.inl (by linarith))]

/-- A whole number and a half. -/
lemma halfEven_add_half (n : ℤ) : halfEven (n + 1 / 2) = if Even n then n else n + 1 := by
  have hfloor : ⌊(n : ℚ) + 1 / 2⌋ = n := by
    rw [Int.floor_eq_iff]
    constructor <;> linarith
  rw [halfEven, hfloor]
  simp

/-- The distance of the representable numbers around a number. -/
def spacing (q : ℚ) : ℚ := 2 ^ max (Int.log 2 q - 52) (-1074)

def nearest (q : ℚ) : ℚ := halfEven (q / spacing q) * spacing q

section Log

variable {q : ℚ} {k : ℤ}

lemma log_eq (h : 2 ^ k ≤ q) (hlt : q < 2 ^ (k + 1)) : Int.log 2 q = k := by
  have hpos : 0 < q := lt_of_lt_of_le (by positivity) h
  have hle : k ≤ Int.log 2 q := (Int.zpow_le_iff_le_log one_lt_two hpos).mp (by exact_mod_cast h)
  have hgt : Int.log 2 q < k + 1 :=
    (Int.lt_zpow_iff_log_lt one_lt_two hpos).mp (by exact_mod_cast hlt)
  omega

lemma spacing_eq (hk : -1022 ≤ k) (h : 2 ^ k ≤ q) (hlt : q < 2 ^ (k + 1)) :
    spacing q = 2 ^ (k - 52) := by
  rw [spacing, log_eq h hlt, max_eq_left (by omega)]

/-- A number from 1 up lies between two powers. -/
lemma exists_power (h : 1 ≤ q) : ∃ k : ℤ, 0 ≤ k ∧ 2 ^ k ≤ q ∧ q < 2 ^ (k + 1) := by
  have hpos : 0 < q := lt_of_lt_of_le one_pos h
  refine ⟨Int.log 2 q, ?_, ?_, ?_⟩
  · exact (Int.zpow_le_iff_le_log one_lt_two hpos).mp (by simpa using h)
  · exact_mod_cast Int.zpow_log_le_self one_lt_two hpos
  · exact_mod_cast Int.lt_zpow_succ_log_self one_lt_two q

end Log

/-! ### Adding 1 -/

/-- The greatest double. -/
def maxDouble : ℚ := (2 ^ 53 - 1) * 2 ^ (971 : ℤ)

lemma Representable.le_maxDouble {q : ℚ} (h : Representable q) : q ≤ maxDouble := by
  obtain ⟨m, e, hm, -, he, rfl⟩ := h
  have hm' : (m : ℚ) ≤ 2 ^ 53 - 1 := by
    have : m + 1 ≤ 2 ^ 53 := hm
    have : ((m : ℚ) + 1) ≤ 2 ^ 53 := by exact_mod_cast this
    linarith
  have he' : (2 : ℚ) ^ e ≤ 2 ^ (971 : ℤ) := zpow_le_zpow_right₀ one_le_two he
  exact mul_le_mul hm' he' (by positivity) (by norm_num)

lemma Representable.nonneg {q : ℚ} (h : Representable q) : 0 ≤ q := by
  obtain ⟨m, e, -, -, -, rfl⟩ := h
  positivity

lemma two_zpow_add (a b : ℤ) : (2 : ℚ) ^ (a + b) = 2 ^ a * 2 ^ b := zpow_add₀ two_ne_zero a b

lemma two_lt_top : (2 : ℚ) < 2 ^ (971 : ℤ) := by
  calc (2 : ℚ) = 2 ^ (1 : ℤ) := by norm_num
    _ < 2 ^ (971 : ℤ) := zpow_lt_zpow_right₀ one_lt_two (by norm_num)

lemma nearest_eq {q : ℚ} {k : ℤ} (hk : -1022 ≤ k) (h : 2 ^ k ≤ q) (hlt : q < 2 ^ (k + 1)) :
    nearest q = halfEven (q / 2 ^ (k - 52)) * 2 ^ (k - 52) := by
  rw [nearest, spacing_eq hk h hlt]

/-- A number between two powers is rounded to a multiple of their spacing between them. -/
lemma halfEven_mem {q : ℚ} {k : ℤ} (hle : 2 ^ k ≤ q) (hlt : q < 2 ^ (k + 1)) :
    2 ^ 52 ≤ halfEven (q / 2 ^ (k - 52)) ∧ halfEven (q / 2 ^ (k - 52)) ≤ 2 ^ 53 := by
  have hu : (0 : ℚ) < 2 ^ (k - 52) := by positivity
  have hlow : (2 ^ 52 : ℚ) ≤ q / 2 ^ (k - 52) := by
    rw [le_div_iff₀ hu]
    calc (2 ^ 52 : ℚ) * 2 ^ (k - 52) = 2 ^ ((52 : ℤ) + (k - 52)) := by
          rw [two_zpow_add]
          norm_num
      _ = 2 ^ k := by rw [show (52 : ℤ) + (k - 52) = k by ring]
      _ ≤ q := hle
  have hhigh : q / 2 ^ (k - 52) < 2 ^ 53 := by
    rw [div_lt_iff₀ hu]
    calc q < 2 ^ (k + 1) := hlt
      _ = 2 ^ ((53 : ℤ) + (k - 52)) := by rw [show (53 : ℤ) + (k - 52) = k + 1 by ring]
      _ = 2 ^ 53 * 2 ^ (k - 52) := by
          rw [two_zpow_add]
          norm_num
  have hfloor : (2 ^ 52 : ℤ) ≤ ⌊q / 2 ^ (k - 52)⌋ := Int.le_floor.mpr (by exact_mod_cast hlow)
  exact ⟨hfloor.trans (floor_le_halfEven _), halfEven_le (by push_cast; linarith)⟩

/-- Rounding keeps the order. -/
lemma nearest_mono {q q' : ℚ} (h1 : 1 ≤ q) (h : q ≤ q') : nearest q ≤ nearest q' := by
  obtain ⟨k, hk, hle, hlt⟩ := exists_power h1
  obtain ⟨k', hk', hle', hlt'⟩ := exists_power (h1.trans h)
  rw [nearest_eq (by omega) hle hlt, nearest_eq (by omega) hle' hlt']
  have hkk : k < k' + 1 := by
    have hpow : (2 : ℚ) ^ k < 2 ^ (k' + 1) := (hle.trans h).trans_lt hlt'
    exact (zpow_lt_zpow_iff_right₀ one_lt_two).mp hpow
  have hu : (0 : ℚ) < 2 ^ (k - 52) := by positivity
  rcases (Int.lt_add_one_iff.mp hkk).lt_or_eq with hless | rfl
  · -- between different powers lies the next one
    have hhigh : (halfEven (q / 2 ^ (k - 52)) : ℚ) ≤ 2 ^ 53 := by
      exact_mod_cast (halfEven_mem hle hlt).2
    have hlow : (2 ^ 52 : ℚ) ≤ halfEven (q' / 2 ^ (k' - 52)) := by
      exact_mod_cast (halfEven_mem hle' hlt').1
    have hpow : (2 : ℚ) * 2 ^ (k - 52) ≤ 2 ^ (k' - 52) := by
      calc (2 : ℚ) * 2 ^ (k - 52) = 2 ^ (1 + (k - 52)) := by
            rw [two_zpow_add]
            norm_num
        _ ≤ 2 ^ (k' - 52) := zpow_le_zpow_right₀ one_le_two (by omega)
    calc (halfEven (q / 2 ^ (k - 52)) : ℚ) * 2 ^ (k - 52) ≤ 2 ^ 53 * 2 ^ (k - 52) :=
          mul_le_mul_of_nonneg_right hhigh hu.le
      _ = 2 ^ 52 * (2 * 2 ^ (k - 52)) := by ring
      _ ≤ 2 ^ 52 * 2 ^ (k' - 52) := mul_le_mul_of_nonneg_left hpow (by norm_num)
      _ ≤ halfEven (q' / 2 ^ (k' - 52)) * 2 ^ (k' - 52) :=
          mul_le_mul_of_nonneg_right hlow (by positivity)
  · refine mul_le_mul_of_nonneg_right ?_ hu.le
    exact_mod_cast halfEven_mono ((div_le_div_iff_of_pos_right hu).mpr h)

/-- A sum that does not lie beyond the greatest double is rounded to a double. -/
lemma representable_nearest {q : ℚ} (h1 : 1 ≤ q) (hmax : q ≤ maxDouble + 1) :
    Representable (nearest q) := by
  obtain ⟨k, hk, hle, hlt⟩ := exists_power h1
  have hk' : k ≤ 1023 := by
    by_contra hgt
    have hpow : (2 : ℚ) ^ (1024 : ℤ) ≤ 2 ^ k := zpow_le_zpow_right₀ one_le_two (by omega)
    have htop := two_lt_top
    have hpow' : (2 : ℚ) ^ (1024 : ℤ) = 2 ^ 53 * 2 ^ (971 : ℤ) := by
      rw [show (1024 : ℤ) = 53 + 971 by norm_num, two_zpow_add]
      norm_num
    rw [maxDouble] at hmax
    rw [hpow'] at hpow
    generalize (2 : ℚ) ^ (971 : ℤ) = top at hmax htop hpow
    linarith
  rw [nearest_eq (by omega) hle hlt]
  have hu : (0 : ℚ) < 2 ^ (k - 52) := by positivity
  obtain ⟨hjlow, hjhigh⟩ := halfEven_mem hle hlt
  obtain ⟨j, hj⟩ : ∃ j : ℤ, halfEven (q / 2 ^ (k - 52)) = j := ⟨_, rfl⟩
  rw [hj] at hjlow hjhigh ⊢
  rcases hjhigh.lt_or_eq with hsmall | rfl
  · refine ⟨j.toNat, k - 52, by omega, by omega, by omega, ?_⟩
    have hnat : ((j.toNat : ℕ) : ℚ) = j := by
      exact_mod_cast Int.toNat_of_nonneg (le_trans (by norm_num) hjlow)
    rw [hnat]
  · -- the next power of two, which the greatest double does not reach
    have hk'' : k ≠ 1023 := by
      rintro rfl
      have hround := @halfEven_le (q / 2 ^ ((1023 : ℤ) - 52)) (2 ^ 53 - 1) (by
        have htop := two_lt_top
        rw [div_lt_iff₀ hu, show (1023 : ℤ) - 52 = 971 by norm_num]
        rw [maxDouble] at hmax
        generalize (2 : ℚ) ^ (971 : ℤ) = top at hmax htop
        push_cast
        linarith only [hmax, htop])
      rw [hj] at hround
      norm_num at hround
    refine ⟨2 ^ 52, k - 51, by norm_num, by omega, by omega, ?_⟩
    rw [show k - 51 = 1 + (k - 52) by ring, two_zpow_add]
    push_cast
    ring

/-- A finite double from 0 up. -/
structure Double where
  value : ℚ
  representable : Representable value

namespace Double

@[ext] lemma ext {d d' : Double} (h : d.value = d'.value) : d = d' := by
  cases d
  cases d'
  congr

instance : DecidableEq Double := fun d d' => decidable_of_iff (d.value = d'.value) ⟨ext, congrArg value⟩

/-- The sum of a double and 1, rounded. -/
def addOne (d : Double) : Double where
  value := nearest (d.value + 1)
  representable := representable_nearest (by linarith [d.representable.nonneg])
    (by linarith [d.representable.le_maxDouble])

variable {d : Double}

/-- Below `2 ^ 53` a sum is close enough to be greater. -/
lemma lt_addOne_of_lt (h : d.value < 2 ^ 53) : d.value < d.addOne.value := by
  have hnonneg := d.representable.nonneg
  obtain ⟨k, hk, hle, hlt⟩ := exists_power (q := d.value + 1) (by linarith)
  have hk' : k ≤ 53 := by
    by_contra hgt
    have hpow : (2 : ℚ) ^ (54 : ℤ) ≤ 2 ^ k := zpow_le_zpow_right₀ one_le_two (by omega)
    norm_num at hpow h
    linarith
  have hvalue : d.addOne.value = halfEven ((d.value + 1) / 2 ^ (k - 52)) * 2 ^ (k - 52) :=
    nearest_eq (by omega) hle hlt
  rw [hvalue]
  have hu : (0 : ℚ) < 2 ^ (k - 52) := by positivity
  rcases hk'.lt_or_eq with hsmall | rfl
  · have hone : (2 : ℚ) ^ (k - 52) ≤ 1 := zpow_le_one_of_nonpos₀ one_le_two (by omega)
    have hhalf := sub_half_le_halfEven ((d.value + 1) / 2 ^ (k - 52))
    have hmul := mul_le_mul_of_nonneg_right hhalf hu.le
    rw [sub_mul, div_mul_cancel₀ _ hu.ne'] at hmul
    linarith
  · -- the sum is rounded to `2 ^ 53` at least
    have hfloor : (2 ^ 52 : ℤ) ≤ ⌊(d.value + 1) / 2 ^ ((53 : ℤ) - 52)⌋ := by
      rw [Int.le_floor, le_div_iff₀ hu]
      norm_num at hle ⊢
      linarith
    have hround : ((2 ^ 52 : ℤ) : ℚ) ≤ halfEven ((d.value + 1) / 2 ^ ((53 : ℤ) - 52)) := by
      exact_mod_cast hfloor.trans (floor_le_halfEven _)
    norm_num at hround h ⊢
    linarith

/-- A double from a power on is a multiple of that power's spacing. -/
lemma exists_multiple {k : ℤ} (h : 2 ^ k ≤ d.value) : ∃ j : ℕ, d.value = j * 2 ^ (k - 52) := by
  obtain ⟨m, e, hm, -, -, heq⟩ := d.representable
  have hm' : (m : ℚ) < 2 ^ (53 : ℤ) := by
    norm_num
    exact_mod_cast hm
  have hpow : (2 : ℚ) ^ k < 2 ^ (53 + e) := by
    rw [two_zpow_add]
    rw [heq] at h
    exact h.trans_lt (mul_lt_mul_of_pos_right hm' (by positivity))
  have he : k < 53 + e := (zpow_lt_zpow_iff_right₀ one_lt_two).mp hpow
  obtain ⟨n, hn⟩ := Int.eq_ofNat_of_zero_le (show 0 ≤ e - (k - 52) by omega)
  refine ⟨m * 2 ^ n, ?_⟩
  rw [heq, show e = n + (k - 52) by omega, two_zpow_add]
  push_cast
  rw [zpow_natCast]
  ring

/-- From `2 ^ 53` to `2 ^ 54` a double is even, and every second one ties upward. -/
lemma addOne_of_mem (hle : 2 ^ 53 ≤ d.value) (hlt : d.value < 2 ^ 54) : ∃ j : ℕ,
    d.value = 2 * j ∧ d.addOne.value = if Even j then d.value else d.value + 2 := by
  obtain ⟨j, hj⟩ := @exists_multiple d 53 (by
    norm_num at hle ⊢
    exact hle)
  have hj : d.value = 2 * j := by
    rw [hj]
    norm_num
    ring
  have hjlt : j < 2 ^ 53 := by
    have hcast : (j : ℚ) < 2 ^ 53 := by
      rw [hj] at hlt
      linarith
    exact_mod_cast hcast
  have hjle : (j : ℚ) ≤ 2 ^ 53 - 1 := by
    have hcast : ((j + 1 : ℕ) : ℚ) ≤ ((2 ^ 53 : ℕ) : ℚ) := by exact_mod_cast hjlt
    push_cast at hcast
    linarith
  have hvalue : d.addOne.value = halfEven ((d.value + 1) / 2 ^ ((53 : ℤ) - 52)) *
      2 ^ ((53 : ℤ) - 52) := by
    refine nearest_eq (by norm_num) ?_ ?_
    · norm_num at hle ⊢
      linarith
    · have hpow : (2 : ℚ) ^ ((53 : ℤ) + 1) = 2 * 2 ^ 53 := by norm_num
      rw [hj, hpow]
      linarith
  have htie : (d.value + 1) / 2 ^ ((53 : ℤ) - 52) = ((j : ℤ) : ℚ) + 1 / 2 := by
    rw [hj]
    norm_num
    ring
  refine ⟨j, hj, ?_⟩
  rw [hvalue, htie, halfEven_add_half]
  simp only [Int.even_coe_nat]
  split_ifs
  · rw [hj]
    norm_num
    ring
  · rw [hj]
    push_cast
    ring

/-- From `2 ^ 54` on the sum is the same number again. -/
lemma addOne_of_ge (hge : 2 ^ 54 ≤ d.value) : d.addOne.value = d.value := by
  obtain ⟨k, hk, hle, hlt⟩ := exists_power (q := d.value) (by
    norm_num at hge
    linarith)
  have hk' : 54 ≤ k := by
    by_contra hgt
    have hpow : (2 : ℚ) ^ (k + 1) ≤ 2 ^ (54 : ℤ) := zpow_le_zpow_right₀ one_le_two (by omega)
    norm_num at hpow hge
    linarith
  obtain ⟨j, hj⟩ := exists_multiple hle
  have hu : (4 : ℚ) ≤ 2 ^ (k - 52) := by
    have hpow : (2 : ℚ) ^ (2 : ℤ) ≤ 2 ^ (k - 52) := zpow_le_zpow_right₀ one_le_two (by omega)
    norm_num at hpow
    exact hpow
  have hpos : (0 : ℚ) < 2 ^ (k - 52) := by linarith
  have hnext : (2 : ℚ) ^ (k + 1) = 2 ^ 53 * 2 ^ (k - 52) := by
    rw [show k + 1 = 53 + (k - 52) by ring, two_zpow_add]
    norm_num
  have hjlt : j + 1 ≤ 2 ^ 53 := by
    have hcast : (j : ℚ) < ((2 ^ 53 : ℕ) : ℚ) := by
      rw [hj, hnext] at hlt
      push_cast
      exact lt_of_mul_lt_mul_right hlt hpos.le
    exact_mod_cast hcast
  have hsum : d.value + 1 < 2 ^ (k + 1) := by
    have hcast : ((j : ℚ) + 1) ≤ 2 ^ 53 := by exact_mod_cast hjlt
    have hmul := mul_le_mul_of_nonneg_right hcast hpos.le
    rw [hnext, hj]
    linarith
  have hvalue : d.addOne.value = halfEven ((d.value + 1) / 2 ^ (k - 52)) * 2 ^ (k - 52) :=
    nearest_eq (by omega) (by linarith) hsum
  have hsplit : (d.value + 1) / 2 ^ (k - 52) = ((j : ℤ) : ℚ) + 1 / 2 ^ (k - 52) := by
    rw [add_div, hj, mul_div_cancel_right₀ _ hpos.ne']
    push_cast
    rfl
  have hquarter : 1 / (2 : ℚ) ^ (k - 52) < 1 / 2 := by
    rw [div_lt_div_iff_of_pos_left one_pos hpos two_pos]
    linarith
  rw [hvalue, hsplit, halfEven_add_lt (by positivity) hquarter, hj]
  push_cast
  rfl

/-- Adding 1 gives a greater double below `2 ^ 53`, and for twice an odd number below `2 ^ 54`. -/
theorem lt_addOne_iff : d.value < d.addOne.value ↔
    d.value < 2 ^ 53 ∨ d.value < 2 ^ 54 ∧ ∃ j : ℕ, Odd j ∧ d.value = 2 * j := by
  by_cases hsmall : d.value < 2 ^ 53
  · exact iff_of_true (lt_addOne_of_lt hsmall) (Or.inl hsmall)
  by_cases hmiddle : d.value < 2 ^ 54
  · obtain ⟨j, hj, hvalue⟩ := addOne_of_mem (not_lt.mp hsmall) hmiddle
    rw [hvalue]
    split_ifs with heven
    · refine iff_of_false (lt_irrefl _) ?_
      rintro (hlt | ⟨-, i, hi, heq⟩)
      · exact hsmall hlt
      · have hij : i = j := by
          have hcast : (i : ℚ) = j := by linarith
          exact_mod_cast hcast
        exact Nat.not_even_iff_odd.mpr hi (hij ▸ heven)
    · refine iff_of_true (by linarith) (Or.inr ⟨hmiddle, j, Nat.not_even_iff_odd.mp heven, hj⟩)
  · rw [addOne_of_ge (not_lt.mp hmiddle)]
    refine iff_of_false (lt_irrefl _) ?_
    rintro (hlt | ⟨hlt, -⟩)
    · exact hsmall hlt
    · exact hmiddle hlt

lemma addOne_mono {d d' : Double} (h : d.value ≤ d'.value) : d.addOne.value ≤ d'.addOne.value :=
  nearest_mono (by linarith [d.representable.nonneg]) (by linarith)

lemma le_addOne (d : Double) : d.value ≤ d.addOne.value := by
  by_cases hsmall : d.value < 2 ^ 53
  · exact (lt_addOne_of_lt hsmall).le
  by_cases hmiddle : d.value < 2 ^ 54
  · obtain ⟨j, -, hvalue⟩ := addOne_of_mem (not_lt.mp hsmall) hmiddle
    rw [hvalue]
    split_ifs
    · exact le_rfl
    · linarith
  · exact (addOne_of_ge (not_lt.mp hmiddle)).ge

instance : LinearOrder Double := LinearOrder.lift' value fun _ _ => ext

lemma le_def {d d' : Double} : d ≤ d' ↔ d.value ≤ d'.value := Iff.rfl

lemma lt_def {d d' : Double} : d < d' ↔ d.value < d'.value := Iff.rfl

def zero : Double := ⟨0, 0, 0, by norm_num, by norm_num, by norm_num, by norm_num⟩

def one : Double := ⟨1, 1, 0, by norm_num, by norm_num, by norm_num, by norm_num⟩

lemma zero_le (d : Double) : zero ≤ d := d.representable.nonneg

lemma addOne_zero_le : zero.addOne ≤ one := by
  have hlog : nearest (0 + 1) = halfEven ((0 + 1) / 2 ^ ((0 : ℤ) - 52)) * 2 ^ ((0 : ℤ) - 52) :=
    nearest_eq (by norm_num) (by norm_num) (by norm_num)
  have hwhole : ((0 : ℚ) + 1) / 2 ^ ((0 : ℤ) - 52) = ((2 ^ 52 : ℤ) : ℚ) + 0 := by norm_num
  have hround := @halfEven_add_lt (2 ^ 52) 0 (le_refl 0) (by norm_num)
  change nearest (0 + 1) ≤ 1
  rw [hlog, hwhole, hround]
  norm_num

end Double

/-! ### Parsed values -/

inductive Number where
  | finite (negative : Bool) (magnitude : Double)
  | infinite (negative : Bool)

/-- A parsed JSON value. -/
inductive Parsed where
  | null
  | bool (b : Bool)
  | num (n : Number)
  | str (s : String)
  | arr (items : List Parsed)
  | obj (fields : List (String × Parsed))

namespace Parsed

def isRecord : Parsed → Bool
  | .obj _ => true
  | _      => false

def get? : Parsed → String → Option Parsed
  | .obj fields, key => fields.lookup key
  | _, _             => none

/-- The entries of an object, none of anything else. -/
def entries : Option Parsed → List (String × Parsed)
  | some (.obj fields) => fields
  | _                  => []

/-- The elements of an array, none of anything else. -/
def items : Option Parsed → List Parsed
  | some (.arr xs) => xs
  | _              => []

end Parsed
