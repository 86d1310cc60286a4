import Mathlib

/-!
# Names with a fixed shape

Versions, request ids and error codes, as the product's patterns read them. A pattern of fixed
length is a list of character classes.
-/

namespace Coforge.Release

open List

/-- The text has exactly one character of each class, in order. -/
def shapeMatches : List (Char → Bool) → List Char → Bool
  | [], []           => true
  | p :: ps, c :: cs => p c && shapeMatches ps cs
  | _, _             => false

/-- `[0-9a-f]`, ignoring case. -/
def hexDigit (c : Char) : Bool :=
  c.isDigit || ('a' ≤ c && c ≤ 'f') || ('A' ≤ c && c ≤ 'F')

/-- `[1-8]`. -/
def versionDigit (c : Char) : Bool := '1' ≤ c && c ≤ '8'

/-- `[89ab]`, ignoring case. -/
def variantDigit (c : Char) : Bool :=
  c = '8' || c = '9' || c = 'a' || c = 'b' || c = 'A' || c = 'B'

def dash (c : Char) : Bool := c = '-'

/-- `RFC_UUID_PATTERN`. -/
def rfcUuidPattern (value : String) : Bool :=
  shapeMatches
    (List.replicate 8 hexDigit ++ dash :: List.replicate 4 hexDigit ++
      dash :: versionDigit :: List.replicate 3 hexDigit ++
      dash :: variantDigit :: List.replicate 3 hexDigit ++ dash :: List.replicate 12 hexDigit)
    value.toList

/-- `RELEASE_VERSION`: letters, digits and three other characters, at most 100 of them. -/
def releaseVersionPattern (value : String) : Bool :=
  value.toList.all (fun c => c.isAlphanum || c = '.' || c = '+' || c = '-') &&
    1 ≤ value.toList.length && value.toList.length ≤ 100

/-- Two neighbouring characters are dots. -/
def hasDoubleDot (value : String) : Bool :=
  (value.toList.zip value.toList.tail).any fun p => p = ('.', '.')

/-- `UPGRADE_ERROR_CODE_PATTERN`: a capital letter, and then 2 to 63 capital letters, digits and
underscores. -/
def upgradeErrorCodePattern (value : String) : Bool :=
  match value.toList with
  | []      => false
  | c :: cs => c.isUpper && 2 ≤ cs.length && cs.length ≤ 63 &&
      cs.all fun c => c.isUpper || c.isDigit || c = '_'

def isValidReleaseVersion (value : String) : Bool :=
  releaseVersionPattern value && value ≠ "." && !hasDoubleDot value &&
    value.toList.head? ≠ some '-'

example : isValidReleaseVersion "1.2.0-beta.1+build" = true ∧ isValidReleaseVersion "1..2" = false ∧
    isValidReleaseVersion "-1" = false := by
  decide

/-! ### The shape of a UUID -/

variable {cs : List Char}

lemma shapeMatches_nil : shapeMatches [] cs = true ↔ cs = [] := by
  cases cs <;> simp [shapeMatches]

variable {p : Char → Bool} {ps : List (Char → Bool)}

lemma shapeMatches_cons : shapeMatches (p :: ps) cs = true ↔
      ∃ c cs', cs = c :: cs' ∧ p c = true ∧ shapeMatches ps cs' = true := by
  cases cs with
  | nil => simp [shapeMatches]
  | cons c cs =>
    rw [shapeMatches, Bool.and_eq_true]
    constructor
    · exact fun h => ⟨c, cs, rfl, h⟩
    · rintro ⟨_, _, heq, h⟩
      obtain ⟨rfl, rfl⟩ := cons.inj heq
      exact h

lemma shapeMatches_append {qs : List (Char → Bool)} : shapeMatches (ps ++ qs) cs = true ↔
      ∃ a b, cs = a ++ b ∧ shapeMatches ps a = true ∧ shapeMatches qs b = true := by
  induction ps generalizing cs with
  | nil =>
    constructor
    · exact fun h => ⟨[], cs, rfl, rfl, h⟩
    · rintro ⟨a, b, rfl, ha, hb⟩
      obtain rfl := shapeMatches_nil.mp ha
      exact hb
  | cons p ps ih =>
    rw [cons_append, shapeMatches_cons]
    simp only [ih, shapeMatches_cons]
    constructor
    · rintro ⟨c, _, rfl, hc, a, b, rfl, ha, hb⟩
      exact ⟨c :: a, b, rfl, ⟨c, a, rfl, hc, ha⟩, hb⟩
    · rintro ⟨_, b, rfl, ⟨c, a, rfl, hc, ha⟩, hb⟩
      exact ⟨c, a ++ b, rfl, hc, a, b, rfl, ha, hb⟩

lemma shapeMatches_replicate {n : Nat} :
    shapeMatches (List.replicate n p) cs = true ↔ cs.length = n ∧ ∀ c ∈ cs, p c = true := by
  induction n generalizing cs with
  | zero =>
    rw [replicate_zero, shapeMatches_nil, length_eq_zero_iff]
    constructor
    · rintro rfl
      exact ⟨rfl, fun _ hc => absurd hc not_mem_nil⟩
    · exact fun h => h.1
  | succ n ih =>
    rw [replicate_succ, shapeMatches_cons]
    simp only [ih]
    constructor
    · rintro ⟨c, cs, rfl, hc, rfl, hcs⟩
      exact ⟨rfl, forall_mem_cons.mpr ⟨hc, hcs⟩⟩
    · rintro ⟨hlength, hall⟩
      obtain ⟨c, cs, rfl⟩ := exists_cons_of_length_eq_add_one hlength
      obtain ⟨hc, hcs⟩ := forall_mem_cons.mp hall
      exact ⟨c, cs, rfl, hc, Nat.succ.inj hlength, hcs⟩

/-- The groups of a UUID. -/
structure UuidGroups (a b c d e : List Char) : Prop where
  time : a.length = 8 ∧ ∀ x ∈ a, hexDigit x = true
  mid : b.length = 4 ∧ ∀ x ∈ b, hexDigit x = true
  version : c.length = 4 ∧ (∀ x ∈ c, hexDigit x = true) ∧ c.head?.any versionDigit = true
  variant : d.length = 4 ∧ (∀ x ∈ d, hexDigit x = true) ∧ d.head?.any variantDigit = true
  node : e.length = 12 ∧ ∀ x ∈ e, hexDigit x = true

lemma headed_shape (hp : ∀ x, p x = true → hexDigit x = true) {c : List Char} :
    shapeMatches (p :: List.replicate 3 hexDigit) c = true ↔
      c.length = 4 ∧ (∀ x ∈ c, hexDigit x = true) ∧ c.head?.any p = true := by
  simp only [shapeMatches_cons, shapeMatches_replicate]
  cases c with
  | nil => simp
  | cons x c =>
    simp only [cons.injEq, length_cons, forall_mem_cons, head?_cons, Option.any_some]
    constructor
    · rintro ⟨_, _, ⟨rfl, rfl⟩, hx, hlength, hall⟩
      exact ⟨by omega, ⟨hp _ hx, hall⟩, hx⟩
    · rintro ⟨hlength, ⟨-, hall⟩, hx⟩
      exact ⟨x, c, ⟨rfl, rfl⟩, hx, by omega, hall⟩

lemma hexDigit_of_versionDigit (x : Char) (h : versionDigit x = true) : hexDigit x = true := by
  simp only [versionDigit, Bool.and_eq_true, decide_eq_true_eq, Char.le_def,
    UInt32.le_iff_toNat_le] at h
  have hdigit : x.isDigit = true := by
    simp only [Char.isDigit, ge_iff_le, Bool.and_eq_true, decide_eq_true_eq, UInt32.le_iff_toNat_le]
    exact ⟨Nat.le_trans (by decide) h.1, Nat.le_trans h.2 (by decide)⟩
  rw [hexDigit, hdigit, Bool.true_or, Bool.true_or]

lemma hexDigit_of_variantDigit (x : Char) (h : variantDigit x = true) : hexDigit x = true := by
  simp only [variantDigit, Bool.or_eq_true, decide_eq_true_eq] at h
  rcases h with ((((rfl | rfl) | rfl) | rfl) | rfl) | rfl <;> decide

lemma shapeMatches_dash :
    shapeMatches (dash :: ps) cs = true ↔ ∃ b, cs = '-' :: b ∧ shapeMatches ps b = true := by
  rw [shapeMatches_cons]
  constructor
  · rintro ⟨c, b, rfl, hc, hb⟩
    obtain rfl : c = '-' := by simpa [dash] using hc
    exact ⟨b, rfl, hb⟩
  · rintro ⟨b, rfl, hb⟩
    exact ⟨'-', b, rfl, rfl, hb⟩

lemma rfcUuidPattern_iff {value : String} : rfcUuidPattern value = true ↔ ∃ a b c d e,
      value.toList = a ++ '-' :: (b ++ '-' :: (c ++ '-' :: (d ++ '-' :: e))) ∧
        UuidGroups a b c d e := by
  simp only [rfcUuidPattern, append_assoc, cons_append]
  rw [← cons_append (a := versionDigit), ← cons_append (a := variantDigit)]
  simp only [shapeMatches_append, shapeMatches_dash, shapeMatches_replicate,
    headed_shape hexDigit_of_versionDigit, headed_shape hexDigit_of_variantDigit]
  constructor
  · rintro ⟨a, _, hvalue, ha, _, rfl, b, _, rfl, hb, _, rfl, c, _, rfl, hc, _, rfl, d, _, rfl, hd,
      e, rfl, he⟩
    exact ⟨a, b, c, d, e, hvalue, ⟨ha, hb, hc, hd, he⟩⟩
  · rintro ⟨a, b, c, d, e, hvalue, ⟨ha, hb, hc, hd, he⟩⟩
    exact ⟨a, _, hvalue, ha, _, rfl, b, _, rfl, hb, _, rfl, c, _, rfl, hc, _, rfl, d, _, rfl, hd,
      e, rfl, he⟩

lemma dash_not_mem (h : ∀ x ∈ cs, hexDigit x = true) : '-' ∉ cs :=
  fun hmem => absurd (h _ hmem) (by decide)

end Coforge.Release
