import Coforge.Lib.Wire

/-!
# Base64

The standard base64 of a file's bytes. Decoding is strict: it accepts what `encodeBase64` makes of
some bytes, and nothing else.

The bits of a group of three bytes are split by division here, where the program shifts and masks.
-/

namespace Coforge.Files

open Wire

def alphabet : List Char :=
  "ABCDEFGHIJKLMNOPQRSTUVWXYZabcdefghijklmnopqrstuvwxyz0123456789+/".toList

/-- `ALPHABET[n]`. -/
def base64Char (n : ℕ) : Char := alphabet.getD n 'A'

/-- `DIGITS.get(c)`. -/
def base64Digit (c : Char) : Option ℕ := alphabet.idxOf? c

def encodeBase64 : List UInt8 → List Char
  | [] => []
  | [first] =>
    [base64Char (first.toNat / 4), base64Char (first.toNat % 4 * 16), '=', '=']
  | [first, second] =>
    [base64Char (first.toNat / 4), base64Char (first.toNat % 4 * 16 + second.toNat / 16),
      base64Char (second.toNat % 16 * 4), '=']
  | first :: second :: third :: rest =>
    base64Char (first.toNat / 4) :: base64Char (first.toNat % 4 * 16 + second.toNat / 16) ::
      base64Char (second.toNat % 16 * 4 + third.toNat / 64) :: base64Char (third.toNat % 64) ::
      encodeBase64 rest

def lookup (c : Char) : Except String ℕ :=
  match base64Digit c with
  | some n => .ok n
  | none   => .error "Invalid base64 character"

/-- One group of four characters, of which the last `padding` are not read. The bits that no byte
takes are 0. -/
def decodeGroup (a b c d : Char) (padding : ℕ) : Except String (List UInt8) := do
  let first ← lookup a
  let second ← lookup b
  if padding = 2 then
    check (second % 16 = 0) "Invalid base64 padding"
    return [.ofNat (first * 4 + second / 16)]
  let third ← lookup c
  if padding = 1 then
    check (third % 4 = 0) "Invalid base64 padding"
    return [.ofNat (first * 4 + second / 16), .ofNat (second % 16 * 16 + third / 4)]
  let fourth ← lookup d
  return [.ofNat (first * 4 + second / 16), .ofNat (second % 16 * 16 + third / 4),
    .ofNat (third % 4 * 64 + fourth)]

def decodeGroups : List Char → Except String (List UInt8)
  | [] => .ok []
  | a :: b :: c :: d :: rest =>
    if rest = [] then
      decodeGroup a b c d (if c = '=' ∧ d = '=' then 2 else if d = '=' then 1 else 0)
    else do
      check (c ≠ '=' ∧ d ≠ '=') "Invalid base64 padding"
      let bytes ← decodeGroup a b c d 0
      return bytes ++ (← decodeGroups rest)
  | _ => .error "Invalid base64 length"

def decodeBase64 (value : List Char) : Except String (List UInt8) := do
  check (value.length % 4 = 0) "Invalid base64 length"
  decodeGroups value

example : decodeBase64 "Zg==".toList = .ok [102] ∧
    decodeBase64 "Zh==".toList = .error "Invalid base64 padding" := by
  decide

/-! ### Characters and digits -/

lemma base64Digit_base64Char : ∀ n < 64, base64Digit (base64Char n) = some n := by decide +kernel

lemma base64Char_ne_pad (n : ℕ) (h : n < 64) : base64Char n ≠ '=' := by
  intro heq
  have hdigit := base64Digit_base64Char n h
  have hpad : base64Digit '=' = none := by decide
  rw [heq, hpad] at hdigit
  exact absurd hdigit.symm (Option.some_ne_none n)

variable {c : Char} {n : ℕ}

lemma base64Digit_eq_some (h : base64Digit c = some n) : n < 64 ∧ base64Char n = c := by
  obtain ⟨hlt, hc, -⟩ := List.idxOf?_eq_some_iff.mp h
  have hlength : alphabet.length = 64 := by decide
  refine ⟨by omega, ?_⟩
  rw [base64Char, List.getD_eq_getElem _ _ hlt]
  exact hc

lemma lookup_eq_ok : lookup c = .ok n ↔ base64Digit c = some n := by
  rw [lookup]
  cases base64Digit c with
  | none => simp
  | some m => simp

lemma lookup_base64Char (h : n < 64) : lookup (base64Char n) = .ok n :=
  lookup_eq_ok.mpr (base64Digit_base64Char n h)

lemma toNat_byte (h : n < 256) : (UInt8.ofNat n).toNat = n := UInt8.toNat_ofNat_of_lt' h

lemma byte_toNat {b : UInt8} (h : n = b.toNat) : UInt8.ofNat n = b := by
  rw [h, UInt8.ofNat_toNat]

/-! ### Groups -/

variable {bytes : List UInt8}

lemma encodeBase64_eq_nil (h : encodeBase64 bytes = []) : bytes = [] := by
  cases bytes with
  | nil => rfl
  | cons first bytes =>
    cases bytes with
    | nil => cases h
    | cons second bytes =>
      cases bytes with
      | nil => cases h
      | cons third bytes => cases h

lemma encodeBase64_of_decodeGroup {a b d : Char}
    (h : decodeGroup a b c d 0 = .ok bytes) (rest : List UInt8) :
    encodeBase64 (bytes ++ rest) = a :: b :: c :: d :: encodeBase64 rest := by
  rw [decodeGroup] at h
  obtain ⟨first, hfirst, h⟩ := bind_eq_ok.mp h
  obtain ⟨second, hsecond, h⟩ := bind_eq_ok.mp h
  rw [if_neg (by decide)] at h
  obtain ⟨third, hthird, h⟩ := bind_eq_ok.mp h
  rw [if_neg (by decide)] at h
  obtain ⟨fourth, hfourth, heq⟩ := bind_eq_ok.mp h
  rw [pure_eq_ok] at heq
  subst heq
  obtain ⟨h₁, rfl⟩ := base64Digit_eq_some (lookup_eq_ok.mp hfirst)
  obtain ⟨h₂, rfl⟩ := base64Digit_eq_some (lookup_eq_ok.mp hsecond)
  obtain ⟨h₃, rfl⟩ := base64Digit_eq_some (lookup_eq_ok.mp hthird)
  obtain ⟨h₄, rfl⟩ := base64Digit_eq_some (lookup_eq_ok.mp hfourth)
  simp only [List.cons_append, List.nil_append, encodeBase64]
  rw [toNat_byte (by omega), toNat_byte (by omega), toNat_byte (by omega)]
  refine congrArg₂ _ (congrArg _ (by omega)) (congrArg₂ _ (congrArg _ (by omega))
    (congrArg₂ _ (congrArg _ (by omega)) (congrArg₂ _ (congrArg _ (by omega)) rfl)))

lemma encodeBase64_of_decodeLast {a b d : Char}
    (h : decodeGroup a b c d (if c = '=' ∧ d = '=' then 2 else if d = '=' then 1 else 0) =
      .ok bytes) : encodeBase64 bytes = [a, b, c, d] := by
  by_cases hboth : c = '=' ∧ d = '='
  · obtain ⟨rfl, rfl⟩ := hboth
    rw [if_pos ⟨rfl, rfl⟩, decodeGroup] at h
    obtain ⟨first, hfirst, h⟩ := bind_eq_ok.mp h
    obtain ⟨second, hsecond, h⟩ := bind_eq_ok.mp h
    rw [if_pos rfl, check_bind_eq_ok, pure_eq_ok] at h
    obtain ⟨hbits, heq⟩ := h
    subst heq
    obtain ⟨h₁, rfl⟩ := base64Digit_eq_some (lookup_eq_ok.mp hfirst)
    obtain ⟨h₂, rfl⟩ := base64Digit_eq_some (lookup_eq_ok.mp hsecond)
    rw [encodeBase64, toNat_byte (by omega)]
    exact congrArg₂ _ (congrArg _ (by omega)) (congrArg₂ _ (congrArg _ (by omega)) rfl)
  · rw [if_neg hboth] at h
    by_cases hone : d = '='
    · subst hone
      rw [if_pos rfl, decodeGroup] at h
      obtain ⟨first, hfirst, h⟩ := bind_eq_ok.mp h
      obtain ⟨second, hsecond, h⟩ := bind_eq_ok.mp h
      rw [if_neg (by decide)] at h
      obtain ⟨third, hthird, h⟩ := bind_eq_ok.mp h
      rw [if_pos rfl, check_bind_eq_ok, pure_eq_ok] at h
      obtain ⟨hbits, heq⟩ := h
      subst heq
      obtain ⟨h₁, rfl⟩ := base64Digit_eq_some (lookup_eq_ok.mp hfirst)
      obtain ⟨h₂, rfl⟩ := base64Digit_eq_some (lookup_eq_ok.mp hsecond)
      obtain ⟨h₃, rfl⟩ := base64Digit_eq_some (lookup_eq_ok.mp hthird)
      rw [encodeBase64, toNat_byte (by omega), toNat_byte (by omega)]
      exact congrArg₂ _ (congrArg _ (by omega)) (congrArg₂ _ (congrArg _ (by omega))
        (congrArg₂ _ (congrArg _ (by omega)) rfl))
    · rw [if_neg hone] at h
      have hgroup := encodeBase64_of_decodeGroup h []
      rw [List.append_nil] at hgroup
      exact hgroup

lemma encodeBase64_of_decodeGroups {value : List Char}
    (h : decodeGroups value = .ok bytes) : encodeBase64 bytes = value := by
  fun_induction decodeGroups value generalizing bytes with
  | case1 =>
    cases h
    rfl
  | case2 a b c d => exact encodeBase64_of_decodeLast h
  | case3 a b c d rest hrest ih =>
    rw [check_bind_eq_ok] at h
    obtain ⟨-, h⟩ := h
    obtain ⟨group, hgroup, h⟩ := bind_eq_ok.mp h
    obtain ⟨others, hothers, h⟩ := bind_eq_ok.mp h
    rw [pure_eq_ok] at h
    subst h
    rw [encodeBase64_of_decodeGroup hgroup, ih hothers]
  | case4 => cases h

lemma decodeGroup_encoded (first second third : UInt8) : decodeGroup (base64Char (first.toNat / 4))
      (base64Char (first.toNat % 4 * 16 + second.toNat / 16))
      (base64Char (second.toNat % 16 * 4 + third.toNat / 64)) (base64Char (third.toNat % 64)) 0 =
      .ok [first, second, third] := by
  have h₁ := first.toNat_lt
  have h₂ := second.toNat_lt
  have h₃ := third.toNat_lt
  rw [decodeGroup, lookup_base64Char (by omega), lookup_base64Char (by omega), ok_bind, ok_bind,
    if_neg (by decide), lookup_base64Char (by omega), ok_bind, if_neg (by decide),
    lookup_base64Char (by omega), ok_bind, pure_eq_ok]
  refine congrArg₂ _ (byte_toNat (by omega)) (congrArg₂ _ (byte_toNat (by omega))
    (congrArg₂ _ (byte_toNat (by omega)) rfl))

lemma decodeGroups_encodeBase64 (bytes : List UInt8) :
    decodeGroups (encodeBase64 bytes) = .ok bytes := by
  fun_induction encodeBase64 bytes with
  | case1 => rfl
  | case2 first =>
    have h₁ := first.toNat_lt
    rw [decodeGroups, if_pos rfl, if_pos ⟨rfl, rfl⟩, decodeGroup, lookup_base64Char (by omega),
      lookup_base64Char (by omega), ok_bind, ok_bind, if_pos rfl, check_bind_eq_ok, pure_eq_ok]
    exact ⟨by omega, congrArg₂ _ (byte_toNat (by omega)) rfl⟩
  | case3 first second =>
    have h₁ := first.toNat_lt
    have h₂ := second.toNat_lt
    have hpad := base64Char_ne_pad (second.toNat % 16 * 4) (by omega)
    rw [decodeGroups, if_pos rfl, if_neg fun h => hpad h.1, if_pos rfl, decodeGroup,
      lookup_base64Char (by omega), lookup_base64Char (by omega), ok_bind, ok_bind,
      if_neg (by decide), lookup_base64Char (by omega), ok_bind, if_pos rfl, check_bind_eq_ok,
      pure_eq_ok]
    exact ⟨by omega, congrArg₂ _ (byte_toNat (by omega)) (congrArg₂ _ (byte_toNat (by omega)) rfl)⟩
  | case4 first second third rest ih =>
    have h₂ := second.toNat_lt
    have h₃ := third.toNat_lt
    have hpad := base64Char_ne_pad (second.toNat % 16 * 4 + third.toNat / 64) (by omega)
    have hpad' := base64Char_ne_pad (third.toNat % 64) (by omega)
    rw [decodeGroups]
    by_cases hrest : encodeBase64 rest = []
    · rw [if_pos hrest, if_neg fun h => hpad h.1, if_neg hpad', decodeGroup_encoded,
        encodeBase64_eq_nil hrest]
    · rw [if_neg hrest, check_bind_eq_ok]
      refine ⟨⟨hpad, hpad'⟩, ?_⟩
      rw [decodeGroup_encoded, ih]
      rfl

lemma length_encodeBase64 (bytes : List UInt8) : (encodeBase64 bytes).length % 4 = 0 := by
  fun_induction encodeBase64 bytes with
  | case1 => rfl
  | case2 => simp
  | case3 => simp
  | case4 first second third rest ih =>
    simp only [List.length_cons]
    omega

/-- Decoding accepts the base64 of some bytes and nothing else. -/
theorem decodeBase64_eq_ok_iff {value : List Char} :
    decodeBase64 value = .ok bytes ↔ encodeBase64 bytes = value := by
  rw [decodeBase64, check_bind_eq_ok]
  constructor
  · rintro ⟨-, h⟩
    exact encodeBase64_of_decodeGroups h
  · rintro rfl
    exact ⟨length_encodeBase64 bytes, decodeGroups_encodeBase64 bytes⟩

end Coforge.Files
