import Coforge.Files.Base64

/-!
# Base64 over UTF-16 units

The program's two functions as they are written: over the units of a string, with shifts and masks,
the digits of a group gathered in one number, and the padding judged from the end of the whole
string. They do what `Files.encodeBase64` and `Files.decodeBase64` do.
-/

namespace Coforge.Files.Units

open Wire List

/-- The character of a unit; the halves of a pair have none of their own. -/
def charAt (u : UInt16) : Char := Char.ofNat u.toNat

def unit (c : Char) : UInt16 := .ofNat c.toNat

def encodeGroup (first : ℕ) (second third : Option ℕ) : List Char :=
  [base64Char (first >>> 2), base64Char ((first &&& 0x03) <<< 4 ||| second.getD 0 >>> 4),
    if second = none then '='
    else base64Char ((second.getD 0 &&& 0x0f) <<< 2 ||| third.getD 0 >>> 6),
    if third = none then '=' else base64Char (third.getD 0 &&& 0x3f)]

def encodeChars : List UInt8 → List Char
  | []                               => []
  | [first]                          => encodeGroup first.toNat none none
  | [first, second]                  => encodeGroup first.toNat (some second.toNat) none
  | first :: second :: third :: rest =>
    encodeGroup first.toNat (some second.toNat) (some third.toNat) ++ encodeChars rest

def encodeBase64 (bytes : List UInt8) : List UInt16 := (encodeChars bytes).map unit

def decodeGroup (padding : ℕ) (group : List UInt16) : Except String (List UInt8) := do
  let digits ← (group.take (4 - padding)).mapM fun u => lookup (charAt u)
  check (padding = 2 → digits.getD 1 0 &&& 0x0f = 0) "Invalid base64 padding"
  check (padding = 1 → digits.getD 2 0 &&& 0x03 = 0) "Invalid base64 padding"
  let group := digits.getD 0 0 <<< 18 ||| digits.getD 1 0 <<< 12 ||| digits.getD 2 0 <<< 6 |||
    digits.getD 3 0
  return ([group >>> 16 &&& 0xff, group >>> 8 &&& 0xff, group &&& 0xff].take (3 - padding)).map
    UInt8.ofNat

def decodeFrom (trailingPadding : ℕ) : List UInt16 → Except String (List UInt8)
  | []                     => .ok []
  | a :: b :: c :: d :: rest => do
    check (rest = [] ∨ ¬(charAt c = '=' ∨ charAt d = '=')) "Invalid base64 padding"
    let bytes ← decodeGroup (if rest = [] then trailingPadding else 0) [a, b, c, d]
    return bytes ++ (← decodeFrom trailingPadding rest)
  | _                      => .error "Invalid base64 length"

/-- `endsWith("==") ? 2 : endsWith("=") ? 1 : 0`. -/
def trailingPadding (value : List UInt16) : ℕ :=
  if [unit '=', unit '='] <:+ value then 2 else if [unit '='] <:+ value then 1 else 0

def decodeBase64 (value : List UInt16) : Except String (List UInt8) := do
  check (value.length % 4 = 0) "Invalid base64 length"
  decodeFrom (trailingPadding value) value

/-! ### Bits -/

lemma or_shift {a b i : ℕ} (hb : b < 2 ^ i) : a <<< i ||| b = a * 2 ^ i + b := by
  rw [← Nat.shiftLeft_add_eq_or_of_lt hb, Nat.shiftLeft_eq]

lemma gathered {a b c d : ℕ} (hb : b < 64) (hc : c < 64) (hd : d < 64) :
    a <<< 18 ||| b <<< 12 ||| c <<< 6 ||| d = ((a * 64 + b) * 64 + c) * 64 + d := by
  have hnest : a <<< 18 ||| b <<< 12 ||| c <<< 6 = ((a <<< 6 ||| b) <<< 6 ||| c) <<< 6 := by
    simp only [Nat.shiftLeft_or_distrib, ← Nat.shiftLeft_add]
  rw [hnest, @or_shift _ d 6 hd, @or_shift _ c 6 hc, @or_shift _ b 6 hb]
  rfl

lemma and_255 (n : ℕ) : n &&& 0xff = n % 256 := Nat.and_two_pow_sub_one_eq_mod n 8

lemma and_15 (n : ℕ) : n &&& 0x0f = n % 16 := Nat.and_two_pow_sub_one_eq_mod n 4

lemma and_3 (n : ℕ) : n &&& 0x03 = n % 4 := Nat.and_two_pow_sub_one_eq_mod n 2

/-! ### Groups -/

lemma lookup_lt {c : Char} {n : ℕ} (h : lookup c = .ok n) : n < 64 :=
  (base64Digit_eq_some (lookup_eq_ok.mp h)).1

/-- The three bytes of the bits of four digits. -/
lemma bytes_eq {a b c d : ℕ} (ha : a < 64) (hb : b < 64) (hc : c < 64) (hd : d < 64) :
    [(a <<< 18 ||| b <<< 12 ||| c <<< 6 ||| d) >>> 16 &&& 0xff,
        (a <<< 18 ||| b <<< 12 ||| c <<< 6 ||| d) >>> 8 &&& 0xff,
        (a <<< 18 ||| b <<< 12 ||| c <<< 6 ||| d) &&& 0xff] =
      [a * 4 + b / 16, b % 16 * 16 + c / 4, c % 4 * 64 + d] := by
  rw [gathered hb hc hd, Nat.shiftRight_eq_div_pow, Nat.shiftRight_eq_div_pow, and_255, and_255,
    and_255]
  refine congrArg₂ _ (by omega) (congrArg₂ _ (by omega) (congrArg₂ _ (by omega) rfl))

lemma decodeGroup_eq (a b c d : UInt16) {padding : ℕ} (hpadding : padding ≤ 2) :
    decodeGroup padding [a, b, c, d] =
      Files.decodeGroup (charAt a) (charAt b) (charAt c) (charAt d) padding := by
  rw [decodeGroup, Files.decodeGroup]
  cases ha : lookup (charAt a) with
  | error e => interval_cases padding <;> simp [ha, bind, Except.bind]
  | ok first =>
    cases hb : lookup (charAt b) with
    | error e => interval_cases padding <;> simp [ha, hb, bind, Except.bind]
    | ok second =>
      have h₁ := lookup_lt ha
      have h₂ := lookup_lt hb
      interval_cases padding
      · cases hc : lookup (charAt c) with
        | error e => simp [ha, hb, hc, bind, Except.bind]
        | ok third =>
          cases hd : lookup (charAt d) with
          | error e => simp [ha, hb, hc, hd, bind, Except.bind]
          | ok fourth =>
            have hbytes := bytes_eq h₁ h₂ (lookup_lt hc) (lookup_lt hd)
            simp [ha, hb, hc, hd, bind, Except.bind, check, pure, Except.pure, hbytes]
      · cases hc : lookup (charAt c) with
        | error e => simp [ha, hb, hc, bind, Except.bind]
        | ok third =>
          have hbytes := bytes_eq h₁ h₂ (lookup_lt hc) (show 0 < 64 by decide)
          simp only [Nat.or_zero, cons.injEq] at hbytes
          simp [ha, hb, hc, bind, Except.bind, check, pure, Except.pure, hbytes, and_3]
      · have hbytes := bytes_eq h₁ h₂ (show 0 < 64 by decide) (show 0 < 64 by decide)
        simp only [Nat.or_zero, Nat.zero_shiftLeft, cons.injEq] at hbytes
        simp [ha, hb, bind, Except.bind, check, pure, Except.pure, hbytes, and_15]

/-! ### Units and characters -/

lemma charAt_unit {c : Char} (h : c.toNat < 2 ^ 16) : charAt (unit c) = c := by
  rw [charAt, unit, UInt16.toNat_ofNat_of_lt' h, Char.ofNat_toNat]

lemma unit_charAt {u : UInt16} (h : charAt u ≠ '\x00') : unit (charAt u) = u := by
  have hnat : (charAt u).toNat = u.toNat := by
    rw [charAt, Char.toNat_ofNat]
    split_ifs with hvalid
    · rfl
    · exact absurd (by rw [charAt, Char.ofNat, dif_neg hvalid]; rfl) h
  rw [unit, hnat, UInt16.ofNat_toNat]

lemma charAt_eq_pad {u : UInt16} : charAt u = '=' ↔ unit '=' = u := by
  constructor
  · intro h
    rw [← h]
    exact unit_charAt (by rw [h]; decide)
  · rintro rfl
    exact charAt_unit (by decide)

lemma trailingPadding_append {group rest : List UInt16} (h : 2 ≤ rest.length) :
    trailingPadding (group ++ rest) = trailingPadding rest := by
  have hsuffix (tail : List UInt16) (htail : tail.length ≤ 2) :
      tail <:+ group ++ rest ↔ tail <:+ rest :=
    ⟨fun hs => suffix_of_suffix_length_le hs (suffix_append _ _) (by omega),
      fun hs => hs.trans (suffix_append _ _)⟩
  simp only [trailingPadding, hsuffix [unit '=', unit '='] le_rfl,
    hsuffix [unit '='] (by decide)]

lemma trailingPadding_group (a b c d : UInt16) : trailingPadding [a, b, c, d] =
    if charAt c = '=' ∧ charAt d = '=' then 2 else if charAt d = '=' then 1 else 0 := by
  simp [trailingPadding, suffix_cons_iff, charAt_eq_pad]

lemma decodeFrom_eq {value : List UInt16} (hlength : value.length % 4 = 0) {padding : ℕ}
    (hpadding : value ≠ [] → padding = trailingPadding value) :
    decodeFrom padding value = decodeGroups (value.map charAt) := by
  fun_induction decodeFrom padding value with
  | case1 => rfl
  | case2 a b c d rest ih =>
    have hpadding := hpadding (cons_ne_nil a _)
    rw [map_cons, map_cons, map_cons, map_cons, decodeGroups]
    cases rest with
    | nil =>
      rw [trailingPadding_group] at hpadding
      have hle : padding ≤ 2 := by
        rw [hpadding]
        split_ifs <;> omega
      have hmap : ([] : List UInt16).map charAt = [] := rfl
      rw [if_pos rfl, if_pos hmap, ← hpadding, decodeGroup_eq a b c d hle]
      simp [check, decodeFrom, bind, Except.bind, pure, Except.pure]
      cases Files.decodeGroup (charAt a) (charAt b) (charAt c) (charAt d) padding <;> simp
    | cons e rest =>
      have hrest : (e :: rest).length % 4 = 0 := by
        simp only [length_cons] at hlength ⊢
        omega
      have hsame : padding = trailingPadding (e :: rest) := by
        rw [hpadding]
        refine @trailingPadding_append [a, b, c, d] (e :: rest) ?_
        simp only [length_cons] at hrest ⊢
        omega
      have hmap : (e :: rest).map charAt ≠ [] := cons_ne_nil _ _
      rw [if_neg hmap, if_neg (cons_ne_nil e rest),
        decodeGroup_eq a b c d (Nat.zero_le 2), ih hrest fun _ => hsame]
      simp [check, not_or]
  | case3 value hnil hgroup =>
    rcases value with _ | ⟨a, _ | ⟨b, _ | ⟨c, _ | ⟨d, rest⟩⟩⟩⟩
    · exact absurd rfl hnil
    · cases hlength
    · cases hlength
    · cases hlength
    · exact absurd rfl (hgroup a b c d rest)

/-! ### Encoding -/

lemma or_two {a b : ℕ} (hb : b < 4) : a <<< 2 ||| b = a * 4 + b := @or_shift a b 2 hb

lemma or_four {a b : ℕ} (hb : b < 16) : a <<< 4 ||| b = a * 16 + b := @or_shift a b 4 hb

lemma encodeChars_eq (bytes : List UInt8) : encodeChars bytes = Files.encodeBase64 bytes := by
  have hhigh (b : UInt8) : b.toNat >>> 4 = b.toNat / 16 := Nat.shiftRight_eq_div_pow _ 4
  have hlow (b : UInt8) : b.toNat >>> 6 = b.toNat / 64 := Nat.shiftRight_eq_div_pow _ 6
  have hfirst (b : UInt8) : b.toNat >>> 2 = b.toNat / 4 := Nat.shiftRight_eq_div_pow _ 2
  have hlast (n : ℕ) : n &&& 0x3f = n % 64 := Nat.and_two_pow_sub_one_eq_mod n 6
  have hlt (b : UInt8) : b.toNat < 256 := b.toNat_lt
  fun_induction Files.encodeBase64 bytes with
  | case1 => rfl
  | case2 first =>
    simp [encodeChars, encodeGroup, hfirst, and_3, Nat.shiftLeft_eq]
  | case3 first second =>
    have h₂ := hlt second
    simp [encodeChars, encodeGroup, hfirst, hhigh, and_3, and_15,
      @or_four _ (second.toNat / 16) (by omega)]
    rw [Nat.shiftLeft_eq]
  | case4 first second third rest ih =>
    have h₂ := hlt second
    have h₃ := hlt third
    simp [encodeChars, encodeGroup, hfirst, hhigh, hlow, hlast, and_3, and_15,
      @or_four _ (second.toNat / 16) (by omega), @or_two _ (third.toNat / 64) (by omega), ih]

lemma base64Char_plain (n : ℕ) : (base64Char n).toNat < 128 ∧ base64Char n ≠ '\x00' := by
  by_cases hn : n < 64
  · revert n
    decide +kernel
  · have hlength : alphabet.length = 64 := by decide +kernel
    rw [base64Char, getD_eq_default _ _ (by omega)]
    decide

lemma encoded_plain {bytes : List UInt8} {c : Char} (hc : c ∈ Files.encodeBase64 bytes) :
    c.toNat < 128 ∧ c ≠ '\x00' := by
  have hpad : ('=' : Char).toNat < 128 ∧ '=' ≠ '\x00' := by decide
  fun_induction Files.encodeBase64 bytes with
  | case1 => cases hc
  | case2 | case3 =>
    simp only [mem_cons, not_mem_nil, or_false] at hc
    rcases hc with rfl | rfl | rfl | rfl <;> first | exact hpad | exact base64Char_plain _
  | case4 first second third rest ih =>
    simp only [mem_cons] at hc
    rcases hc with rfl | rfl | rfl | rfl | hc
    · exact base64Char_plain _
    · exact base64Char_plain _
    · exact base64Char_plain _
    · exact base64Char_plain _
    · exact ih hc

lemma map_charAt_eq {s : List UInt16} {bytes : List UInt8} :
    Files.encodeBase64 bytes = s.map charAt ↔ s = encodeBase64 bytes := by
  rw [encodeBase64, encodeChars_eq]
  constructor
  · intro h
    have hsame : s.map (unit ∘ charAt) = s.map id := by
      refine map_congr_left fun u hu => unit_charAt ?_
      exact (@encoded_plain bytes _ (h ▸ mem_map_of_mem hu)).2
    rw [h, map_map, hsame, map_id]
  · rintro rfl
    have hsame : (Files.encodeBase64 bytes).map (charAt ∘ unit) =
        (Files.encodeBase64 bytes).map id := by
      refine map_congr_left fun c hc => charAt_unit ?_
      exact (encoded_plain hc).1.trans (by decide)
    rw [map_map, hsame, map_id]

/-- Decoding gives back the bytes that were encoded, and accepts no string but their one base64. -/
theorem decodeBase64_exact (s : List UInt16) (bytes : List UInt8) :
    decodeBase64 (encodeBase64 bytes) = .ok bytes ∧
      (decodeBase64 s = .ok bytes ↔ s = encodeBase64 bytes) := by
  have hiff (s : List UInt16) : decodeBase64 s = .ok bytes ↔ s = encodeBase64 bytes := by
    rw [← map_charAt_eq, ← decodeBase64_eq_ok_iff, decodeBase64, Files.decodeBase64,
      check_bind_eq_ok, check_bind_eq_ok, length_map]
    refine and_congr_right fun hlength => ?_
    rw [decodeFrom_eq hlength fun _ => rfl]
  exact ⟨(hiff _).mpr rfl, hiff s⟩

end Coforge.Files.Units
