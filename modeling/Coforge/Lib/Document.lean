import Coforge.Lib.Twin
import Mathlib

/-!
# JSON documents and their readers in two languages

A document keeps how a number was written, since typed deserialization takes a number for an integer
only if it was written as one, and JavaScript knows numbers by their values. `Serde` has the typed
readers and `Zod` the schemas. The twins of the last section put the two side by side: a struct may
be an array for the one, an absent member `null`, and a unit variant an object; a whole number may
have a fraction or an exponent for the other.
-/

/-- A parsed document. A number that was not written as an integer is its value. -/
inductive Document where
  | null
  | bool (b : Bool)
  | int (n : Int)
  | float (value : Rat)
  | str (s : String)
  | arr (items : List Document)
  | obj (fields : List (String × Document))

namespace Document

/-- A member of an object. -/
def get? : Document → String → Option Document
  | .obj fields, key => fields.lookup key
  | _, _             => none

@[simp] lemma get?_obj (fields : List (String × Document)) (key : String) :
    (obj fields).get? key = fields.lookup key := rfl

/-- The value of a whole number, however it was written. -/
def integer? : Document → Option Int
  | .int n       => some n
  | .float value => if value.den = 1 then some value.num else none
  | _            => none

/-- A whole number from `0` up to a bound, which is not reached. -/
def natBelow (bound : Nat) (v : Document) : Option Nat :=
  v.integer?.bind fun n => if 0 ≤ n ∧ n < bound then some n.toNat else none

lemma natBelow_eq_some {bound n : Nat} {v : Document} :
    v.natBelow bound = some n ↔ v.integer? = some (n : Int) ∧ n < bound := by
  rw [natBelow, Option.bind_eq_some_iff]
  constructor
  · rintro ⟨k, hk, h⟩
    split_ifs at h with hbound
    cases h
    rw [Int.toNat_of_nonneg hbound.1]
    exact ⟨hk, by omega⟩
  · rintro ⟨hv, hn⟩
    refine ⟨n, hv, ?_⟩
    rw [if_pos ⟨by omega, by omega⟩, Int.toNat_natCast]

def isFloat : Document → Bool
  | .float _ => true
  | _        => false

def isArr : Document → Bool
  | .arr _ => true
  | _      => false

def isObj : Document → Bool
  | .obj _ => true
  | _      => false

def isNull : Document → Bool
  | .null => true
  | _     => false

variable {α : Type}

/-- The elements of a list pass one by one if the list is read and what was read passes. -/
lemma mapM_pass {f : Document → Option α} {check : Document → Bool} {P : α → Prop}
    (h : ∀ v, check v = true ↔ ∃ a, f v = some a ∧ P a) (vs : List Document) :
    vs.all check = true ↔ ∃ as, vs.mapM f = some as ∧ ∀ a ∈ as, P a := by
  induction vs with
  | nil => simp
  | cons v vs ih =>
    rw [List.all_cons, Bool.and_eq_true, h, ih, List.mapM_cons]
    constructor
    · rintro ⟨⟨a, ha, hP⟩, as, has, hall⟩
      exact ⟨a :: as, by simp [ha, has], List.forall_mem_cons.mpr ⟨hP, hall⟩⟩
    · rintro ⟨_, heq, hall⟩
      obtain ⟨a, ha, heq⟩ := Option.bind_eq_some_iff.mp heq
      obtain ⟨as, has, heq⟩ := Option.bind_eq_some_iff.mp heq
      cases heq
      obtain ⟨hP, hall⟩ := List.forall_mem_cons.mp hall
      exact ⟨⟨a, ha, hP⟩, as, has, hall⟩

/-- A check of each element comes before the reading of the list, or beside it. -/
lemma mapM_check {ι : Type} {f g : ι → Option α} {check : ι → Bool}
    (h : ∀ i a, f i = some a ↔ check i = true ∧ g i = some a) (xs : List ι) (as : List α) :
    xs.mapM f = some as ↔ (∀ i ∈ xs, check i = true) ∧ xs.mapM g = some as := by
  induction xs generalizing as with
  | nil => simp
  | cons i xs ih =>
    simp only [List.mapM_cons, Option.bind_eq_bind, Option.bind_eq_some_iff, h, ih,
      List.forall_mem_cons]
    constructor
    · rintro ⟨a, ⟨hi, ha⟩, bs, ⟨hxs, hbs⟩, heq⟩
      exact ⟨⟨hi, hxs⟩, a, ha, bs, hbs, heq⟩
    · rintro ⟨⟨hi, hxs⟩, a, ha, bs, hbs, heq⟩
      exact ⟨a, ⟨hi, ha⟩, bs, ⟨hxs, hbs⟩, heq⟩

lemma mapM_eq_nil {f : Document → Option α} {vs : List Document} :
    vs.mapM f = some [] ↔ vs = [] := by
  cases vs with
  | nil => simp
  | cons v vs =>
    rw [List.mapM_cons]
    cases f v with
    | none => simp
    | some a => cases vs.mapM f <;> simp

end Document

/-! ### Typed deserialization -/

namespace Serde

variable {α : Type}

/-- The members of a struct, by name. -/
abbrev Members : Type := String → Option Document

/-- `u8`, `u32` and `u64`: a number written as an integer, in range. -/
def unsigned (bits : Nat) : Document → Option Nat
  | .int n => if 0 ≤ n ∧ n < 2 ^ bits then some n.toNat else none
  | _      => none

lemma unsigned_eq_some {bits n : Nat} {v : Document} :
    unsigned bits v = some n ↔ v = .int n ∧ n < 2 ^ bits := by
  cases v with
  | int k =>
    rw [unsigned, Document.int.injEq]
    constructor
    · intro h
      split_ifs at h with hbound
      cases h
      have hcast : ((k.toNat : Nat) : Int) = k := Int.toNat_of_nonneg hbound.1
      refine ⟨hcast.symm, ?_⟩
      have hlt : ((k.toNat : Nat) : Int) < 2 ^ bits := by
        rw [hcast]
        exact hbound.2
      exact_mod_cast hlt
    · rintro ⟨rfl, hn⟩
      have hlt : (n : Int) < 2 ^ bits := by exact_mod_cast hn
      rw [if_pos ⟨Int.natCast_nonneg n, hlt⟩, Int.toNat_natCast]
  | _ => simp [unsigned]

def string : Document → Option String
  | .str s => some s
  | _      => none

def bool : Document → Option Bool
  | .bool b => some b
  | _       => none

def items : Document → Option (List Document)
  | .arr xs => some xs
  | _       => none

def vec (read : Document → Option α) (v : Document) : Option (List α) := (items v).bind (·.mapM read)

/-- A variant without fields: its name, or an object from the name to `null`. -/
def unitVariant : Document → Option String
  | .str name           => some name
  | .obj [(name, .null)] => some name
  | _                   => none

/-- A struct is an object, or an array with the members in their order. -/
def struct (names : List String) : Document → Option Members
  | .obj fields => some fun key => fields.lookup key
  | .arr xs     =>
    if xs.length ≤ names.length then some fun key => (names.zip xs).lookup key else none
  | _           => none

/-- A struct with a flattened member is an object only. -/
def map : Document → Option Members
  | .obj fields => some fun key => fields.lookup key
  | _           => none

def required (key : String) (read : Document → Option α) (members : Members) : Option α :=
  (members key).bind read

/-- `Option`: a member that is absent or `null` is `None`. -/
def optional (key : String) (read : Document → Option α) (members : Members) : Option (Option α) :=
  match members key with
  | none       => some none
  | some .null => some none
  | some v     => some <$> read v

end Serde

/-! ### Schemas -/

namespace Zod

/-- A schema checks a value that may be undefined. -/
abbrev Schema : Type := Option Document → Bool

/-- The members of an object schema. -/
abbrev Shape : Type := List (String × Schema)

/-- `z.string().regex(pattern)`. -/
def regex (pattern : String → Bool) : Schema
  | some (.str s) => pattern s
  | _             => false

def string : Schema := regex fun _ => true

/-- `z.string().min(1)`. -/
def text : Schema := regex fun s => s ≠ ""

def literal (s : String) : Schema := regex fun t => t = s

def boolean : Schema
  | some (.bool _) => true
  | _              => false

/-- A number literal. -/
def number (n : Int) : Schema
  | some v => v.integer? = some n
  | none   => false

/-- `z.number().int().positive()`, where only safe integers are integers. -/
def positiveInt : Schema
  | some v => v.integer?.any fun n => 0 < n ∧ n ≤ 2 ^ 53 - 1
  | none   => false

def optional (schema : Schema) : Schema
  | none   => true
  | some v => schema (some v)

/-- `z.never()`. -/
def never : Schema := fun _ => false

def array (schema : Schema) : Schema
  | some (.arr xs) => xs.all fun x => schema (some x)
  | _              => false

/-- `z.array(schema).min(1)`. -/
def nonemptyArray (schema : Schema) : Schema
  | some (.arr xs) => !xs.isEmpty && xs.all fun x => schema (some x)
  | _              => false

/-- An object whose members fit; it may have others. -/
def looseObject (shape : Shape) : Schema
  | some (.obj fields) => shape.all fun f => f.2 (fields.lookup f.1)
  | _                  => false

/-- `{ ...shape, ...others }`. -/
def extend (shape others : Shape) : Shape :=
  shape.filter (fun f => !others.any fun g => g.1 = f.1) ++ others

def union (schemas : List Schema) : Schema := fun v => schemas.any fun schema => schema v

/-! ### What passes -/

variable {o : Option Document}

lemma regex_iff {p : String → Bool} : regex p o = true ↔ ∃ s, o = some (.str s) ∧ p s = true := by
  rcases o with _ | v
  · simp [regex]
  · cases v <;> simp [regex]

lemma literal_iff {s : String} : literal s o = true ↔ o = some (.str s) := by
  simp [literal, regex_iff]

lemma string_iff : string o = true ↔ ∃ s, o = some (.str s) := by
  simp [string, regex_iff]

lemma text_iff : text o = true ↔ ∃ s, o = some (.str s) ∧ s ≠ "" := by
  simp [text, regex_iff]

lemma number_iff {n : Int} : number n o = true ↔ ∃ v, o = some v ∧ v.integer? = some n := by
  cases o <;> simp [number]

lemma boolean_iff : boolean o = true ↔ ∃ b, o = some (.bool b) := by
  rcases o with _ | v
  · simp [boolean]
  · cases v <;> simp [boolean]

lemma positiveInt_iff :
    positiveInt o = true ↔ ∃ v n, o = some v ∧ v.natBelow (2 ^ 53) = some n ∧ 0 < n := by
  rcases o with _ | v
  · simp [positiveInt]
  · simp only [positiveInt, Option.some.injEq, exists_and_left, exists_eq_left',
      Document.natBelow_eq_some]
    cases v.integer? with
    | none => simp
    | some k =>
      simp only [Option.any_some, decide_eq_true_eq, Option.some.injEq]
      constructor
      · rintro ⟨hpos, hmax⟩
        exact ⟨k.toNat, ⟨by omega, by omega⟩, by omega⟩
      · rintro ⟨n, ⟨rfl, hmax⟩, hpos⟩
        omega

lemma optional_iff {schema : Schema} : optional schema o = true ↔ o = none ∨ schema o = true := by
  cases o <;> simp [optional]

lemma looseObject_iff {shape : Shape} :
    looseObject shape o = true ↔ ∃ fields, o = some (.obj fields) ∧
      ∀ f ∈ shape, f.2 (fields.lookup f.1) = true := by
  rcases o with _ | v
  · simp [looseObject]
  · cases v <;> simp [looseObject]

end Zod

/-! ### The two beside each other -/

namespace Twin

open Serde (Members)

variable {α : Type}

/-- A whole number below a bound. One reader wants it written as an integer, and may have a lower
bound. -/
def natural (bits : Nat) (bound : Nat) (h : 2 ^ bits ≤ bound) : Twin Document Nat where
  left := Serde.unsigned bits
  right := Document.natBelow bound
  lenient := Document.natBelow bound
  leftOnly _ := false
  rightOnly v := v.isFloat || v.integer?.any fun n => 2 ^ bits ≤ n
  left_eq v := by
    cases v with
    | int n =>
      simp only [Serde.unsigned, Document.isFloat, Document.integer?, Document.natBelow,
        Option.any_some, Bool.false_or, decide_eq_true_eq, Option.bind_some]
      have hbound : (2 : Int) ^ bits ≤ bound := by exact_mod_cast h
      split_ifs <;> first | rfl | omega
    | _ => rfl
  right_eq _ := rfl

def string : Twin Document String := same Serde.string

def bool : Twin Document Bool := same Serde.bool

/-- An array, element by element. -/
def array (t : Twin Document α) : Twin Document (List α) := (same Serde.items).andThen t.list

/-- A unit variant, of which one reader takes the name only. -/
def unitVariant : Twin Document String where
  left := Serde.unitVariant
  right := Serde.string
  lenient := Serde.unitVariant
  leftOnly := Document.isObj
  rightOnly _ := false
  left_eq _ := rfl
  right_eq v := by cases v <;> rfl

/-- A struct, of which one reader takes objects only. -/
def struct (names : List String) : Twin Document Members where
  left := Serde.struct names
  right := Serde.map
  lenient := Serde.struct names
  leftOnly := Document.isArr
  rightOnly _ := false
  left_eq _ := rfl
  right_eq v := by cases v <;> rfl

def required (key : String) (t : Twin Document α) : Twin Members α where
  left members := Serde.required key t.left members
  right members := Serde.required key t.right members
  lenient members := Serde.required key t.lenient members
  leftOnly members := (members key).any t.leftOnly
  rightOnly members := (members key).any t.rightOnly
  left_eq members := by
    cases h : members key with
    | none => simp [Serde.required, h]
    | some v => simpa [Serde.required, h] using t.left_eq v
  right_eq members := by
    cases h : members key with
    | none => simp [Serde.required, h]
    | some v => simpa [Serde.required, h] using t.right_eq v

/-- A member that may be absent; `null` stands for that in one reader. -/
def optional (key : String) (t : Twin Document α) (hnull : t.right .null = none) :
    Twin Members (Option α) where
  left members := Serde.optional key t.left members
  right members :=
    match members key with
    | none   => some none
    | some v => some <$> t.right v
  lenient members := Serde.optional key t.lenient members
  leftOnly members := (members key).any fun v => v.isNull || t.leftOnly v
  rightOnly members := (members key).any fun v => !v.isNull && t.rightOnly v
  left_eq members := by
    rcases h : members key with _ | v
    · simp [Serde.optional, h]
    · cases v with
      | null => simp [Serde.optional, h, Document.isNull]
      | _ =>
        simp only [Serde.optional, h, Option.any_some, Document.isNull, Bool.not_false,
          Bool.true_and, t.left_eq]
        split_ifs <;> rfl
  right_eq members := by
    rcases h : members key with _ | v
    · simp [Serde.optional, h]
    · cases v with
      | null => simp [Document.isNull, hnull]
      | _ =>
        simp only [Serde.optional, h, Option.any_some, Document.isNull, Bool.false_or, t.right_eq]
        split_ifs <;> rfl

/-! ### What the readers of schemas read -/

section Right

variable {m : Members} {key : String} {v : Document}

lemma string_null : string.right .null = none := rfl

lemma bool_null : bool.right .null = none := rfl

lemma array_null (t : Twin Document α) : (array t).right .null = none := rfl

lemma required_right {t : Twin Document α} {a : α} :
    (required key t).right m = some a ↔ ∃ v, m key = some v ∧ t.right v = some a :=
  Option.bind_eq_some_iff

lemma optional_right {t : Twin Document α} {hnull : t.right .null = none} {o : Option α} :
    (optional key t hnull).right m = some o ↔
      m key = none ∧ o = none ∨ ∃ v a, m key = some v ∧ t.right v = some a ∧ o = some a := by
  change (match m key with
    | none => some none
    | some v => some <$> t.right v) = some o ↔ _
  cases m key with
  | none => simp [eq_comm]
  | some v => simp [eq_comm]

lemma string_right {s : String} : string.right v = some s ↔ v = .str s := by
  cases v <;> simp [string, same, Serde.string]

lemma bool_right {b : Bool} : bool.right v = some b ↔ v = .bool b := by
  cases v <;> simp [bool, same, Serde.bool]

lemma required_string_right {s : String} :
    (required key .string).right m = some s ↔ m key = some (.str s) := by
  simp [required_right, string_right]

lemma required_bool_right {b : Bool} :
    (required key .bool).right m = some b ↔ m key = some (.bool b) := by
  simp [required_right, bool_right]

lemma optional_string_right {o : Option String} :
    (optional key .string string_null).right m = some o ↔ m key = o.map .str := by
  rw [optional_right]
  cases o <;> simp [string_right]

lemma optional_bool_right {o : Option Bool} :
    (optional key .bool bool_null).right m = some o ↔ m key = o.map .bool := by
  rw [optional_right]
  cases o <;> simp [bool_right]

lemma natural_right {bits bound : Nat} {h : 2 ^ bits ≤ bound} {n : Nat} :
    (required key (.natural bits bound h)).right m = some n ↔
      ∃ v, m key = some v ∧ v.natBelow bound = some n :=
  required_right

lemma array_right {t : Twin Document α} {as : List α} :
    (array t).right v = some as ↔ ∃ xs, v = .arr xs ∧ xs.mapM t.right = some as := by
  change (Serde.items v).bind (fun xs => xs.mapM t.right) = some as ↔ _
  cases v <;> simp [Serde.items]

lemma required_number_right {n bits : Nat} (hn : n < 2 ^ bits) :
    (required key (.natural bits (2 ^ bits) le_rfl)).right m = some n ↔
      Zod.number n (m key) = true := by
  rw [natural_right, Zod.number_iff]
  refine exists_congr fun v => and_congr_right fun _ => ?_
  rw [Document.natBelow_eq_some]
  exact and_iff_left hn

end Right

namespace Plain

variable {m : Members} {key : String} {v : Document} {t : Twin Document α} {a : α}

lemma natural {bits bound n : Nat} (h : 2 ^ bits ≤ bound) (hn : n < 2 ^ bits) :
    (Twin.natural bits bound h).Plain (.int n) n := by
  have hread : (Document.int n).natBelow bound = some n :=
    Document.natBelow_eq_some.mpr ⟨rfl, by omega⟩
  refine ⟨hread, rfl, ?_⟩
  have hbound : ¬(2 : Int) ^ bits ≤ n := by exact_mod_cast Nat.not_le.mpr hn
  exact decide_eq_false hbound

lemma string (s : String) : Twin.string.Plain (.str s) s := .same rfl

lemma bool (b : Bool) : Twin.bool.Plain (.bool b) b := .same rfl

lemma struct (names : List String) (fields : List (String × Document)) :
    (Twin.struct names).Plain (.obj fields) fun key => fields.lookup key := ⟨rfl, rfl, rfl⟩

lemma array {xs : List Document} {as : List α} (h : t.list.Plain xs as) :
    (Twin.array t).Plain (.arr xs) as :=
  andThen (t := Twin.same Serde.items) (.same rfl) h

lemma required (hm : m key = some v) (h : t.Plain v a) : (Twin.required key t).Plain m a := by
  constructor
  · change (m key).bind t.lenient = _
    rw [hm]
    exact h.lenient
  · change (m key).any t.leftOnly = _
    rw [hm]
    exact h.leftOnly
  · change (m key).any t.rightOnly = _
    rw [hm]
    exact h.rightOnly

lemma optional {hnull : t.right .null = none} {write : α → Document} {o : Option α}
    (hm : m key = o.map write) (h : ∀ a ∈ o, t.Plain (write a) a) :
    (Twin.optional key t hnull).Plain m o := by
  cases o with
  | none =>
    refine ⟨?_, ?_, ?_⟩
    · change Serde.optional key t.lenient m = _
      rw [Serde.optional, hm]
      rfl
    · change (m key).any _ = _
      rw [hm]
      rfl
    · change (m key).any _ = _
      rw [hm]
      rfl
  | some a =>
    have ha := h a rfl
    have hm' : m key = some (write a) := hm
    have hwrite : (write a).isNull = false := by
      cases hw : write a with
      | null =>
        rw [hw] at ha
        exact nomatch hnull.symm.trans ha.right
      | _ => rfl
    refine ⟨?_, ?_, ?_⟩
    · change Serde.optional key t.lenient m = _
      rw [Serde.optional, hm', ← ha.lenient]
      cases hw : write a with
      | null =>
        rw [hw] at hwrite
        exact nomatch hwrite
      | _ =>
        rw [hw] at ha
        simp [ha.lenient]
    · change (m key).any _ = _
      simp [hm', hwrite, ha.leftOnly]
    · change (m key).any _ = _
      simp [hm', ha.rightOnly]

end Plain

end Twin
