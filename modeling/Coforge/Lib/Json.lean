import Mathlib

/-!
# JSON values and their validation

JSON values as a program sees them after parsing: objects are read, spread and edited by key. A
number is an integer or anything else that JSON can write.

A check is a computation that ends with nothing or the text of an error. The checks of a list
whose elements are told apart by a key are brought down to those of its elements.
-/

/-- A parsed JSON value. A number that is no integer is kept as it was written. -/
inductive Json where
  | null
  | bool (b : Bool)
  | int (n : Int)
  | real (digits : String)
  | str (s : String)
  | arr (items : List Json)
  | obj (fields : List (String × Json))

namespace Json

open List

/-! ### Reading -/

def get? : Json → String → Option Json
  | .obj fields, key => fields.lookup key
  | _, _             => none

@[simp] lemma get?_obj (fields : List (String × Json)) (key : String) :
    (obj fields).get? key = fields.lookup key := rfl

/-- The elements of an array. -/
def items : Option Json → List Json
  | some (.arr xs) => xs
  | _              => []

def text? : Option Json → Option String
  | some (.str s) => some s
  | _             => none

/-- The text of a string. -/
def textOf (value : Option Json) : String := (text? value).getD ""

def natOf : Option Json → Nat
  | some (.int n) => n.toNat
  | _             => 0

def isRecord : Json → Bool
  | .obj _ => true
  | _      => false

/-- The value is this string. -/
def isStr (value : Option Json) (s : String) : Bool :=
  match value with
  | some (.str t) => t = s
  | _             => false

/-- The value is a string that is not empty. -/
def isText (value : Option Json) : Bool :=
  match value with
  | some (.str s) => s ≠ ""
  | _             => false

def isBool : Option Json → Bool
  | some (.bool _) => true
  | _              => false

/-- The value is a safe integer that is not negative. -/
def isInteger (value : Option Json) : Bool :=
  match value with
  | some (.int n) => 0 ≤ n ∧ n ≤ 2 ^ 53 - 1
  | _             => false

/-- A value counts as true. -/
def truthy : Option Json → Bool
  | none             => false
  | some .null       => false
  | some (.bool b)   => b
  | some (.int n)    => n ≠ 0
  | some (.str s)    => s ≠ ""
  | _                => true

mutual

/-- The value as a string: an array is its elements with commas between them, where `null`
stands for nothing. -/
def toText : Json → String
  | .null        => "null"
  | .bool b      => if b then "true" else "false"
  | .int n       => toString n
  | .real digits => digits
  | .str s       => s
  | .arr xs      => ",".intercalate (toTexts xs)
  | .obj _       => "[object Object]"

def toTexts : List Json → List String
  | []         => []
  | .null :: xs => "" :: toTexts xs
  | x :: xs    => x.toText :: toTexts xs

end

/-- A field as a string, where a missing one is `undefined`. -/
def textOrUndefined : Option Json → String
  | none   => "undefined"
  | some v => v.toText

/-! ### Editing -/

/-- The object without a field. -/
def erase : Json → String → Json
  | .obj fields, key => .obj (fields.filter fun f => f.1 ≠ key)
  | j, _             => j

def setField (key : String) (value : Json) : List (String × Json) → List (String × Json)
  | []      => [(key, value)]
  | f :: fs => if f.1 = key then (key, value) :: fs else f :: setField key value fs

/-- The object with a field in the place of the one it replaces, or added last. -/
def set : Json → String → Json → Json
  | .obj fields, key, value => .obj (setField key value fields)
  | j, _, _                 => j

@[simp] lemma isRecord_erase (j : Json) (key : String) : (j.erase key).isRecord = j.isRecord := by
  cases j <;> rfl

@[simp] lemma isRecord_set (j : Json) (key : String) (value : Json) :
    (j.set key value).isRecord = j.isRecord := by
  cases j <;> rfl

lemma lookup_filter (key k : String) (fields : List (String × Json)) :
    (fields.filter fun f => f.1 ≠ key).lookup k = if k = key then none else fields.lookup k := by
  induction fields with
  | nil => simp
  | cons f fields ih =>
    obtain ⟨name, value⟩ := f
    by_cases hname : name = key
    · rw [filter_cons_of_neg (by simpa using hname), ih]
      by_cases hk : k = key
      · rw [if_pos hk, if_pos hk]
      · have hne : (k == name) = false := by simpa [hname] using hk
        rw [if_neg hk, if_neg hk, lookup_cons, hne]
    · rw [filter_cons_of_pos (by simpa using hname), lookup_cons, lookup_cons, ih]
      by_cases hk : k = key
      · have hne : (k == name) = false := by simpa [hk] using Ne.symm hname
        rw [hne, if_pos hk]
      · rw [if_neg hk, if_neg hk]

/-- An erased field is missing, and no other. -/
@[simp] lemma get?_erase (j : Json) (key k : String) :
    (j.erase key).get? k = if k = key then none else j.get? k := by
  cases j with
  | obj fields => exact lookup_filter key k fields
  | _ => simp [erase, get?]

lemma lookup_setField (key k : String) (value : Json) (fields : List (String × Json)) :
    (setField key value fields).lookup k = if k = key then some value else fields.lookup k := by
  induction fields with
  | nil =>
    by_cases hk : k = key
    · simp [setField, hk]
    · simp [setField, hk]
  | cons f fields ih =>
    obtain ⟨name, v⟩ := f
    rw [setField]
    by_cases hname : name = key
    · rw [if_pos hname, lookup_cons, lookup_cons, hname]
      by_cases hk : k = key
      · simp [hk]
      · have hne : (k == key) = false := by simpa using hk
        simp [hk, hne]
    · rw [if_neg hname, lookup_cons, lookup_cons, ih]
      by_cases hk : k = key
      · have hne : (k == name) = false := by simpa [hk] using Ne.symm hname
        rw [hne, if_pos hk]
      · rw [if_neg hk, if_neg hk]

/-- A field that was set has its value, and the others have theirs. -/
lemma get?_set {j : Json} (h : j.isRecord) (key k : String) (value : Json) :
    (j.set key value).get? k = if k = key then some value else j.get? k := by
  cases j with
  | obj fields => exact lookup_setField key k value fields
  | _ => cases h

/-! ### Checks -/

/-- A check passes, or fails with a message. -/
abbrev Check := Except String Unit

def require (ok : Bool) (message : String) : Check :=
  if ok then .ok () else .error message

@[simp] lemma require_eq_ok {ok : Bool} {message : String} : require ok message = .ok () ↔ ok := by
  cases ok <;> simp [require]

@[simp] lemma pure_eq_ok {α : Type} {a b : α} : (pure a : Except String α) = .ok b ↔ a = b :=
  Except.ok.injEq a b ▸ Iff.rfl

/-- What follows a check is reached where it passes. -/
@[simp] lemma bind_eq_ok {α : Type} {x : Check} {f : Unit → Except String α} {a : α} :
    (x >>= f) = .ok a ↔ x = .ok () ∧ f () = .ok a := by
  cases x <;> simp [bind, Except.bind]

/-- A check of a field that may be missing. -/
def ifPresent (value : Option Json) (check : Json → Check) : Check :=
  match value with
  | none   => .ok ()
  | some v => check v

lemma ifPresent_none {check : Json → Check} : ifPresent none check = .ok () := rfl

lemma ifPresent_some {v : Json} {check : Json → Check} : ifPresent (some v) check = check v := rfl

@[simp] lemma ifPresent_eq_ok {value : Option Json} {check : Json → Check} :
    ifPresent value check = .ok () ↔ ∀ v ∈ value, check v = .ok () := by
  cases value <;> simp [ifPresent]

/-- The check of a list: each element is valid, has a key that none before it has, and passes a
further check. -/
def eachDistinct (key : Json → String) (valid : Json → Bool) (message : String)
    (further : Json → Check) : List String → List Json → Check
  | _, []         => .ok ()
  | seen, x :: xs => do
    require (valid x && !seen.contains (key x)) message
    further x
    eachDistinct key valid message further (key x :: seen) xs

section EachDistinct

variable {key : Json → String} {valid : Json → Bool} {message : String} {further : Json → Check}

lemma eachDistinct_seen {seen : List String} {xs : List Json} :
    eachDistinct key valid message further seen xs = .ok () ↔
      (∀ x ∈ xs, valid x ∧ further x = .ok ()) ∧ (xs.map key).Nodup ∧ ∀ x ∈ xs, key x ∉ seen := by
  induction xs generalizing seen with
  | nil => simp [eachDistinct]
  | cons x xs ih =>
    simp only [eachDistinct, bind_eq_ok, require_eq_ok, Bool.and_eq_true, Bool.not_eq_true',
      contains_eq_mem, decide_eq_false_iff_not, ih, forall_mem_cons, map_cons, nodup_cons, mem_map]
    simp only [mem_cons, not_or]
    constructor
    · rintro ⟨⟨hvalid, hseen⟩, hfurther, hall, hnodup, hdisjoint⟩
      refine ⟨⟨⟨hvalid, hfurther⟩, hall⟩, ⟨?_, hnodup⟩, hseen, fun y hy => (hdisjoint y hy).2⟩
      rintro ⟨y, hy, hkey⟩
      exact (hdisjoint y hy).1 hkey
    · rintro ⟨⟨⟨hvalid, hfurther⟩, hall⟩, ⟨hnew, hnodup⟩, hseen, hdisjoint⟩
      refine ⟨⟨hvalid, hseen⟩, hfurther, hall, hnodup, fun y hy => ⟨?_, hdisjoint y hy⟩⟩
      exact fun hkey => hnew ⟨y, hy, hkey⟩

/-- A list passes when its elements do and have keys of their own. -/
lemma eachDistinct_eq_ok {xs : List Json} : eachDistinct key valid message further [] xs = .ok () ↔
      (∀ x ∈ xs, valid x ∧ further x = .ok ()) ∧ (xs.map key).Nodup := by
  rw [eachDistinct_seen]
  simp

end EachDistinct

end Json
