import Mathlib

/-!
# Codecs over a serializer

A codec writes a value to a message and reads it back, checking on either side; a serializer turns
messages to bytes. Where the serializer is faithful, what a decoder makes of the encoded bytes is
what the codec reads from the message it wrote.
-/

namespace Wire

variable {V M B E : Type}

/-- Go on only where a condition holds. -/
def check (c : Prop) [Decidable c] (e : E) : Except E Unit := if c then .ok () else .error e

section Check

variable {c : Prop} [Decidable c] {e : E} {x : V}

@[simp] lemma check_bind_eq_ok {f : Unit → Except E V} :
    (check c e >>= f) = .ok x ↔ c ∧ f () = .ok x := by
  by_cases hc : c <;> simp [check, hc, Bind.bind, Except.bind]

@[simp] lemma check_eq_ok {u : Unit} : (check c e : Except E Unit) = .ok u ↔ c := by
  by_cases hc : c <;> simp [check, hc]

lemma bind_eq_ok {a : Except E M} {f : M → Except E V} :
    (a >>= f) = .ok x ↔ ∃ m, a = .ok m ∧ f m = .ok x := by
  cases a <;> simp [Bind.bind, Except.bind]

lemma ok_bind {m : M} {f : M → Except E V} : (Except.ok m >>= f) = f m := rfl

@[simp] lemma pure_eq_ok {y : V} : (pure y : Except E V) = .ok x ↔ y = x := by
  simp [pure, Except.pure]

lemma forM_eq_ok {α : Type} {f : α → Except E Unit} {l : List α} :
    forM l f = .ok () ↔ ∀ a ∈ l, f a = .ok () := by
  induction l with
  | nil => simp [pure, Except.pure]
  | cons a l ih =>
    rw [List.forM_cons, bind_eq_ok, List.forall_mem_cons, ← ih]
    constructor
    · rintro ⟨_, ha, hl⟩
      exact ⟨ha, hl⟩
    · rintro ⟨ha, hl⟩
      exact ⟨(), ha, hl⟩

lemma mapM_eq_ok {α β : Type} {f : α → Except E β} {g : α → β} {l : List α}
    (h : ∀ a ∈ l, f a = .ok (g a)) : l.mapM f = .ok (l.map g) := by
  induction l with
  | nil => rfl
  | cons a l ih =>
    rw [List.mapM_cons, h a List.mem_cons_self, ih fun b hb => h b (List.mem_cons_of_mem a hb)]
    rfl

end Check

/-! ### Serializers -/

/-- The bytes of messages. -/
structure Serializer (M B E : Type) where
  toBinary : M → Except E B
  fromBinary : B → Except E M

namespace Serializer

variable {w : Serializer M B E}

/-- Every message that is serialized is read back. -/
def Faithful (w : Serializer M B E) : Prop := ∀ m b, w.toBinary m = .ok b → w.fromBinary b = .ok m

/-- A serializer that refuses bytes over a size, on either side. -/
def bounded (w : Serializer M B E) (size : B → Nat) (maximum : Nat) (e : E) : Serializer M B E where
  toBinary m := do
    let b ← w.toBinary m
    check (size b ≤ maximum) e
    return b
  fromBinary b := do
    check (size b ≤ maximum) e
    w.fromBinary b

lemma Faithful.bounded (h : w.Faithful) (size : B → Nat) (maximum : Nat) (e : E) :
    (w.bounded size maximum e).Faithful := by
  intro m b hb
  obtain ⟨b', hb', hchecked⟩ := bind_eq_ok.mp hb
  rw [check_bind_eq_ok, pure_eq_ok] at hchecked
  obtain ⟨hsize, rfl⟩ := hchecked
  exact check_bind_eq_ok.mpr ⟨hsize, h m b' hb'⟩

/-- Every message that is read can be written, in no more bytes than it was read from. -/
def Compact (w : Serializer M B E) (size : B → Nat) : Prop :=
  ∀ b m, w.fromBinary b = .ok m → ∃ b', w.toBinary m = .ok b' ∧ size b' ≤ size b

lemma Compact.bounded {size : B → Nat} (h : w.Compact size) (maximum : Nat) (e : E) :
    (w.bounded size maximum e).Compact size := by
  intro b m hb
  obtain ⟨hsize, hm⟩ := check_bind_eq_ok.mp hb
  obtain ⟨b', hb', hle⟩ := h b m hm
  refine ⟨b', bind_eq_ok.mpr ⟨b', hb', ?_⟩, hle⟩
  rw [check_bind_eq_ok, pure_eq_ok]
  exact ⟨by omega, rfl⟩

end Serializer

/-! ### Vocabularies -/

/-- A type of words, which a message carries as text. -/
class Vocabulary (α : Type) where
  name : α → String
  parse : String → Option α
  parse_name : ∀ a, parse (name a) = some a

section Words

variable {α : Type} [Vocabulary α] {e : E}

/-- The word that a text is. -/
def word (s : String) (e : E) : Except E α :=
  match Vocabulary.parse s with
  | some a => .ok a
  | none => .error e

def optionalWord (s : Option String) (e : E) : Except E (Option α) :=
  match s with
  | none => .ok none
  | some s => (word s e).map some

@[simp] lemma word_name {a : α} : word (Vocabulary.name a) e = .ok a := by
  rw [word, Vocabulary.parse_name]

@[simp] lemma optionalWord_name {a : Option α} :
    optionalWord (a.map Vocabulary.name) e = .ok a := by
  cases a with
  | none => rfl
  | some a =>
    rw [Option.map_some, optionalWord, word_name]
    rfl

end Words

/-! ### Codecs -/

/-- How values are written to messages, and read from them. -/
structure Codec (V M E : Type) where
  write : V → Except E M
  read : M → Except E V

namespace Codec

variable {c : Codec V M E} {w : Serializer M B E}

def encode (c : Codec V M E) (w : Serializer M B E) (v : V) : Except E B := c.write v >>= w.toBinary

def decode (c : Codec V M E) (w : Serializer M B E) (b : B) : Except E V :=
  w.fromBinary b >>= c.read

/-- A codec gives back the values that meet a condition, and no others: it reads the same value from
the message it wrote. -/
def GivesBack (c : Codec V M E) (same : V → V → Prop) (cond : V → Prop) : Prop :=
  ∀ v m, c.write v = .ok m → ((∃ v', c.read m = .ok v' ∧ same v' v) ↔ cond v)

/-- The bytes of a value that meets a condition are decoded as the same value, and the bytes of no
other. -/
def ReadsBack (c : Codec V M E) (w : Serializer M B E) (same : V → V → Prop) (cond : V → Prop) :
    Prop :=
  ∀ v b, c.encode w v = .ok b → ((∃ v', c.decode w b = .ok v' ∧ same v' v) ↔ cond v)

/-- What a codec gives back, a decoder makes of the encoded bytes. -/
theorem GivesBack.readsBack {same : V → V → Prop} {cond : V → Prop} (hc : c.GivesBack same cond)
    (hw : w.Faithful) : c.ReadsBack w same cond := by
  intro v b h
  obtain ⟨m, hm, hb⟩ := bind_eq_ok.mp h
  have hread : c.decode w b = c.read m := by
    rw [Codec.decode, hw m b hb]
    rfl
  rw [hread]
  exact hc v m hm

/-- A codec writes what it has read as the message it read. -/
def WritesBack (c : Codec V M E) : Prop := ∀ m v, c.read m = .ok v → c.write v = .ok m

/-- A value that was decoded is encoded again, and decoded again as it was. -/
def EncodesAgain (c : Codec V M E) (w : Serializer M B E) : Prop :=
  ∀ b v, c.decode w b = .ok v → ∃ b', c.encode w v = .ok b' ∧ c.decode w b' = .ok v

theorem WritesBack.encodesAgain {size : B → Nat} (hc : c.WritesBack) (hw : w.Faithful)
    (hcompact : w.Compact size) : c.EncodesAgain w := by
  intro b v h
  obtain ⟨m, hm, hv⟩ := bind_eq_ok.mp h
  obtain ⟨b', hb', -⟩ := hcompact b m hm
  refine ⟨b', bind_eq_ok.mpr ⟨m, hc m v hv, hb'⟩, bind_eq_ok.mpr ⟨m, hw m b' hb', hv⟩⟩

/-- A codec with one validation, of the message that a value makes, and of a message that is read. -/
def validated (message : V → M) (validate : M → Except E V) : Codec V M E where
  write v := do
    let _ ← validate (message v)
    return message v
  read := validate

/-- Where the validation reads a value as it was, every value that is written is given back. -/
lemma validated_givesBack {message : V → M} {validate : M → Except E V}
    (h : ∀ v v', validate (message v) = .ok v' → v' = v) :
    (validated message validate).GivesBack Eq fun _ => True := by
  intro v m hm
  obtain ⟨v', hv', hm⟩ := bind_eq_ok.mp hm
  rw [pure_eq_ok] at hm
  subst hm
  exact iff_of_true ⟨v', hv', h v v' hv'⟩ trivial

end Codec

end Wire
