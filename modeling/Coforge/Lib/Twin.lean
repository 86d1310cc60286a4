import Mathlib

/-!
# Two readers of one format

Two programs read the same inputs, and each takes forms that the other refuses. A twin holds both
readers beside a lenient one, which takes every form that either of them takes, and says of an
input which forms in it belong to one reader only. Each reader is the lenient one less the forms of
the other. Twins are closed under the ways in which readers are built, so the two readers of a
whole format agree on an input exactly if it is nothing even to the lenient reader, or the forms
that only one of them takes are there for both or for neither.
-/

namespace Option

lemma seq_eq_some {α β : Type} {x : Option (α → β)} {y : Option α} {b : β} :
    x <*> y = some b ↔ ∃ f a, x = some f ∧ y = some a ∧ f a = b := by
  cases x <;> cases y <;> simp [Seq.seq]

lemma isSome_filter_iff {α : Type} {o : Option α} {p : α → Bool} :
    (o.filter p).isSome = true ↔ ∃ a, o = some a ∧ p a = true := by
  cases o <;> simp

end Option

namespace Except

lemma isOk_iff {ε : Type} {x : Except ε Unit} : x.isOk = true ↔ x = .ok () := by
  cases x <;> simp [Except.isOk, Except.toBool]

lemma isOk_guard {ε α : Type} {P : Prop} [Decidable P] {e : ε} {x : Except ε α} :
    (if P then .error e else x).isOk = true ↔ ¬P ∧ x.isOk = true := by
  split_ifs with h
  · simp [h, Except.isOk, Except.toBool]
  · simp [h]

lemma isOk_bind {ε α β : Type} {x : Except ε α} {f : α → Except ε β} :
    (x >>= f).isOk = true ↔ ∃ a, x = .ok a ∧ (f a).isOk = true := by
  cases x with
  | ok a =>
    constructor
    · exact fun h => ⟨a, rfl, h⟩
    · rintro ⟨_, ha, h⟩
      obtain rfl := Except.ok.inj ha
      exact h
  | error e =>
    constructor
    · exact fun h => nomatch h
    · rintro ⟨_, ha, _⟩
      exact nomatch ha

/-- What is done for its failures only. -/
lemma isOk_andThen {ε α : Type} {x : Except ε Unit} {y : Except ε α} :
    (x >>= fun _ => y).isOk = true ↔ x.isOk = true ∧ y.isOk = true := by
  cases x with
  | ok _ => exact ⟨fun h => ⟨rfl, h⟩, fun h => h.2⟩
  | error e => exact ⟨nofun, fun h => nomatch h.1⟩

lemma isOk_when {ε : Type} {P : Prop} [Decidable P] {x : Except ε Unit} :
    (if P then x else .ok ()).isOk = true ↔ (P → x.isOk = true) := by
  split_ifs with h
  · simp [h]
  · simp [h, Except.isOk, Except.toBool]

end Except

/-- Two readers of inputs of type `ι` as values of type `α`. -/
structure Twin (ι α : Type) where
  left : ι → Option α
  right : ι → Option α
  lenient : ι → Option α
  leftOnly : ι → Bool
  rightOnly : ι → Bool
  left_eq : ∀ v, left v = if rightOnly v then none else lenient v
  right_eq : ∀ v, right v = if leftOnly v then none else lenient v

namespace Twin

variable {ι κ α β : Type}

/-! ### Agreement -/

/-- The two readers agree on an input exactly if it is nothing even to the lenient one, or has
forms of either reader or of neither. -/
theorem agree_iff (t : Twin ι α) (v : ι) : ((t.left v).isSome ↔ (t.right v).isSome) ↔
      ((t.lenient v).isSome → t.leftOnly v = t.rightOnly v) := by
  rw [t.left_eq, t.right_eq]
  cases t.leftOnly v <;> cases t.rightOnly v <;> cases t.lenient v <;> simp

/-- What both readers accept, they read alike. -/
theorem left_eq_right (t : Twin ι α) {v : ι} {a b : α} (hleft : t.left v = some a)
    (hright : t.right v = some b) : a = b := by
  rw [t.left_eq] at hleft
  rw [t.right_eq] at hright
  split_ifs at hleft hright
  exact Option.some.inj (hleft.symm.trans hright)

/-! ### Ways of building readers -/

/-- Both readers do the same. -/
def same (f : ι → Option α) : Twin ι α where
  left := f
  right := f
  lenient := f
  leftOnly _ := false
  rightOnly _ := false
  left_eq _ := rfl
  right_eq _ := rfl

/-- The readers at a part of the input. -/
def comap (g : κ → ι) (t : Twin ι α) : Twin κ α where
  left v := t.left (g v)
  right v := t.right (g v)
  lenient v := t.lenient (g v)
  leftOnly v := t.leftOnly (g v)
  rightOnly v := t.rightOnly (g v)
  left_eq v := t.left_eq (g v)
  right_eq v := t.right_eq (g v)

def map (f : α → β) (t : Twin ι α) : Twin ι β where
  left v := f <$> t.left v
  right v := f <$> t.right v
  lenient v := f <$> t.lenient v
  leftOnly := t.leftOnly
  rightOnly := t.rightOnly
  left_eq v := by
    rw [t.left_eq]
    split_ifs <;> rfl
  right_eq v := by
    rw [t.right_eq]
    split_ifs <;> rfl

/-- The input is read twice, and a form anywhere in it counts. -/
def seq (t : Twin ι (α → β)) (u : Twin ι α) : Twin ι β where
  left v := t.left v <*> u.left v
  right v := t.right v <*> u.right v
  lenient v := t.lenient v <*> u.lenient v
  leftOnly v := t.leftOnly v || u.leftOnly v
  rightOnly v := t.rightOnly v || u.rightOnly v
  left_eq v := by
    rw [t.left_eq, u.left_eq]
    cases t.rightOnly v <;> cases u.rightOnly v <;> cases t.lenient v <;> rfl
  right_eq v := by
    rw [t.right_eq, u.right_eq]
    cases t.leftOnly v <;> cases u.leftOnly v <;> cases t.lenient v <;> rfl

/-- What the first readers find is read further. -/
def bind (t : Twin ι α) (u : α → Twin ι β) : Twin ι β where
  left v := (t.left v).bind fun a => (u a).left v
  right v := (t.right v).bind fun a => (u a).right v
  lenient v := (t.lenient v).bind fun a => (u a).lenient v
  leftOnly v := t.leftOnly v || (t.lenient v).any fun a => (u a).leftOnly v
  rightOnly v := t.rightOnly v || (t.lenient v).any fun a => (u a).rightOnly v
  left_eq v := by
    rw [t.left_eq]
    cases t.rightOnly v with
    | true => rfl
    | false =>
      cases t.lenient v with
      | none => rfl
      | some a => exact (u a).left_eq v
  right_eq v := by
    rw [t.right_eq]
    cases t.leftOnly v with
    | true => rfl
    | false =>
      cases t.lenient v with
      | none => rfl
      | some a => exact (u a).right_eq v

/-- One reading after the other, on what the first one found. -/
def andThen (t : Twin ι α) (u : Twin α β) : Twin ι β := t.bind fun a => u.comap fun _ => a

/-- Both readers refuse what they read unless it passes. -/
def filter (t : Twin ι α) (p : α → Bool) : Twin ι α where
  left v := (t.left v).filter p
  right v := (t.right v).filter p
  lenient v := (t.lenient v).filter p
  leftOnly := t.leftOnly
  rightOnly := t.rightOnly
  left_eq v := by
    rw [t.left_eq]
    split_ifs <;> rfl
  right_eq v := by
    rw [t.right_eq]
    split_ifs <;> rfl

lemma mapM_eq {f g : ι → Option α} {bad : ι → Bool}
    (h : ∀ v, f v = if bad v then none else g v) (vs : List ι) :
    vs.mapM f = if vs.any bad then none else vs.mapM g := by
  induction vs with
  | nil => rfl
  | cons v vs ih =>
    rw [List.mapM_cons, List.mapM_cons, List.any_cons, ih, h]
    cases bad v with
    | true => rfl
    | false =>
      cases vs.any bad with
      | false => rfl
      | true => cases g v <;> rfl

/-- Only one of the readers looks. -/
def leftChecks (f : ι → Option α) : Twin ι Unit where
  left v := (f v).map fun _ => ()
  right _ := some ()
  lenient _ := some ()
  leftOnly _ := false
  rightOnly v := (f v).isNone
  left_eq v := by cases f v <;> rfl
  right_eq _ := rfl

/-- Each reader has a check of its own. -/
def checks (p q : ι → Bool) : Twin ι Unit where
  left v := if p v then some () else none
  right v := if q v then some () else none
  lenient v := if p v || q v then some () else none
  leftOnly v := p v && !q v
  rightOnly v := q v && !p v
  left_eq v := by cases p v <;> cases q v <;> rfl
  right_eq v := by cases p v <;> cases q v <;> rfl

/-- Each element of a list is read. -/
def list (t : Twin ι α) : Twin (List ι) (List α) where
  left vs := vs.mapM t.left
  right vs := vs.mapM t.right
  lenient vs := vs.mapM t.lenient
  leftOnly vs := vs.any t.leftOnly
  rightOnly vs := vs.any t.rightOnly
  left_eq := mapM_eq t.left_eq
  right_eq := mapM_eq t.right_eq

/-! ### Inputs in a form of both readers -/

/-- The input is read as `a`, and has no form of one reader only. -/
structure Plain (t : Twin ι α) (v : ι) (a : α) : Prop where
  lenient : t.lenient v = some a
  leftOnly : t.leftOnly v = false
  rightOnly : t.rightOnly v = false

namespace Plain

variable {t : Twin ι α} {v : ι} {a : α}

lemma left (h : t.Plain v a) : t.left v = some a := by
  rw [t.left_eq, h.rightOnly, h.lenient]
  rfl

lemma right (h : t.Plain v a) : t.right v = some a := by
  rw [t.right_eq, h.leftOnly, h.lenient]
  rfl

lemma same {f : ι → Option α} (h : f v = some a) : (Twin.same f).Plain v a := ⟨h, rfl, rfl⟩

lemma map (f : α → β) (h : t.Plain v a) : (t.map f).Plain v (f a) := by
  refine ⟨?_, h.leftOnly, h.rightOnly⟩
  change f <$> t.lenient v = _
  rw [h.lenient]
  rfl

lemma seq {t : Twin ι (α → β)} {u : Twin ι α} {f : α → β} (ht : t.Plain v f) (hu : u.Plain v a) :
    (t.seq u).Plain v (f a) := by
  refine ⟨?_, Bool.or_eq_false_iff.mpr ⟨ht.leftOnly, hu.leftOnly⟩,
    Bool.or_eq_false_iff.mpr ⟨ht.rightOnly, hu.rightOnly⟩⟩
  change t.lenient v <*> u.lenient v = _
  rw [ht.lenient, hu.lenient]
  rfl

lemma andThen {u : Twin α β} {b : β} (ht : t.Plain v a) (hu : u.Plain a b) :
    (t.andThen u).Plain v b := by
  constructor
  · change (t.lenient v).bind u.lenient = _
    rw [ht.lenient]
    exact hu.lenient
  · change (t.leftOnly v || (t.lenient v).any u.leftOnly) = _
    rw [ht.leftOnly, ht.lenient]
    exact hu.leftOnly
  · change (t.rightOnly v || (t.lenient v).any u.rightOnly) = _
    rw [ht.rightOnly, ht.lenient]
    exact hu.rightOnly

lemma filter {p : α → Bool} (h : t.Plain v a) (hp : p a = true) : (t.filter p).Plain v a := by
  refine ⟨?_, h.leftOnly, h.rightOnly⟩
  change (t.lenient v).filter p = _
  rw [h.lenient, Option.filter, hp]
  rfl

/-- What was written element by element is read so. -/
lemma list {write : α → ι} {as : List α} (h : ∀ a ∈ as, t.Plain (write a) a) :
    t.list.Plain (as.map write) as := by
  induction as with
  | nil => exact ⟨rfl, rfl, rfl⟩
  | cons a as ih =>
    obtain ⟨ha, has⟩ := List.forall_mem_cons.mp h
    have htail := ih has
    constructor
    · change ((a :: as).map write).mapM t.lenient = _
      rw [List.map_cons, List.mapM_cons, ha.lenient]
      change (do let bs ← (as.map write).mapM t.lenient; pure (a :: bs)) = _
      rw [show (as.map write).mapM t.lenient = some as from htail.lenient]
      rfl
    · change (t.leftOnly (write a) || (as.map write).any t.leftOnly) = false
      exact Bool.or_eq_false_iff.mpr ⟨ha.leftOnly, htail.leftOnly⟩
    · change (t.rightOnly (write a) || (as.map write).any t.rightOnly) = false
      exact Bool.or_eq_false_iff.mpr ⟨ha.rightOnly, htail.rightOnly⟩

end Plain

end Twin
