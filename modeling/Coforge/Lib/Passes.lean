import Coforge.Lib.Rewriting

/-!
# Passes one after the other

A pass over a text may read what an earlier pass wrote. A text whose letters carry where they are
from tells the two apart: `rewriteStored` leaves alone every token that is not made of stored
letters only, and such passes are one pass (`rewriteStored_writeOut`). `passes_eq_iff` says when
passes that cannot see the difference are one as well.
-/

universe u

/-! ### Stored letters and letters that were brought in -/

/-- A letter of a text, and whether it was stored there or a replacement brought it in. -/
structure Letter (α : Type u) where
  char : α
  stored : Bool

namespace Letter

variable {α : Type u}

def store (a : α) : Letter α := ⟨a, true⟩

def bring (a : α) : Letter α := ⟨a, false⟩

/-- The text without the origins of its letters. -/
def plain (T : List (Letter α)) : List α := T.map char

@[simp] lemma plain_append (T U : List (Letter α)) : plain (T ++ U) = plain T ++ plain U :=
  List.map_append

@[simp] lemma plain_store (s : List α) : plain (s.map store) = s := by
  rw [plain, List.map_map]
  exact List.map_id s

@[simp] lemma plain_bring (s : List α) : plain (s.map bring) = s := by
  rw [plain, List.map_map]
  exact List.map_id s

@[simp] lemma all_store (s : List α) : (s.map store).all stored = true := by
  rw [List.all_map]
  exact List.all_eq_true.mpr fun _ _ => rfl

end Letter

namespace Brackets

open Letter List

variable {α : Type u} (B : Brackets α)

abbrev letters : Brackets (Letter α) := B.comap Letter.char

/-- One pass over a text, which cannot see where a letter is from. -/
def pass (read : List α → Option (List α)) (s : List α) : List α :=
  B.rewrite read (fun a => [a]) s

/-- The stored text with the tokens that `read` knows written out. -/
def writeOut (read : List α → Option (List α)) (s : List α) : List (Letter α) :=
  B.rewrite (fun w => (read w).map (List.map Letter.bring)) (fun a => [Letter.store a]) s

/-- One pass that only reads the tokens made of stored letters. -/
def rewriteStored (read : List α → Option (List α)) (T : List (Letter α)) : List (Letter α) :=
  B.letters.rewrite
    (fun w => if w.all Letter.stored then (read (Letter.plain w)).map (List.map Letter.bring)
      else none)
    (fun x => [x]) T

/-- Every token of the text that `read` knows is made of stored letters. -/
def StoredOnly (read : List α → Option (List α)) (T : List (Letter α)) : Prop :=
  ∀ w ∈ B.letters.tokens T, (read (Letter.plain w)).isSome → w.all Letter.stored

/-- The first reader that knows a token. -/
def either (f g : List α → Option (List α)) : List α → Option (List α) :=
  fun w => (f w).or (g w)

variable {B} {f g read : List α → Option (List α)}

lemma plain_writeOut (s : List α) : Letter.plain (B.writeOut read s) = B.pass read s := by
  rw [plain, writeOut, map_rewrite, pass]
  congr 1
  funext w
  rw [Option.map_map]
  show (read w).map (plain ∘ map bring) = read w
  rw [show plain ∘ map bring = id from funext plain_bring, Option.map_id]
  rfl

lemma plain_rewriteStored (T : List (Letter α)) : Letter.plain (B.rewriteStored read T) =
    B.letters.rewrite (fun w => if w.all Letter.stored then read (Letter.plain w) else none)
      (fun x => [x.char]) T := by
  rw [plain, rewriteStored, map_rewrite]
  congr 1
  funext w
  split_ifs
  · rw [Option.map_map]
    show (read _).map (plain ∘ map bring) = read _
    rw [show plain ∘ map bring = id from funext plain_bring, Option.map_id]
    rfl
  · rfl

lemma pass_plain (T : List (Letter α)) : B.pass read (Letter.plain T) =
    B.letters.rewrite (fun w => read (Letter.plain w)) (fun x => [x.char]) T :=
  rewrite_map char T

/-- On a text whose tokens are stored the two passes agree. -/
lemma pass_plain_of_storedOnly {T : List (Letter α)} (h : B.StoredOnly read T) :
    B.pass read (Letter.plain T) = Letter.plain (B.rewriteStored read T) := by
  rw [pass_plain, plain_rewriteStored]
  apply rewrite_congr
  intro w hw
  by_cases hall : w.all stored
  · rw [if_pos hall]
  · rw [if_neg hall]
    cases hread : read (plain w) with
    | none => rfl
    | some text => exact absurd (h w hw (by rw [hread]; rfl)) hall

/-- Two passes that only read stored letters are one. -/
lemma rewriteStored_writeOut (hf : ∀ w text, f w = some text → text ≠ []) (s : List α) :
    B.rewriteStored g (B.writeOut f s) = B.writeOut (either f g) s := by
  induction s using @tokenInduction α B with
  | plain s hs =>
    have hplain : B.writeOut f s = s.map store := by
      rw [writeOut, rewrite_plain hs]
      exact map_eq_flatMap.symm
    rw [hplain, rewriteStored, rewrite_map, writeOut]
    exact (rewrite_plain hs).trans (rewrite_plain hs).symm
  | token x w r hx hw ih =>
    have hout : ∀ read' : List α → Option (List α), B.writeOut read' (x ++ (w ++ r)) =
        x.map store ++ (((read' w).map (map bring)).getD (w.map store) ++
          B.writeOut read' r) := by
      intro read'
      rw [writeOut, rewrite_token hw, rewrite_plain hx, ← map_eq_flatMap, ← map_eq_flatMap]
      rfl
    have hx' : B.rewriteStored g (x.map store) = x.map store := by
      rw [rewriteStored, rewrite_map, map_eq_flatMap]
      exact rewrite_plain hx
    rw [hout, hout]
    cases hread : f w with
    | some text =>
      -- the letters that are brought in are in no token that the second pass reads
      rw [either, hread, Option.some_or, Option.map_some, Option.getD_some, rewriteStored,
        rewrite_foreign _ (by simpa using hf w text hread), ← rewriteStored, ← rewriteStored, hx', ih,
        flatMap_singleton']
      intro b hb v hv
      obtain ⟨a, -, rfl⟩ := mem_map.mp hb
      rw [if_neg]
      intro hall
      exact Bool.false_ne_true (all_eq_true.mp hall _ hv)
    | none =>
      have hw' : B.letters.Token (w.map store) := Token.map hw
      rw [either, hread, Option.none_or, Option.map_none, Option.getD_none, rewriteStored,
        rewrite_token hw', ← rewriteStored, ← rewriteStored, hx', ih, all_store, if_pos rfl,
        plain_store, flatMap_singleton']

/-! ### Passes one after the other -/

/-- Letters of the inside of a token, then the mark. -/
def Sealed (mark : α) (text : List α) : Prop :=
  ∃ x v, text = x ++ mark :: v ∧ ∀ a ∈ x, B.Inner a

/-- Where the first one has a token with a letter that was brought in, the second text goes on with
the mark. -/
def Strays (mark : α) (T : List (Letter α)) (s : List α) : Prop :=
  ∃ A w R x v, T = A ++ (w ++ R) ∧ B.letters.Token w ∧ w.all Letter.stored = false ∧
    s = Letter.plain A ++ (x ++ mark :: v) ∧ ∀ a ∈ x, B.Inner a

variable {mark : α} {T : List (Letter α)} {s : List α}

lemma Strays.append (h : B.Strays mark T s) (U : List (Letter α)) (t : List α) :
    B.Strays mark (T ++ U) (s ++ t) := by
  obtain ⟨A, w, R, x, v, rfl, hw, hall, rfl, hx⟩ := h
  exact ⟨A, w, R ++ U, x, v ++ t, by simp, hw, hall, by simp, hx⟩

lemma Strays.prepend (h : B.Strays mark T s) (U : List (Letter α)) :
    B.Strays mark (U ++ T) (Letter.plain U ++ s) := by
  obtain ⟨A, w, R, x, v, rfl, hw, hall, rfl, hx⟩ := h
  exact ⟨U ++ A, w, R, x, v, by simp, hw, hall, by simp, hx⟩

/-- The texts differ where the token begins. -/
lemma Strays.ne (h : B.Strays mark T s) (hmark : B.opens mark = false) : Letter.plain T ≠ s := by
  obtain ⟨A, w, R, x, v, rfl, hw, -, rfl, hx⟩ := h
  obtain ⟨b, u, rfl, hb, -⟩ := hw.exists_cons
  intro heq
  rw [plain_append, append_cancel_left_eq] at heq
  cases x with
  | nil =>
    have hchar : b.char = mark := (cons.inj heq).1
    have hb' : B.opens b.char = true := hb
    rw [hchar, hmark] at hb'
    cases hb'
  | cons a x =>
    have hchar : b.char = a := (cons.inj heq).1
    have hb' : B.opens b.char = true := hb
    rw [hchar, (hx a mem_cons_self).1] at hb'
    cases hb'

/-- A pass that reads a letter that was brought in strays from the one that does not. -/
lemma strays_of_not_storedOnly (hsealed : ∀ w text, read w = some text → B.Sealed mark text)
    (h : ¬ B.StoredOnly read T) :
    B.Strays mark (B.rewriteStored read T) (B.pass read (Letter.plain T)) := by
  induction T using @tokenInduction (Letter α) B.letters with
  | plain T hT =>
    refine absurd ?_ h
    intro w hw
    rw [hT] at hw
    cases hw
  | token A w R hA hw ih =>
    have hA' : B.rewriteStored read A = A := by
      rw [rewriteStored, rewrite_plain hA, flatMap_singleton']
    have hlazy : B.rewriteStored read (A ++ (w ++ R)) = A ++
        ((if w.all stored then (read (plain w)).map (map bring)
          else none).getD w ++ B.rewriteStored read R) := by
      rw [rewriteStored, rewrite_token hw, ← rewriteStored, ← rewriteStored, hA',
        flatMap_singleton']
    have hpass : B.pass read (plain (A ++ (w ++ R))) = plain A ++
        ((read (plain w)).getD (plain w) ++ B.pass read (plain R)) := by
      rw [pass_plain, rewrite_token hw, rewrite_plain hA, ← pass_plain, ← map_eq_flatMap,
        ← map_eq_flatMap]
      rfl
    rw [hlazy, hpass]
    by_cases hall : w.all stored
    · -- the token is read alike by both, and the fault lies behind it
      have hR : ¬ B.StoredOnly read R := by
        intro hR
        apply h
        intro w' hw'
        rw [tokens_token hA hw] at hw'
        rcases mem_cons.mp hw' with rfl | hw'
        · intro _
          exact hall
        · exact hR w' hw'
      rw [if_pos hall, ← append_assoc, ← append_assoc]
      cases hread : read (plain w) with
      | none =>
        have hrest := (ih hR).prepend (A ++ w)
        rw [plain_append] at hrest
        exact hrest
      | some text =>
        have hrest := (ih hR).prepend (A ++ text.map bring)
        rw [plain_append, plain_bring] at hrest
        exact hrest
    · rw [if_neg hall, Option.getD_none]
      cases hread : read (plain w) with
      | some text =>
        obtain ⟨x, v, rfl, hx⟩ := hsealed _ text hread
        refine ⟨A, w, B.rewriteStored read R, x, v ++ B.pass read (plain R), rfl, hw,
          Bool.not_eq_true _ ▸ hall, ?_, hx⟩
        rw [Option.getD_some, append_assoc, cons_append]
      | none =>
        have hR : ¬ B.StoredOnly read R := by
          intro hR
          apply h
          intro w' hw' hsome
          rw [tokens_token hA hw] at hw'
          rcases mem_cons.mp hw' with rfl | hw'
          · rw [hread] at hsome
            cases hsome
          · exact hR w' hw' hsome
        rw [Option.getD_none, ← append_assoc, ← append_assoc]
        have hrest := (ih hR).prepend (A ++ w)
        rw [plain_append] at hrest
        exact hrest

/-- Texts that strayed do not meet again. -/
lemma Strays.pass (h : B.Strays mark T s)
    (hsealed : ∀ w text, read w = some text → B.Sealed mark text)
    (hmark : ∀ w, B.Token w → mark ∈ w → read w = none) :
    B.Strays mark (B.rewriteStored read T) (B.pass read s) := by
  obtain ⟨A, w, R, x, v, rfl, hw, hall, rfl, hx⟩ := h
  have hlazy : B.rewriteStored read (A ++ (w ++ R)) =
      B.rewriteStored read A ++ (w ++ B.rewriteStored read R) := by
    rw [rewriteStored, rewrite_token hw, ← rewriteStored, ← rewriteStored, if_neg (by rw [hall]; simp),
      Option.getD_none, flatMap_singleton']
  have hpass : B.pass read (plain A ++ (x ++ mark :: v)) =
      B.pass read (plain A) ++ (x ++ mark :: B.pass read v) := by
    rw [Brackets.pass, rewrite_seal hx hmark, flatMap_singleton', singleton_append,
      ← Brackets.pass, ← Brackets.pass]
  rw [hlazy, hpass]
  by_cases hA : B.StoredOnly read A
  · rw [pass_plain_of_storedOnly hA]
    exact ⟨B.rewriteStored read A, w, _, x, _, rfl, hw, hall, rfl, hx⟩
  · exact (strays_of_not_storedOnly hsealed hA).append _ _

/-- The passes of the readers, one after the other. -/
def passes (B : Brackets α) (reads : List (List α → Option (List α))) (s : List α) : List α :=
  reads.foldl (fun s read => B.pass read s) s

/-- Each reader only finds stored letters in its tokens, when the tokens of the readers before it
are written out. -/
def ReadsStored (B : Brackets α) :
    (List α → Option (List α)) → List (List α → Option (List α)) → List α → Prop
  | _, [], _         => True
  | f, g :: reads, s => B.StoredOnly g (B.writeOut f s) ∧ B.ReadsStored (either f g) reads s

/-- The first of the readers that knows a token. -/
def firstOf (f : List α → Option (List α)) (reads : List (List α → Option (List α))) :
    List α → Option (List α) :=
  reads.foldl either f

/-- The readers' texts are sealed by a mark that none of them reads. -/
structure Marked (B : Brackets α) (mark : α) (reads : List (List α → Option (List α))) : Prop where
  opens : B.opens mark = false
  sealed : ∀ read ∈ reads, ∀ w text, read w = some text → B.Sealed mark text
  unread : ∀ read ∈ reads, ∀ w, B.Token w → mark ∈ w → read w = none

variable {reads : List (List α → Option (List α))}

lemma Marked.tail (h : B.Marked mark (read :: reads)) : B.Marked mark reads :=
  ⟨h.opens, fun r hr => h.sealed r (mem_cons_of_mem _ hr),
    fun r hr => h.unread r (mem_cons_of_mem _ hr)⟩

lemma Sealed.ne_nil {text : List α} (h : B.Sealed mark text) : text ≠ [] := by
  obtain ⟨x, v, rfl, -⟩ := h
  simp

lemma either_ne_nil (hf : ∀ w text, f w = some text → text ≠ [])
    (hg : ∀ w text, g w = some text → text ≠ []) :
    ∀ w text, either f g w = some text → text ≠ [] := by
  intro w text h
  rcases Option.or_eq_some_iff.mp h with h | ⟨-, h⟩
  · exact hf w text h
  · exact hg w text h

lemma Strays.passes (hmarked : B.Marked mark reads)
    (hf : ∀ w text, f w = some text → text ≠ []) {t : List α}
    (h : B.Strays mark (B.writeOut f s) t) :
    B.Strays mark (B.writeOut (firstOf f reads) s) (B.passes reads t) := by
  induction reads generalizing f t with
  | nil => exact h
  | cons g reads ih =>
    have hsealed := hmarked.sealed g mem_cons_self
    refine ih hmarked.tail (either_ne_nil hf fun w text hg => (hsealed w text hg).ne_nil) ?_
    rw [← rewriteStored_writeOut hf]
    exact h.pass hsealed (hmarked.unread g mem_cons_self)

/-- Passes one after the other are one pass just when each of them only reads stored letters. -/
theorem passes_eq_iff (hmarked : B.Marked mark reads) (hf : ∀ w text, f w = some text → text ≠ []) :
    B.passes (f :: reads) s = B.pass (firstOf f reads) s ↔ B.ReadsStored f reads s := by
  show B.passes reads (B.pass f s) = _ ↔ _
  rw [← plain_writeOut, ← plain_writeOut]
  induction reads generalizing f with
  | nil => exact iff_of_true rfl trivial
  | cons g reads ih =>
    have hsealed := hmarked.sealed g mem_cons_self
    have hne := either_ne_nil hf fun w text hg => (hsealed w text hg).ne_nil
    show B.passes reads (B.pass g _) = _ ↔ _
    by_cases hstored : B.StoredOnly g (B.writeOut f s)
    · rw [pass_plain_of_storedOnly hstored, rewriteStored_writeOut hf]
      exact (ih hmarked.tail hne).trans (and_iff_right hstored).symm
    · have hstrays := strays_of_not_storedOnly hsealed hstored
      rw [rewriteStored_writeOut hf] at hstrays
      have hlast := hstrays.passes hmarked.tail hne
      exact iff_of_false (fun heq => hlast.ne hmarked.opens heq.symm) fun h => hstored h.1

end Brackets
