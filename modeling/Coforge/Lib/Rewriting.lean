import Mathlib

/-!
# Rewriting the tokens of a text

`replaceFrom` replaces the matches of a pattern from the left, each one after the end of the one
before. A *token* is an opening letter, letters that are no brackets, and a closing letter. Tokens
never overlap, so a text may be cut at any of them, and `rewrite` replaces those that a reader
knows. `cut` gives the matches of a pattern with the texts between them, and `removeAll` these
texts alone.
-/

universe u v w

section Replace

variable {α : Type u} {β : Type v} {γ : Type w}

/-- Replaces what `find` finds, which is the length of a match at the front and the text in its
place. The next `skip` letters belong to a match that is already replaced. -/
def replaceFrom (find : List β → Option (ℕ × List γ)) (keep : β → List γ) : ℕ → List β → List γ
  | _, []            => []
  | skip + 1, _ :: s => replaceFrom find keep skip s
  | 0, b :: s        =>
    match find (b :: s) with
    | some (length, text) => text ++ replaceFrom find keep (length - 1) s
    | none                => keep b ++ replaceFrom find keep 0 s

variable {find : List β → Option (ℕ × List γ)} {keep : β → List γ}

lemma replaceFrom_nil (n : ℕ) : replaceFrom find keep n [] = [] := by
  cases n <;> rfl

lemma replaceFrom_skip (s t : List β) :
    replaceFrom find keep s.length (s ++ t) = replaceFrom find keep 0 t := by
  induction s with
  | nil => rfl
  | cons b s ih => exact ih

variable {s : List β}

lemma replaceFrom_some {b : β} {n : ℕ} {text : List γ} (h : find (b :: s) = some (n, text)) :
    replaceFrom find keep 0 (b :: s) = text ++ replaceFrom find keep (n - 1) s := by
  rw [replaceFrom, h]

lemma replaceFrom_none {b : β} (h : find (b :: s) = none) :
    replaceFrom find keep 0 (b :: s) = keep b ++ replaceFrom find keep 0 s := by
  rw [replaceFrom, h]

lemma replaceFrom_map {find : List β → Option (ℕ × List γ)} {keep : β → List γ} (f : α → β)
    (s : List α) (n : ℕ) : replaceFrom find keep n (s.map f) =
      replaceFrom (fun s => find (s.map f)) (fun a => keep (f a)) n s := by
  induction s generalizing n with
  | nil => rw [List.map_nil, replaceFrom_nil, replaceFrom_nil]
  | cons a s ih =>
    cases n with
    | succ n => exact ih n
    | zero =>
      rw [List.map_cons]
      cases h : find (f a :: s.map f) with
      | none =>
        rw [replaceFrom_none h, replaceFrom_none (by rw [List.map_cons]; exact h), ih]
      | some found =>
        obtain ⟨m, text⟩ := found
        rw [replaceFrom_some h, replaceFrom_some (by rw [List.map_cons]; exact h), ih]

lemma map_replaceFrom {δ : Type*} (g : γ → δ) (s : List β) (n : ℕ) :
    (replaceFrom find keep n s).map g =
      replaceFrom (fun s => (find s).map fun found => (found.1, found.2.map g))
        (fun b => (keep b).map g) n s := by
  induction s generalizing n with
  | nil => rw [replaceFrom_nil, replaceFrom_nil, List.map_nil]
  | cons b s ih =>
    cases n with
    | succ n => exact ih n
    | zero =>
      cases h : find (b :: s) with
      | none =>
        rw [replaceFrom_none h, replaceFrom_none (by rw [h]; rfl), List.map_append, ih]
      | some found =>
        obtain ⟨m, text⟩ := found
        rw [replaceFrom_some h, replaceFrom_some (by rw [h]; rfl), List.map_append, ih]

lemma replaceFrom_keep (h : ∀ t, t <:+ s → find t = none) :
    replaceFrom find keep 0 s = s.flatMap keep := by
  induction s with
  | nil => rfl
  | cons b s ih =>
    rw [replaceFrom_none (h _ (List.suffix_refl _)), List.flatMap_cons,
      ih fun t ht => h t (ht.trans (List.suffix_cons b s))]

end Replace

/-! ### Cutting a text at its matches -/

section Cut

variable {β : Type v}

/-- The matches of a pattern, each behind the text before it, and the text behind the last one. -/
structure Pieces (β : Type v) where
  found : List (List β × List β)
  rest  : List β

namespace Pieces

/-- A letter in front of all. -/
def push (b : β) : Pieces β → Pieces β
  | ⟨[], rest⟩                    => ⟨[], b :: rest⟩
  | ⟨(before, m) :: found, rest⟩ => ⟨(b :: before, m) :: found, rest⟩

/-- A match in front of all. -/
def behind (m : List β) (p : Pieces β) : Pieces β := ⟨([], m) :: p.found, p.rest⟩

/-- The texts between the matches. -/
def gaps (p : Pieces β) : List (List β) := p.found.map Prod.fst ++ [p.rest]

/-- The matches and the texts between them. -/
def join (p : Pieces β) : List β := p.found.flatMap (fun x => x.1 ++ x.2) ++ p.rest

lemma join_push (b : β) (p : Pieces β) : (p.push b).join = b :: p.join := by
  obtain ⟨found, rest⟩ := p
  cases found <;> rfl

lemma join_behind (m : List β) (p : Pieces β) : (p.behind m).join = m ++ p.join := by
  simp only [join, behind, List.flatMap_cons, List.nil_append, List.append_assoc]

lemma flatten_gaps_push (b : β) (p : Pieces β) : (p.push b).gaps.flatten = b :: p.gaps.flatten := by
  obtain ⟨found, rest⟩ := p
  cases found <;> rfl

lemma flatten_gaps_behind (m : List β) (p : Pieces β) :
    (p.behind m).gaps.flatten = p.gaps.flatten := rfl

end Pieces

/-- Cuts a text at the matches that `find` finds, which is the length of one at the front. The next
`skip` letters belong to a match that is already cut out. -/
def cutFrom (find : List β → Option ℕ) : ℕ → List β → Pieces β
  | _, []            => ⟨[], []⟩
  | skip + 1, _ :: s => cutFrom find skip s
  | 0, b :: s        =>
    match find (b :: s) with
    | some n => (cutFrom find (n - 1) s).behind ((b :: s).take n)
    | none   => (cutFrom find 0 s).push b

def cut (find : List β → Option ℕ) (s : List β) : Pieces β := cutFrom find 0 s

/-- The text without its matches. -/
def removeAll (find : List β → Option ℕ) (s : List β) : List β := (cut find s).gaps.flatten

variable {find : List β → Option ℕ}

lemma cutFrom_skip (n : ℕ) (s : List β) : cutFrom find n s = cut find (s.drop n) := by
  induction s generalizing n with
  | nil => rw [List.drop_nil, cut, cutFrom, cutFrom]
  | cons b s ih =>
    cases n with
    | zero => rfl
    | succ n => exact ih n

variable {b : β} {s : List β}

lemma cut_some {n : ℕ} (h : find (b :: s) = some (n + 1)) :
    cut find (b :: s) = (cut find (s.drop n)).behind (b :: s.take n) := by
  rw [cut, cutFrom, h, ← cutFrom_skip]
  rfl

lemma cut_none (h : find (b :: s) = none) : cut find (b :: s) = (cut find s).push b := by
  rw [cut, cutFrom, h]
  rfl

/-- A cut text is put together again when no match is empty. -/
lemma join_cut (hpos : ∀ s, find s ≠ some 0) (s : List β) : (cut find s).join = s := by
  induction hn : s.length using Nat.strong_induction_on generalizing s with
  | h n ih =>
    cases s with
    | nil => rfl
    | cons b s =>
      rw [List.length_cons] at hn
      cases hfind : find (b :: s) with
      | none => rw [cut_none hfind, Pieces.join_push, ih s.length (by omega) s rfl]
      | some m =>
        have hm : m ≠ 0 := fun hzero => hpos _ (hfind.trans (congrArg some hzero))
        obtain ⟨k, rfl⟩ := Nat.exists_eq_succ_of_ne_zero hm
        have hlength : (s.drop k).length < n := by rw [List.length_drop]; omega
        rw [cut_some hfind, Pieces.join_behind, ih _ hlength (s.drop k) rfl, List.cons_append,
          List.take_append_drop]

lemma removeAll_nil : removeAll find [] = [] := rfl

lemma removeAll_some {n : ℕ} (h : find (b :: s) = some (n + 1)) :
    removeAll find (b :: s) = removeAll find (s.drop n) := by
  rw [removeAll, cut_some h, Pieces.flatten_gaps_behind, removeAll]

lemma removeAll_none (h : find (b :: s) = none) :
    removeAll find (b :: s) = b :: removeAll find s := by
  rw [removeAll, cut_none h, Pieces.flatten_gaps_push, removeAll]

/-- A text before a match does not end with a letter that would make the match longer. -/
lemma getLast?_before_ne (hb : ∀ s, (find s).isSome → (find (b :: s)).isSome)
    (s : List β) : (∀ x ∈ (cut find s).found, x.1.getLast? ≠ some b) ∧
      ∀ x ∈ (cut find s).found.head?, x.1 = [] → (find s).isSome := by
  induction hn : s.length using Nat.strong_induction_on generalizing s with
  | h n ih =>
    cases s with
    | nil => exact ⟨by rintro x ⟨⟩, by rintro x ⟨⟩⟩
    | cons c s =>
      rw [List.length_cons] at hn
      cases hfind : find (c :: s) with
      | some m =>
        refine ⟨?_, fun _ _ _ => rfl⟩
        rw [cut, cutFrom, hfind]
        intro x hx
        rcases List.mem_cons.mp hx with rfl | hx
        · simp
        · rw [cutFrom_skip] at hx
          exact (ih _ (by rw [List.length_drop]; omega) (s.drop (m - 1)) rfl).1 x hx
      | none =>
        obtain ⟨hlast, hhead⟩ := ih s.length (by omega) s rfl
        rw [cut_none hfind]
        generalize cut find s = pieces at hlast hhead ⊢
        obtain ⟨found, rest⟩ := pieces
        cases found with
        | nil => exact ⟨by rintro x ⟨⟩, by rintro x ⟨⟩⟩
        | cons first found =>
          obtain ⟨before, m⟩ := first
          refine ⟨fun x hx => ?_, fun x hx => ?_⟩
          · rcases List.mem_cons.mp hx with rfl | hx
            · cases before with
              | nil =>
                intro hc
                obtain rfl : c = b := Option.some.inj hc
                have hsome := hb s (hhead _ rfl rfl)
                rw [hfind] at hsome
                cases hsome
              | cons d before =>
                intro hc
                rw [List.getLast?_cons_cons] at hc
                exact hlast _ List.mem_cons_self hc
            · exact hlast x (List.mem_cons_of_mem _ hx)
          · obtain rfl := Option.some.inj hx
            intro hnil
            cases hnil

end Cut

/-- Letters of which some open a token and some close one. -/
structure Brackets (β : Type u) where
  opens : β → Bool
  closes : β → Bool

namespace Brackets

open List Option

section Tokens

variable {β : Type v} {γ : Type w} (B : Brackets β)

/-- The letters up to the first closing one, if no opening one comes before it. -/
def close : List β → Option (List β)
  | []     => none
  | b :: s => if B.opens b then none else if B.closes b then some [b] else (close s).map (b :: ·)

/-- The token at the front of a text. -/
def front : List β → Option (List β)
  | []     => none
  | b :: s => if B.opens b then (B.close s).map (b :: ·) else none

/-- The text is one token. -/
def Token (w : List β) : Prop := B.front w = some w

/-- A letter of the inside of a token. -/
def Inner (b : β) : Prop := B.opens b = false ∧ B.closes b = false

instance (b : β) : Decidable (B.Inner b) := inferInstanceAs (Decidable (_ ∧ _))

variable {B}

variable {s : List β}

lemma close_cons (b : β) (s : List β) : B.close (b :: s) =
    if B.opens b then none else if B.closes b then some [b] else (B.close s).map (b :: ·) := rfl

lemma close_append {u : List β} (h : B.close s = some u) (t : List β) :
    B.close (s ++ t) = some u := by
  induction s generalizing u with
  | nil => cases h
  | cons b s ih =>
    rw [cons_append, close_cons]
    rw [close_cons] at h
    by_cases ho : B.opens b
    · rw [if_pos ho] at h
      cases h
    · rw [if_neg ho] at h ⊢
      by_cases hc : B.closes b
      · rw [if_pos hc] at h ⊢
        exact h
      · rw [if_neg hc] at h ⊢
        obtain ⟨v, hv, rfl⟩ := map_eq_some_iff.mp h
        rw [ih hv, map_some]

lemma exists_of_close {u : List β} (h : B.close s = some u) :
    ∃ t, s = u ++ t ∧ B.close u = some u ∧ ∀ b ∈ u, B.opens b = false := by
  induction s generalizing u with
  | nil => cases h
  | cons b s ih =>
    rw [close_cons] at h
    by_cases ho : B.opens b
    · rw [if_pos ho] at h
      cases h
    · rw [if_neg ho] at h
      by_cases hc : B.closes b
      · rw [if_pos hc] at h
        cases h
        refine ⟨s, rfl, ?_, ?_⟩
        · rw [close_cons, if_neg ho, if_pos hc]
        · intro b' hb'
          rw [mem_singleton.mp hb']
          exact Bool.not_eq_true _ ▸ ho
      · rw [if_neg hc] at h
        obtain ⟨v, hv, rfl⟩ := map_eq_some_iff.mp h
        obtain ⟨t, rfl, hclose, hopens⟩ := ih hv
        refine ⟨t, rfl, ?_, ?_⟩
        · rw [close_cons, if_neg ho, if_neg hc, hclose, map_some]
        · intro b' hb'
          rcases mem_cons.mp hb' with rfl | hb'
          · exact Bool.not_eq_true _ ▸ ho
          · exact hopens b' hb'

variable {x r : List β}

lemma close_inner {c : β} (hx : ∀ b ∈ x, B.Inner b) (ho : B.opens c = false)
    (hc : B.closes c) : B.close (x ++ c :: r) = some (x ++ [c]) := by
  induction x with
  | nil => rw [nil_append, close_cons, ho, if_neg Bool.false_ne_true, if_pos hc, nil_append]
  | cons b x ih =>
    obtain ⟨hb, hb'⟩ := hx b mem_cons_self
    rw [cons_append, close_cons, hb, hb', if_neg Bool.false_ne_true, if_neg Bool.false_ne_true,
      ih fun a ha => hx a (mem_cons_of_mem b ha), map_some, cons_append]

lemma exists_inner_of_close {u : List β} (h : B.close s = some u) :
    ∃ x c, u = x ++ [c] ∧ B.closes c ∧ ∀ b ∈ x, B.Inner b := by
  induction s generalizing u with
  | nil => cases h
  | cons b s ih =>
    rw [close_cons] at h
    split_ifs at h with ho hc
    · cases h
      exact ⟨[], b, rfl, hc, by simp⟩
    · obtain ⟨v, hv, rfl⟩ := map_eq_some_iff.mp h
      obtain ⟨x, c, rfl, hclose, hx⟩ := ih hv
      refine ⟨b :: x, c, rfl, hclose, ?_⟩
      intro a ha
      rcases mem_cons.mp ha with rfl | ha
      · exact ⟨Bool.not_eq_true _ ▸ ho, Bool.not_eq_true _ ▸ hc⟩
      · exact hx a ha

variable {b : β}

lemma close_of_append_opens {u : List β} (hb : B.opens b)
    (h : B.close (s ++ b :: r) = some u) : B.close s = some u := by
  induction s generalizing u with
  | nil =>
    rw [nil_append, close_cons, if_pos hb] at h
    cases h
  | cons a s ih =>
    rw [cons_append, close_cons] at h
    rw [close_cons]
    by_cases ho : B.opens a
    · rw [if_pos ho] at h
      cases h
    · rw [if_neg ho] at h ⊢
      by_cases hc : B.closes a
      · rw [if_pos hc] at h ⊢
        exact h
      · rw [if_neg hc] at h ⊢
        obtain ⟨v, hv, rfl⟩ := map_eq_some_iff.mp h
        rw [ih hv, map_some]

/-- A token that goes on past a text without a closing letter has the next letter in it. -/
lemma close_of_append_seal {u : List β} (hx : ∀ a ∈ x, B.closes a = false)
    (hb : b ∉ u) (h : B.close (s ++ (x ++ b :: r)) = some u) : B.close s = some u := by
  induction s generalizing u with
  | nil =>
    exfalso
    rw [nil_append] at h
    induction x generalizing u with
    | nil =>
      rw [nil_append, close_cons] at h
      split_ifs at h with ho hc
      · rw [← some.inj h] at hb
        exact hb (mem_singleton_self b)
      · obtain ⟨v, -, rfl⟩ := map_eq_some_iff.mp h
        exact hb mem_cons_self
    | cons a x ih =>
      rw [cons_append, close_cons] at h
      split_ifs at h with ho hc
      · rw [hx a mem_cons_self] at hc
        cases hc
      · obtain ⟨v, hv, rfl⟩ := map_eq_some_iff.mp h
        exact ih (fun a' ha' => hx a' (mem_cons_of_mem a ha'))
          (fun hmem => hb (mem_cons_of_mem a hmem)) hv
  | cons a s ih =>
    rw [cons_append, close_cons] at h
    rw [close_cons]
    by_cases ho : B.opens a
    · rw [if_pos ho] at h
      cases h
    · rw [if_neg ho] at h ⊢
      by_cases hc : B.closes a
      · rw [if_pos hc] at h ⊢
        exact h
      · rw [if_neg hc] at h ⊢
        obtain ⟨v, hv, rfl⟩ := map_eq_some_iff.mp h
        rw [ih (fun hmem => hb (mem_cons_of_mem a hmem)) hv, map_some]

/-- What the token at the front of a text is: an opening letter and the letters that close it. -/
lemma front_cons_eq_some {w : List β} :
    B.front (b :: s) = some w ↔ B.opens b ∧ ∃ u, B.close s = some u ∧ w = b :: u := by
  rw [front]
  by_cases ho : B.opens b
  · rw [if_pos ho, map_eq_some_iff]
    simp only [ho, true_and]
    constructor
    · rintro ⟨u, hu, rfl⟩
      exact ⟨u, hu, rfl⟩
    · rintro ⟨u, hu, rfl⟩
      exact ⟨u, hu, rfl⟩
  · rw [if_neg ho]
    simp [ho]

lemma front_append {w : List β} (h : B.front s = some w) (t : List β) :
    B.front (s ++ t) = some w := by
  cases s with
  | nil => cases h
  | cons b s =>
    obtain ⟨ho, u, hu, rfl⟩ := front_cons_eq_some.mp h
    exact front_cons_eq_some.mpr ⟨ho, u, close_append hu t, rfl⟩

lemma exists_of_front {w : List β} (h : B.front s = some w) : ∃ t, s = w ++ t ∧ B.Token w := by
  cases s with
  | nil => cases h
  | cons b s =>
    obtain ⟨ho, u, hu, rfl⟩ := front_cons_eq_some.mp h
    obtain ⟨t, rfl, hclose, -⟩ := exists_of_close hu
    exact ⟨t, rfl, front_cons_eq_some.mpr ⟨ho, u, hclose, rfl⟩⟩

lemma Token.exists_cons {w : List β} (h : B.Token w) :
    ∃ b u, w = b :: u ∧ B.opens b ∧ ∀ a ∈ u, B.opens a = false := by
  cases w with
  | nil => cases h
  | cons b s =>
    obtain ⟨ho, u, hu, heq⟩ := front_cons_eq_some.mp h
    obtain ⟨-, rfl⟩ := cons.inj heq
    obtain ⟨-, -, -, hopens⟩ := exists_of_close hu
    exact ⟨b, s, rfl, ho, hopens⟩

/-! ### Rewriting -/

variable (B)

/-- Every token that `read` knows is replaced by its text. -/
def rewrite (read : List β → Option (List γ)) (keep : β → List γ) (s : List β) : List γ :=
  replaceFrom (fun s => (B.front s).bind fun w => (read w).map fun text => (w.length, text)) keep 0 s

/-- The tokens of a text, in order. -/
def tokens (s : List β) : List (List β) := B.rewrite (fun w => some [w]) (fun _ => []) s

variable {B} {read : List β → Option (List γ)} {keep : β → List γ}

@[simp] lemma rewrite_nil : B.rewrite read keep [] = [] := rfl

lemma rewrite_cons (h : ∀ w, B.front (b :: s) = some w → read w = none) :
    B.rewrite read keep (b :: s) = keep b ++ B.rewrite read keep s := by
  apply replaceFrom_none
  cases hw : B.front (b :: s) with
  | none => rfl
  | some w =>
    show (read w).map _ = none
    rw [h w hw, map_none]

lemma rewrite_closed (hx : ∀ b ∈ x, B.opens b = false) (r : List β) :
    B.rewrite read keep (x ++ r) = x.flatMap keep ++ B.rewrite read keep r := by
  induction x with
  | nil => rfl
  | cons b x ih =>
    rw [cons_append, rewrite_cons, ih fun a ha => hx a (mem_cons_of_mem b ha),
      flatMap_cons, append_assoc]
    intro w hw
    have hopens := (front_cons_eq_some.mp hw).1
    rw [hx b mem_cons_self] at hopens
    cases hopens

lemma rewrite_front {w : List β} (hw : B.Token w) (r : List β) : B.rewrite read keep (w ++ r) =
      (read w).getD (w.flatMap keep) ++ B.rewrite read keep r := by
  obtain ⟨b, u, rfl, -, hopens⟩ := hw.exists_cons
  have hfront : B.front (b :: (u ++ r)) = some (b :: u) := front_append hw r
  cases hread : read (b :: u) with
  | some text =>
    rw [getD_some, cons_append, rewrite, replaceFrom_some, rewrite]
    rotate_left
    · show (B.front (b :: (u ++ r))).bind _ = some ((b :: u).length, text)
      rw [hfront, bind_some, hread, map_some]
    · rw [length_cons, Nat.add_sub_cancel, replaceFrom_skip]
  | none =>
    rw [getD_none, cons_append, rewrite_cons, rewrite_closed hopens, flatMap_cons, append_assoc]
    intro w' hw'
    rw [hfront] at hw'
    rw [← some.inj hw']
    exact hread

/-- A text may be cut where no token that is read crosses. -/
lemma rewrite_append (h : ∀ t w, t <:+ s → t ≠ [] → B.front (t ++ r) = some w →
    read w ≠ none → B.front t = some w) :
    B.rewrite read keep (s ++ r) = B.rewrite read keep s ++ B.rewrite read keep r := by
  induction hn : s.length using Nat.strong_induction_on generalizing s with
  | _ n ih =>
    cases s with
    | nil => rfl
    | cons b s =>
      rw [cons_append]
      by_cases hknown : ∃ w, B.front (b :: (s ++ r)) = some w ∧ read w ≠ none
      · obtain ⟨w, hw, hread⟩ := hknown
        obtain ⟨t, ht, htoken⟩ := exists_of_front (h _ w (suffix_refl _) (by simp) hw hread)
        obtain ⟨a, u, rfl, -⟩ := htoken.exists_cons
        have hshort : t.length < n := by
          rw [← hn, ht, length_append, length_cons]
          omega
        rw [← cons_append, ht, append_assoc, rewrite_front htoken, rewrite_front htoken,
          ih t.length hshort ?_ rfl, append_assoc]
        intro t' w' hsuffix
        exact h t' w' (hsuffix.trans (ht ▸ suffix_append _ _))
      · have hunknown : ∀ w, B.front (b :: (s ++ r)) = some w → read w = none := by
          intro w hw
          by_contra hread
          exact hknown ⟨w, hw, hread⟩
        rw [rewrite_cons hunknown, rewrite_cons ?_, ih s.length ?_ ?_ rfl, append_assoc]
        · rw [← hn, length_cons]
          omega
        · intro t w hsuffix
          exact h t w (hsuffix.trans (suffix_cons b s))
        · intro w hw
          exact hunknown w (front_append hw r)

lemma rewrite_token {w : List β} (hw : B.Token w) (s r : List β) :
    B.rewrite read keep (s ++ (w ++ r)) = B.rewrite read keep s ++
      ((read w).getD (w.flatMap keep) ++ B.rewrite read keep r) := by
  rw [rewrite_append, rewrite_front hw]
  intro t v _ hne hv _
  obtain ⟨b, u, rfl, hb, -⟩ := hw.exists_cons
  cases t with
  | nil => exact absurd rfl hne
  | cons a t =>
    obtain ⟨ho, v, hclose, rfl⟩ := front_cons_eq_some.mp hv
    exact front_cons_eq_some.mpr ⟨ho, v, close_of_append_opens hb hclose, rfl⟩

/-- A text may be cut before letters of the inside and a letter that no token that is read has. -/
lemma rewrite_seal (hx : ∀ a ∈ x, B.Inner a)
    (hb : ∀ w, B.Token w → b ∈ w → read w = none) (s r : List β) :
    B.rewrite read keep (s ++ (x ++ b :: r)) = B.rewrite read keep s ++
      (x.flatMap keep ++ (keep b ++ B.rewrite read keep r)) := by
  rw [rewrite_append, rewrite_closed fun a ha => (hx a ha).1, rewrite_cons]
  · intro w hw
    obtain ⟨-, -, htoken⟩ := exists_of_front hw
    obtain ⟨-, u, -, rfl⟩ := front_cons_eq_some.mp hw
    exact hb _ htoken mem_cons_self
  · intro t v _ hne hv hread
    cases t with
    | nil => exact absurd rfl hne
    | cons a t =>
      obtain ⟨-, -, htoken⟩ := exists_of_front hv
      obtain ⟨ho, v, hclose, rfl⟩ := front_cons_eq_some.mp hv
      have hmem : b ∉ v := fun hmem => hread (hb _ htoken (mem_cons_of_mem a hmem))
      exact front_cons_eq_some.mpr
        ⟨ho, v, close_of_append_seal (fun a' ha' => (hx a' ha').2) hmem hclose, rfl⟩

/-- Letters that no token that is read has stay where they are, whatever is beside them. -/
lemma rewrite_foreign (hx : ∀ b ∈ x, ∀ w, b ∈ w → read w = none) (hne : x ≠ [])
    (s r : List β) : B.rewrite read keep (s ++ (x ++ r)) =
      B.rewrite read keep s ++ (x.flatMap keep ++ B.rewrite read keep r) := by
  induction x generalizing s with
  | nil => exact absurd rfl hne
  | cons b x ih =>
    have hseal := @rewrite_seal β γ B [] b read keep (by simp)
      fun w _ => hx b mem_cons_self w
    rw [cons_append, flatMap_cons]
    have hcut := hseal s (x ++ r)
    rw [nil_append, flatMap_nil, nil_append] at hcut
    rw [hcut]
    cases x with
    | nil => simp
    | cons a x =>
      have hrest := ih (fun b' hb' => hx b' (mem_cons_of_mem b hb')) (by simp) []
      rw [nil_append, rewrite_nil, nil_append] at hrest
      rw [hrest, append_assoc]

/-! ### The tokens of a text -/

lemma tokens_token {w : List β} (hx : B.tokens x = []) (hw : B.Token w) (r : List β) :
    B.tokens (x ++ (w ++ r)) = w :: B.tokens r := by
  have h := @rewrite_token β (List β) B (fun w => some [w]) (fun _ => []) w hw x r
  rw [← tokens, ← tokens, ← tokens, hx] at h
  exact h

lemma tokens_cons (h : B.tokens (b :: s) = []) : B.front (b :: s) = none ∧ B.tokens s = [] := by
  cases hw : B.front (b :: s) with
  | some w =>
    obtain ⟨t, ht, htoken⟩ := exists_of_front hw
    have h' := @tokens_token β B [] w rfl htoken t
    rw [nil_append, ← ht, h] at h'
    cases h'
  | none =>
    refine ⟨rfl, ?_⟩
    rw [tokens, rewrite_cons (by rw [hw]; rintro w ⟨⟩)] at h
    exact h

lemma rewrite_plain (hx : B.tokens x = []) : B.rewrite read keep x = x.flatMap keep := by
  induction x with
  | nil => rfl
  | cons b x ih =>
    obtain ⟨hfront, hrest⟩ := tokens_cons hx
    rw [rewrite_cons (by rw [hfront]; rintro w ⟨⟩), ih hrest, flatMap_cons]

lemma exists_token (s : List β) : B.tokens s = [] ∨
    ∃ x w r, s = x ++ (w ++ r) ∧ B.tokens x = [] ∧ B.Token w ∧ r.length < s.length := by
  induction s with
  | nil => exact Or.inl rfl
  | cons b s ih =>
    cases hw : B.front (b :: s) with
    | some w =>
      obtain ⟨t, ht, htoken⟩ := exists_of_front hw
      refine Or.inr ⟨[], w, t, ht, rfl, htoken, ?_⟩
      obtain ⟨a, u, rfl, -⟩ := htoken.exists_cons
      rw [ht, length_append, length_cons]
      omega
    | none =>
      have hcons : ∀ x, (∃ t, s = x ++ t) → B.tokens x = [] → B.tokens (b :: x) = [] := by
        rintro x ⟨t, rfl⟩ hx
        rw [tokens, rewrite_cons]
        · exact hx
        · intro w hw'
          have := front_append hw' t
          rw [cons_append, hw] at this
          cases this
      rcases ih with hplain | ⟨x, w, r, rfl, hx, htoken, hlt⟩
      · exact Or.inl (hcons s ⟨[], (append_nil s).symm⟩ hplain)
      · refine Or.inr ⟨b :: x, w, r, rfl, hcons x ⟨_, rfl⟩ hx, htoken, ?_⟩
        rw [length_cons]
        omega

/-- A text is plain, or it is a plain text, a token and the rest. -/
theorem tokenInduction {P : List β → Prop} (plain : ∀ s, B.tokens s = [] → P s)
    (token : ∀ x w r, B.tokens x = [] → B.Token w → P r → P (x ++ (w ++ r))) (s : List β) :
    P s := by
  induction hn : s.length using Nat.strong_induction_on generalizing s with
  | _ n ih =>
    rcases exists_token s with hplain | ⟨x, w, r, rfl, hx, htoken, hlt⟩
    · exact plain s hplain
    · exact token x w r hx htoken (ih r.length (hn ▸ hlt) r rfl)

lemma rewrite_congr {read' : List β → Option (List γ)}
    (h : ∀ w ∈ B.tokens s, (read w).getD (w.flatMap keep) = (read' w).getD (w.flatMap keep)) :
    B.rewrite read keep s = B.rewrite read' keep s := by
  induction s using @tokenInduction β B with
  | plain s hs => rw [rewrite_plain hs, rewrite_plain hs]
  | token x w r hx hw ih =>
    rw [tokens_token hx hw] at h
    rw [rewrite_token hw, rewrite_token hw, rewrite_plain hx, rewrite_plain hx,
      h w mem_cons_self, ih fun w' hw' => h w' (mem_cons_of_mem w hw')]

end Tokens

/-! ### Texts under a map -/

section Map

variable {α : Type u} {β : Type v} {γ : Type w} {B : Brackets β}
  {read : List β → Option (List γ)} {keep : β → List γ}

/-- The letters that become brackets of `B`. -/
def comap (f : α → β) (B : Brackets β) : Brackets α where
  opens a := B.opens (f a)
  closes a := B.closes (f a)

lemma close_map (f : α → β) (s : List α) :
    B.close (s.map f) = ((B.comap f).close s).map (List.map f) := by
  induction s with
  | nil => rfl
  | cons a s ih =>
    rw [map_cons, close_cons, close_cons, ih]
    show _ = Option.map _ (if B.opens (f a) then none else
      if B.closes (f a) then some [a] else ((B.comap f).close s).map (a :: ·))
    split_ifs
    · rfl
    · rfl
    · rw [Option.map_map, Option.map_map]
      rfl

lemma front_map (f : α → β) (s : List α) :
    B.front (s.map f) = ((B.comap f).front s).map (List.map f) := by
  cases s with
  | nil => rfl
  | cons a s =>
    rw [map_cons, front, front, close_map]
    show _ = Option.map _ (if B.opens (f a) then ((B.comap f).close s).map (a :: ·) else none)
    split_ifs
    · rw [Option.map_map, Option.map_map]
      rfl
    · rfl

lemma Token.map {f : α → β} {w : List α} (h : (B.comap f).Token w) : B.Token (w.map f) := by
  rw [Token, front_map, h, map_some]

lemma rewrite_map (f : α → β) (s : List α) : B.rewrite read keep (s.map f) =
    (B.comap f).rewrite (fun w => read (w.map f)) (fun a => keep (f a)) s := by
  rw [rewrite, replaceFrom_map, rewrite]
  congr 1
  funext s
  rw [front_map]
  cases (B.comap f).front s with
  | none => rfl
  | some w =>
    rw [map_some, bind_some, bind_some, length_map]

lemma map_rewrite {δ : Type*} (g : γ → δ) (s : List β) : (B.rewrite read keep s).map g =
    B.rewrite (fun w => (read w).map (List.map g)) (fun b => (keep b).map g) s := by
  rw [rewrite, map_replaceFrom, rewrite]
  congr 1
  funext s
  cases B.front s with
  | none => rfl
  | some w =>
    rw [Option.bind_some, Option.bind_some, Option.map_map, Option.map_map]
    rfl

end Map

end Brackets
