import Mathlib

/-!
# Text that arrives in chunks

A streaming decoder is chunked when cutting its input changes neither the state it ends in nor the
text it gives. The lines of a text are those that a separator ends, next to the unfinished rest;
a text that is read on from that rest has the same lines as the whole (`lines_append`).
-/

/-- A streaming decoder: what is decoded so far and what a next piece adds to it. -/
structure Decoder (σ α β : Type*) where
  start  : σ
  decode : σ → List α → σ × List β
  finish : σ → List β

namespace Decoder

variable {σ α β : Type*}

/-- Decoding two pieces one after the other is decoding them as one. -/
structure Chunked (D : Decoder σ α β) : Prop where
  nil    : ∀ s, D.decode s [] = (s, [])
  append : ∀ s a b, D.decode s (a ++ b) =
    ((D.decode (D.decode s a).1 b).1, (D.decode s a).2 ++ (D.decode (D.decode s a).1 b).2)

/-- The decoder that takes one symbol after the other. -/
def ofStep (start : σ) (step : σ → α → σ × List β) (finish : σ → List β) : Decoder σ α β where
  start
  decode s as := as.foldl (fun (t, text) a => ((step t a).1, text ++ (step t a).2)) (s, [])
  finish

lemma foldl_step (step : σ → α → σ × List β) (s : σ) (text : List β) (as : List α) :
    as.foldl (fun (t, text) a => ((step t a).1, text ++ (step t a).2)) (s, text) =
      ((as.foldl (fun (t, text) a => ((step t a).1, text ++ (step t a).2)) (s, [])).1,
        text ++ (as.foldl (fun (t, text) a => ((step t a).1, text ++ (step t a).2)) (s, [])).2) := by
  induction as generalizing s text with
  | nil => simp
  | cons a as ih =>
    simp only [List.foldl_cons, List.nil_append]
    rw [ih, ih _ (step s a).2]
    simp

lemma chunked_ofStep (start : σ) (step : σ → α → σ × List β) (finish : σ → List β) :
    (ofStep start step finish).Chunked where
  nil _ := rfl
  append s a b := by
    simp only [ofStep, List.foldl_append]
    exact foldl_step step _ _ b

end Decoder

namespace Lines

variable {β : Type*} [DecidableEq β]

/-- The lines that a separator ends, and the rest of the text. -/
def lines (sep : β) : List β → List (List β) × List β
  | []      => ([], [])
  | c :: cs =>
    if c = sep then ([] :: (lines sep cs).1, (lines sep cs).2)
    else match (lines sep cs).1 with
      | []      => ([], c :: (lines sep cs).2)
      | l :: ls => ((c :: l) :: ls, (lines sep cs).2)

@[simp] lemma lines_nil (sep : β) : lines sep [] = ([], []) := rfl

lemma lines_sep (sep : β) (cs : List β) :
    lines sep (sep :: cs) = ([] :: (lines sep cs).1, (lines sep cs).2) := by
  rw [lines, if_pos rfl]

lemma lines_cons_of_nil {sep c : β} {cs : List β} (hc : c ≠ sep) (h : (lines sep cs).1 = []) :
    lines sep (c :: cs) = ([], c :: (lines sep cs).2) := by
  rw [lines, if_neg hc, h]

lemma lines_cons_of_cons {sep c : β} {cs l : List β} {ls : List (List β)} (hc : c ≠ sep)
    (h : (lines sep cs).1 = l :: ls) :
    lines sep (c :: cs) = ((c :: l) :: ls, (lines sep cs).2) := by
  rw [lines, if_neg hc, h]

/-- Reading on from the rest of a text finds the lines of the whole. -/
lemma lines_append (sep : β) (a b : List β) : lines sep (a ++ b) =
      ((lines sep a).1 ++ (lines sep ((lines sep a).2 ++ b)).1,
        (lines sep ((lines sep a).2 ++ b)).2) := by
  induction a with
  | nil => simp
  | cons c cs ih =>
    rw [List.cons_append]
    by_cases hc : c = sep
    · subst hc
      rw [lines_sep, lines_sep, ih, List.cons_append]
    cases h : (lines sep cs).1 with
    | nil =>
      rw [lines_cons_of_nil hc h, List.nil_append, List.cons_append]
      rw [h, List.nil_append] at ih
      cases h' : (lines sep ((lines sep cs).2 ++ b)).1 with
      | nil =>
        have hwhole : (lines sep (cs ++ b)).1 = [] := by rw [ih, h']
        rw [lines_cons_of_nil hc hwhole, lines_cons_of_nil hc h', ih]
      | cons l ls =>
        have hwhole : (lines sep (cs ++ b)).1 = l :: ls := by rw [ih, h']
        rw [lines_cons_of_cons hc hwhole, lines_cons_of_cons hc h', ih]
    | cons l ls =>
      have hwhole : (lines sep (cs ++ b)).1 =
          l :: (ls ++ (lines sep ((lines sep cs).2 ++ b)).1) := by
        rw [ih, h, List.cons_append]
      rw [lines_cons_of_cons hc h, lines_cons_of_cons hc hwhole, ih, List.cons_append]

/-- The rest of a text has no complete line. -/
lemma lines_rest (sep : β) (a : List β) : (lines sep (lines sep a).2).1 = [] := by
  have h := congrArg Prod.fst (lines_append sep a [])
  rw [List.append_nil, List.append_nil] at h
  exact List.self_eq_append_right.mp h

lemma rest_rest (sep : β) (a : List β) : (lines sep (lines sep a).2).2 = (lines sep a).2 := by
  have h := congrArg Prod.snd (lines_append sep a [])
  rw [List.append_nil, List.append_nil] at h
  exact h.symm

end Lines
