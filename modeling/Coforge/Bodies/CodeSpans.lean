import Coforge.Lib.Rewriting

/-!
# Code in a message body

`stripCodeSpans` removes the fenced blocks of a body and then the inline code of what is left.
`splitCodeSpans` takes the inline code of each text between two fenced blocks. The two agree unless
a line has an odd number of backticks before a fenced block, so that a span is open there, and
another backtick behind the block closes it in what the first one sees as the same line.
-/

namespace Coforge.Bodies

open List

/-- The backtick. -/
def tick : Char := '\x60'

def fence : List Char := [tick, tick, tick]

/-! ### The two patterns -/

/-- How many characters stand before the first fence of a text. -/
def untilFence : List Char → Option ℕ
  | []     => none
  | c :: s => if (c :: s).take 3 = fence then some 0 else (untilFence s).map (· + 1)

/-- `FENCED_CODE`: the length of a fenced block at the front. -/
def fencedCode (s : List Char) : Option ℕ :=
  if s.take 3 = fence then (untilFence (s.drop 3)).map (· + 6) else none

/-- A character of inline code. -/
def inSpan (c : Char) : Bool := c ≠ tick && c ≠ '\n'

/-- `INLINE_CODE`: the length of inline code at the front. -/
def inlineCode : List Char → Option ℕ
  | []     => none
  | c :: s =>
    if c = tick ∧ (s.dropWhile inSpan).head? = some tick then some ((s.takeWhile inSpan).length + 2)
    else none

/-! ### The two readers -/

/-- Removes fenced and inline code spans so a mention inside a code sample is never counted. -/
def stripCodeSpans (body : List Char) : List Char :=
  removeAll inlineCode (removeAll fencedCode body)

structure BodySegment where
  text : List Char
  code : Bool
  deriving DecidableEq

def prose (text : List Char) : List BodySegment := if text = [] then [] else [⟨text, false⟩]

/-- The segments of a text without fenced blocks. -/
def pushText (text : List Char) : List BodySegment :=
  let pieces := cut inlineCode text
  pieces.found.flatMap (fun x => prose x.1 ++ [⟨x.2, true⟩]) ++ prose pieces.rest

/-- Splits a body into code and non-code segments without dropping a byte. -/
def splitCodeSpans (body : List Char) : List BodySegment :=
  let pieces := cut fencedCode body
  pieces.found.flatMap (fun x => pushText x.1 ++ [⟨x.2, true⟩]) ++ pushText pieces.rest

/-- The text of segments. -/
def written (segments : List BodySegment) : List Char := segments.flatMap BodySegment.text

/-- The text of the segments that are no code. -/
def proseText (segments : List BodySegment) : List Char :=
  written (segments.filter fun segment => !segment.code)

/-! ### Where the two agree -/

def firstLine (s : List Char) : List Char := s.takeWhile (· ≠ '\n')

def lastLine (s : List Char) : List Char := s.rtakeWhile (· ≠ '\n')

/-- A span is open at the end of a text: its last line has an odd number of backticks. -/
def OpenSpan (s : List Char) : Prop := (lastLine s).count tick % 2 = 1

instance (s : List Char) : Decidable (OpenSpan s) := inferInstanceAs (Decidable (_ = _))

/-- No span that is open at the end of a text is closed in the same line behind it. -/
def ClosedWithin : List (List Char) → Prop
  | []         => True
  | s :: texts => (OpenSpan s → tick ∉ firstLine texts.flatten) ∧ ClosedWithin texts

/-! ### The written texts -/

lemma written_append (a b : List BodySegment) : written (a ++ b) = written a ++ written b :=
  flatMap_append

lemma proseText_append (a b : List BodySegment) :
    proseText (a ++ b) = proseText a ++ proseText b := by
  rw [proseText, filter_append, written_append, proseText, proseText]

lemma written_prose (text : List Char) : written (prose text) = text := by
  rw [prose]
  split_ifs with h
  · exact h.symm
  · exact append_nil text

lemma proseText_prose (text : List Char) : proseText (prose text) = text := by
  rw [prose]
  split_ifs with h
  · exact h.symm
  · exact append_nil text

/-- What is written of the gaps and matches of a text, when each gap is split by `f`. -/
lemma written_flatMap {f : List Char → List BodySegment} (hf : ∀ s, written (f s) = s)
    (p : Pieces Char) :
    written (p.found.flatMap (fun x => f x.1 ++ [⟨x.2, true⟩]) ++ f p.rest) = p.join := by
  obtain ⟨found, rest⟩ := p
  induction found with
  | nil => exact hf rest
  | cons x found ih =>
    have hx : written (f x.1 ++ [⟨x.2, true⟩]) = x.1 ++ x.2 := by
      rw [written_append, hf]
      exact congrArg (x.1 ++ ·) (append_nil x.2)
    rw [flatMap_cons, append_assoc, written_append, hx, ih, Pieces.join, Pieces.join,
      flatMap_cons, append_assoc (x.1 ++ x.2)]

lemma proseText_flatMap {f : List Char → List BodySegment} {g : List Char → List Char}
    (hf : ∀ s, proseText (f s) = g s) (p : Pieces Char) :
    proseText (p.found.flatMap (fun x => f x.1 ++ [⟨x.2, true⟩]) ++ f p.rest) =
      p.gaps.flatMap g := by
  obtain ⟨found, rest⟩ := p
  induction found with
  | nil => exact (hf rest).trans (append_nil _).symm
  | cons x found ih =>
    have hx : proseText (f x.1 ++ [⟨x.2, true⟩]) = g x.1 := by
      rw [proseText_append, hf]
      exact append_nil _
    rw [flatMap_cons, append_assoc, proseText_append, hx, ih, Pieces.gaps, Pieces.gaps,
      map_cons, cons_append, flatMap_cons]

lemma inlineCode_ne_zero (s : List Char) : inlineCode s ≠ some 0 := by
  cases s with
  | nil => exact Option.some_ne_none 0 |>.symm
  | cons c s =>
    rw [inlineCode]
    split_ifs
    · intro h
      cases h
    · simp

lemma fencedCode_ne_zero (s : List Char) : fencedCode s ≠ some 0 := by
  rw [fencedCode]
  split_ifs
  · cases untilFence (s.drop 3) <;> simp
  · simp

lemma written_pushText (text : List Char) : written (pushText text) = text :=
  (written_flatMap written_prose _).trans (join_cut inlineCode_ne_zero text)

lemma proseText_pushText (text : List Char) :
    proseText (pushText text) = removeAll inlineCode text := by
  refine (@proseText_flatMap prose id proseText_prose _).trans ?_
  rw [flatMap_id]
  rfl

lemma written_splitCodeSpans (body : List Char) : written (splitCodeSpans body) = body :=
  (written_flatMap written_pushText _).trans (join_cut fencedCode_ne_zero body)

lemma proseText_splitCodeSpans (body : List Char) : proseText (splitCodeSpans body) =
    (cut fencedCode body).gaps.flatMap (removeAll inlineCode) :=
  proseText_flatMap proseText_pushText _

/-! ### Inline code -/

/-- A text without backticks and line breaks. -/
def Plain (s : List Char) : Prop := ∀ c ∈ s, inSpan c = true

variable {c : Char}

lemma ne_of_inSpan (h : inSpan c = true) : c ≠ tick ∧ c ≠ '\n' := by
  simpa [inSpan] using h

variable {s : List Char}

lemma Plain.tick_notMem (h : Plain s) : tick ∉ s :=
  fun hmem => (ne_of_inSpan (h tick hmem)).1 rfl

lemma Plain.newline_notMem (h : Plain s) : '\n' ∉ s :=
  fun hmem => (ne_of_inSpan (h '\n' hmem)).2 rfl

/-- The text without its inline code. -/
def strip (s : List Char) : List Char := removeAll inlineCode s

lemma strip_prose (hc : c ≠ tick) (s : List Char) : strip (c :: s) = c :: strip s :=
  removeAll_none (if_neg fun h => hc h.1)

variable {v : List Char}

lemma takeWhile_plain (hv : Plain v) (hc : inSpan c = false)
    (s : List Char) : (v ++ c :: s).takeWhile inSpan = v ∧ (v ++ c :: s).dropWhile inSpan = c :: s := by
  constructor
  · rw [takeWhile_append_of_pos hv, takeWhile_cons_of_neg (by simp [hc]), append_nil]
  · rw [dropWhile_append_of_pos hv, dropWhile_cons_of_neg (by simp [hc])]

lemma strip_span (hv : Plain v) (s : List Char) : strip (tick :: (v ++ tick :: s)) = strip s := by
  obtain ⟨htake, hdrop⟩ := takeWhile_plain hv (show inSpan tick = false by decide) s
  have hcode : inlineCode (tick :: (v ++ tick :: s)) = some (v.length + 1 + 1) := by
    rw [inlineCode, htake, hdrop]
    exact if_pos ⟨rfl, rfl⟩
  rw [strip, removeAll_some hcode, drop_append, drop_of_length_le (Nat.le_succ _),
    Nat.add_sub_cancel_left]
  rfl

lemma strip_plain (hv : tick ∉ v) (s : List Char) : strip (v ++ s) = v ++ strip s := by
  induction v with
  | nil => rfl
  | cons c v ih =>
    rw [cons_append, strip_prose (ne_of_not_mem_cons hv).symm,
      ih (not_mem_of_not_mem_cons hv), cons_append]

lemma strip_line (hv : Plain v) (s : List Char) :
    strip (tick :: (v ++ '\n' :: s)) = tick :: (v ++ '\n' :: strip s) := by
  obtain ⟨-, hdrop⟩ := takeWhile_plain hv (show inSpan '\n' = false by decide) s
  have hcode : inlineCode (tick :: (v ++ '\n' :: s)) = none := by
    rw [inlineCode, hdrop]
    exact if_neg fun h => absurd h.2 (by simp [tick])
  rw [strip, removeAll_none hcode]
  exact congrArg (tick :: ·) ((strip_plain hv.tick_notMem _).trans
    (congrArg (v ++ ·) (strip_prose (by decide) s)))

lemma strip_last (hv : Plain v) : strip (tick :: v) = tick :: v := by
  have hcode : inlineCode (tick :: v) = none := by
    rw [inlineCode, dropWhile_eq_nil_iff.mpr hv]
    exact if_neg fun h => absurd h.2 (by simp)
  have hplain := strip_plain hv.tick_notMem []
  rw [append_nil] at hplain
  rw [strip, removeAll_none hcode]
  exact congrArg (tick :: ·) (hplain.trans (append_nil v))

/-- A text is read from the left: a character of prose, inline code, a backtick that stays alone in
its line, or one that stays alone at the end. -/
theorem spanInduction {P : List Char → Prop} (nil : P [])
    (prose : ∀ c s, c ≠ tick → P s → P (c :: s))
    (span : ∀ v s, Plain v → P s → P (tick :: (v ++ tick :: s)))
    (line : ∀ v s, Plain v → P s → P (tick :: (v ++ '\n' :: s)))
    (last : ∀ v, Plain v → P (tick :: v)) (s : List Char) : P s := by
  induction hn : s.length using Nat.strong_induction_on generalizing s with
  | h n ih =>
    cases s with
    | nil => exact nil
    | cons c s =>
      rw [length_cons] at hn
      by_cases hc : c = tick
      · subst hc
        have hplain : Plain (s.takeWhile inSpan) := fun c hc => mem_takeWhile_imp hc
        have hsplit := takeWhile_append_dropWhile (p := inSpan) (l := s)
        cases hdrop : s.dropWhile inSpan with
        | nil =>
          rw [hdrop, append_nil] at hsplit
          exact hsplit ▸ last _ hplain
        | cons d t =>
          have hlength : t.length < n := by
            have := congrArg length hsplit
            rw [hdrop, length_append, length_cons] at this
            omega
          have hd : inSpan d = false := by
            simpa [hdrop] using head?_dropWhile_not inSpan s
          have ht := ih _ hlength t rfl
          rw [hdrop] at hsplit
          rw [← hsplit]
          by_cases hdt : d = tick
          · exact hdt ▸ span _ t hplain ht
          · have hdn : d = '\n' := by
              simp only [inSpan, Bool.and_eq_false_iff, decide_eq_false_iff_not, not_not] at hd
              exact hd.resolve_left hdt
            exact hdn ▸ line _ t hplain ht
      · exact prose c s hc (ih _ (by omega) s rfl)

/-! ### Open spans -/

lemma lastLine_of_notMem (h : '\n' ∉ s) : lastLine s = s := by
  refine rtakeWhile_eq_self_iff.mpr fun c hc => ?_
  exact decide_eq_true fun heq => h (heq ▸ hc)

lemma lastLine_concat (s : List Char) (c : Char) :
    lastLine (s ++ [c]) = if c ≠ '\n' then lastLine s ++ [c] else [] := by
  rw [lastLine, rtakeWhile_concat]
  exact if_congr decide_eq_true_iff rfl rfl

lemma lastLine_append (a s : List Char) :
    lastLine (a ++ s) = if '\n' ∈ s then lastLine s else lastLine a ++ s := by
  induction s using reverseRecOn with
  | nil => rw [if_neg not_mem_nil, append_nil, append_nil]
  | append_singleton s c ih =>
    rw [← append_assoc, lastLine_concat, lastLine_concat, ih]
    by_cases hc : c = '\n'
    · simp [hc]
    · have hmem : '\n' ∈ s ++ [c] ↔ '\n' ∈ s := by simp [Ne.symm hc]
      simp only [hmem, ne_eq, hc, not_false_eq_true, if_true]
      split_ifs
      · rfl
      · rw [append_assoc]

lemma openSpan_append {a : List Char} (ha : ¬ OpenSpan a) (s : List Char) :
    OpenSpan (a ++ s) ↔ OpenSpan s := by
  rw [OpenSpan, OpenSpan, lastLine_append]
  split_ifs with hmem
  · rfl
  · rw [OpenSpan] at ha
    rw [count_append, lastLine_of_notMem hmem]
    omega

lemma not_openSpan_nil : ¬ OpenSpan [] := by decide

lemma not_openSpan_singleton (hc : c ≠ tick) : ¬ OpenSpan [c] := by
  have hcount : (lastLine [c]).count tick = 0 := by
    refine count_eq_zero.mpr fun hmem => hc ?_
    exact (mem_singleton.mp (rtakeWhile_suffix _ _ |>.subset hmem)).symm
  rw [OpenSpan, hcount]
  decide

lemma count_plain (hv : Plain v) : v.count tick = 0 :=
  count_eq_zero.mpr hv.tick_notMem

lemma openSpan_last (hv : Plain v) : OpenSpan (tick :: v) := by
  have hline : '\n' ∉ tick :: v := by
    rw [mem_cons, not_or]
    exact ⟨by decide, hv.newline_notMem⟩
  rw [OpenSpan, lastLine_of_notMem hline, count_cons_self, count_plain hv]

lemma not_openSpan_span (hv : Plain v) : ¬ OpenSpan (tick :: (v ++ [tick])) := by
  have hline : '\n' ∉ tick :: (v ++ [tick]) := by
    rw [mem_cons, mem_append, mem_singleton, not_or, not_or]
    exact ⟨by decide, hv.newline_notMem, by decide⟩
  rw [OpenSpan, lastLine_of_notMem hline, count_cons_self, count_append, count_plain hv]
  decide

lemma not_openSpan_line (v : List Char) : ¬ OpenSpan (tick :: (v ++ ['\n'])) := by
  have hline : lastLine ((tick :: v) ++ ['\n']) = [] := by
    rw [lastLine_concat, if_neg (not_not_intro rfl)]
  rw [← cons_append, OpenSpan, hline]
  decide

variable {p : List Char}

lemma strip_append (hp : ¬ OpenSpan p) (s : List Char) : strip (p ++ s) = strip p ++ strip s := by
  induction p using spanInduction with
  | nil => rfl
  | prose c p hc ih =>
    have hp' : ¬ OpenSpan p := fun h =>
      hp ((openSpan_append (not_openSpan_singleton hc) p).mpr h)
    rw [cons_append, strip_prose hc, strip_prose hc, ih hp', cons_append]
  | span v p hv ih =>
    have hp' : ¬ OpenSpan p := by
      intro h
      have happend := (openSpan_append (not_openSpan_span hv) p).mpr h
      rw [cons_append, append_assoc] at happend
      exact hp happend
    rw [cons_append, append_assoc, cons_append, strip_span hv, strip_span hv, ih hp']
  | line v p hv ih =>
    have hp' : ¬ OpenSpan p := by
      intro h
      have happend := (openSpan_append (not_openSpan_line v) p).mpr h
      rw [cons_append, append_assoc] at happend
      exact hp happend
    rw [cons_append, append_assoc, cons_append, strip_line hv, strip_line hv,
      ih hp', cons_append, append_assoc, cons_append]
  | last v hv => exact absurd (openSpan_last hv) hp

/-- A text with an open span ends in the backtick that opens it and what stands behind. -/
lemma OpenSpan.cut (hp : OpenSpan p) : ∃ a u, p = a ++ tick :: u ∧ Plain u ∧ ¬ OpenSpan a := by
  induction p using spanInduction with
  | nil => exact absurd hp not_openSpan_nil
  | prose c p hc ih =>
    have hc' := not_openSpan_singleton hc
    obtain ⟨a, u, rfl, hu, ha⟩ := ih ((openSpan_append hc' p).mp hp)
    exact ⟨c :: a, u, rfl, hu, fun h => ha ((openSpan_append hc' a).mp h)⟩
  | span v p hv ih =>
    have hspan := not_openSpan_span hv
    have heq (s : List Char) : tick :: (v ++ tick :: s) = (tick :: (v ++ [tick])) ++ s := by
      rw [cons_append, append_assoc, singleton_append]
    obtain ⟨a, u, rfl, hu, ha⟩ := ih ((openSpan_append hspan p).mp (heq p ▸ hp))
    refine ⟨tick :: (v ++ tick :: a), u, ?_, hu, fun h => ha ?_⟩
    · rw [cons_append, append_assoc, cons_append]
    · exact (openSpan_append hspan a).mp (heq a ▸ h)
  | line v p hv ih =>
    have hline := not_openSpan_line v
    have heq (s : List Char) : tick :: (v ++ '\n' :: s) = (tick :: (v ++ ['\n'])) ++ s := by
      rw [cons_append, append_assoc, singleton_append]
    obtain ⟨a, u, rfl, hu, ha⟩ := ih ((openSpan_append hline p).mp (heq p ▸ hp))
    refine ⟨tick :: (v ++ '\n' :: a), u, ?_, hu, fun h => ha ?_⟩
    · rw [cons_append, append_assoc, cons_append]
    · exact (openSpan_append hline a).mp (heq a ▸ h)
  | last v hv => exact ⟨[], v, rfl, hv, not_openSpan_nil⟩

/-! ### Behind an open span -/

lemma firstLine_append (hv : '\n' ∉ v) (s : List Char) : firstLine (v ++ s) = v ++ firstLine s :=
  takeWhile_append_of_pos fun _ hc => decide_eq_true fun heq => hv (heq ▸ hc)

lemma firstLine_newline (s : List Char) : firstLine ('\n' :: s) = [] :=
  takeWhile_cons_of_neg (by decide)

lemma firstLine_cons (hc : c ≠ '\n') (s : List Char) :
    firstLine (c :: s) = c :: firstLine s := takeWhile_cons_of_pos (decide_eq_true hc)

lemma firstLine_cases (s : List Char) : '\n' ∉ firstLine s ∧
    (firstLine s = s ∨ ∃ t, s = firstLine s ++ '\n' :: t) := by
  induction s with
  | nil => exact ⟨not_mem_nil, Or.inl rfl⟩
  | cons c s ih =>
    by_cases hc : c = '\n'
    · rw [hc, firstLine_newline]
      exact ⟨not_mem_nil, Or.inr ⟨s, rfl⟩⟩
    · rw [firstLine_cons hc, mem_cons, not_or]
      refine ⟨⟨Ne.symm hc, ih.1⟩, ?_⟩
      rcases ih.2 with heq | ⟨t, heq⟩
      · exact Or.inl (congrArg (c :: ·) heq)
      · exact Or.inr ⟨t, congrArg (c :: ·) heq⟩

lemma strip_open {u : List Char} (hu : Plain u) (hs : tick ∉ firstLine s) :
    strip (tick :: (u ++ s)) = tick :: (u ++ strip s) := by
  obtain ⟨hnewline, hsplit⟩ := firstLine_cases s
  have hplain : Plain (u ++ firstLine s) := by
    intro c hc
    rcases mem_append.mp hc with hc | hc
    · exact hu c hc
    · have hn : c ≠ '\n' := fun heq => hnewline (heq ▸ hc)
      have ht : c ≠ tick := fun heq => hs (heq ▸ hc)
      simp [inSpan, hn, ht]
  rcases hsplit with hline | ⟨t, hline⟩
  · have hstrip := strip_plain (hline ▸ hs) []
    rw [append_nil] at hstrip
    rw [hline] at hplain
    rw [strip_last hplain, hstrip]
    exact congrArg (fun t => tick :: (u ++ t)) (append_nil s).symm
  · rw [hline, ← append_assoc, strip_line hplain, strip_plain hs,
      strip_prose (by decide), append_assoc]

lemma exists_tick (h : tick ∈ firstLine s) : ∃ v t, s = v ++ tick :: t ∧ Plain v := by
  induction s with
  | nil => cases h
  | cons c s ih =>
    by_cases hn : c = '\n'
    · rw [hn, firstLine_newline] at h
      cases h
    · by_cases ht : c = tick
      · exact ⟨[], s, by rw [ht, nil_append], by rintro x ⟨⟩⟩
      · rw [firstLine_cons hn, mem_cons, or_iff_right (Ne.symm ht)] at h
        obtain ⟨v, t, rfl, hv⟩ := ih h
        refine ⟨c :: v, t, rfl, fun x hx => ?_⟩
        rcases mem_cons.mp hx with rfl | hx
        · simp [inSpan, hn, ht]
        · exact hv x hx

/-! ### What stands behind the last backtick of a line -/

/-- How many characters of the first line stand behind its last backtick. -/
def tailLength (s : List Char) : ℕ := ((firstLine s).rtakeWhile (· ≠ tick)).length

lemma rtakeWhile_append_cons {a b : List Char} :
    (a ++ tick :: b).rtakeWhile (· ≠ tick) = b.rtakeWhile (· ≠ tick) := by
  induction b using reverseRecOn with
  | nil => rw [rtakeWhile_concat_neg _ _ _ (by simp), rtakeWhile_nil]
  | append_singleton b c ih =>
    rw [← cons_append, ← append_assoc, rtakeWhile_concat, rtakeWhile_concat, ih]

lemma length_rtakeWhile_cons_le (c : Char) (s : List Char) :
    ((c :: s).rtakeWhile (· ≠ tick)).length ≤ (s.rtakeWhile (· ≠ tick)).length + 1 := by
  induction s using reverseRecOn with
  | nil => exact (rtakeWhile_suffix _ _).length_le
  | append_singleton s d ih =>
    rw [← cons_append, rtakeWhile_concat, rtakeWhile_concat]
    split_ifs
    · rw [length_append, length_append]
      omega
    · exact Nat.zero_le _

lemma tailLength_tick (hv : Plain v) (s : List Char) :
    tailLength (v ++ tick :: s) = tailLength s := by
  rw [tailLength, firstLine_append hv.newline_notMem, firstLine_cons (by decide),
    rtakeWhile_append_cons, tailLength]

lemma tailLength_cons_tick (s : List Char) : tailLength (tick :: s) = tailLength s :=
  @tailLength_tick [] (by rintro c ⟨⟩) s

lemma tailLength_newline (s : List Char) : tailLength ('\n' :: s) = 0 := by
  rw [tailLength, firstLine_newline]
  rfl

lemma tailLength_line (hv : Plain v) (hs : firstLine s = []) : tailLength (v ++ s) = v.length := by
  rw [tailLength, firstLine_append hv.newline_notMem, hs, append_nil,
    rtakeWhile_eq_self_iff.mpr fun c hc => decide_eq_true (ne_of_inSpan (hv c hc)).1]

lemma tailLength_cons_le (c : Char) (s : List Char) : tailLength (c :: s) ≤ tailLength s + 1 := by
  by_cases hn : c = '\n'
  · rw [hn, tailLength_newline]
    exact Nat.zero_le _
  · rw [tailLength, firstLine_cons hn]
    exact length_rtakeWhile_cons_le c _

lemma tailLength_append_le (v s : List Char) : tailLength (v ++ s) ≤ v.length + tailLength s := by
  induction v with
  | nil => exact (Nat.zero_add _).ge
  | cons c v ih =>
    have hcons := tailLength_cons_le c (v ++ s)
    rw [length_cons, cons_append]
    omega

/-- What is left of a text begins with a backtick only when that is the last one of its line. -/
lemma length_firstLine_of_strip {w : List Char} (h : strip s = tick :: w) :
    (firstLine w).length = tailLength s := by
  induction s using spanInduction generalizing w with
  | nil => cases h
  | prose c s hc ih =>
    rw [strip_prose hc] at h
    exact absurd (head_eq_of_cons_eq h) hc
  | span v s hv ih =>
    rw [strip_span hv] at h
    rw [ih h, tailLength_cons_tick, tailLength_tick hv]
  | line v s hv ih =>
    rw [strip_line hv] at h
    obtain rfl := tail_eq_of_cons_eq h
    rw [firstLine_append hv.newline_notMem, firstLine_newline, append_nil,
      tailLength_cons_tick, tailLength_line hv (firstLine_newline s)]
  | last v hv =>
    rw [strip_last hv] at h
    obtain rfl := tail_eq_of_cons_eq h
    have hline := firstLine_append hv.newline_notMem []
    have htail := tailLength_line hv (rfl : firstLine [] = [])
    rw [append_nil] at hline htail
    rw [hline, tailLength_cons_tick, htail]
    exact congrArg length (append_nil v)

lemma tailLength_le_strip_append {r : List Char} (h : tailLength s ≤ (firstLine r).length) :
    tailLength (p ++ s) ≤ (firstLine (strip p ++ r)).length := by
  induction p using spanInduction with
  | nil => exact h
  | prose c p hc ih =>
    rw [strip_prose hc, cons_append, cons_append]
    by_cases hn : c = '\n'
    · rw [hn, tailLength_newline]
      exact Nat.zero_le _
    · have hcons := tailLength_cons_le c (p ++ s)
      rw [firstLine_cons hn, length_cons]
      omega
  | span v p hv ih =>
    rw [strip_span hv, cons_append, append_assoc, cons_append,
      tailLength_cons_tick, tailLength_tick hv]
    exact ih
  | line v p hv ih =>
    rw [strip_line hv, cons_append, append_assoc, cons_append,
      tailLength_cons_tick, tailLength_line hv (firstLine_newline _), cons_append,
      append_assoc, cons_append, firstLine_cons (by decide),
      firstLine_append hv.newline_notMem, length_cons, length_append]
    omega
  | last v hv =>
    have happend := tailLength_append_le v s
    rw [strip_last hv, cons_append, cons_append, tailLength_cons_tick,
      firstLine_cons (by decide), firstLine_append hv.newline_notMem, length_cons,
      length_append]
    omega

lemma tailLength_flatten_le (texts : List (List Char)) :
    tailLength texts.flatten ≤ (firstLine (texts.flatMap strip)).length := by
  induction texts with
  | nil => exact Nat.zero_le _
  | cons p texts ih =>
    rw [flatten_cons, flatMap_cons]
    exact tailLength_le_strip_append ih

/-! ### The two readers -/

/-- When no text but the last ends with a backtick, stripping the texts together is stripping each
exactly when no open span is closed behind its text. -/
lemma strip_flatten_iff {texts : List (List Char)} {final : List Char}
    (hends : ∀ p ∈ texts, p.getLast? ≠ some tick) :
    (texts ++ [final]).flatMap strip = strip (texts ++ [final]).flatten ↔
      ClosedWithin (texts ++ [final]) := by
  induction texts with
  | nil =>
    rw [nil_append, flatMap_cons, flatten_cons, flatMap_nil, flatten_nil, append_nil, append_nil]
    exact iff_of_true rfl ⟨fun _ => not_mem_nil, trivial⟩
  | cons p texts ih =>
    have ih := ih fun q hq => hends q (mem_cons_of_mem p hq)
    rw [cons_append, flatMap_cons, flatten_cons, ClosedWithin, ← ih]
    generalize hrest : texts ++ [final] = rest
    by_cases hopen : OpenSpan p
    · obtain ⟨a, u, rfl, hu, ha⟩ := hopen.cut
      rw [strip_append ha, strip_last hu, append_assoc, append_assoc, strip_append ha,
        append_right_inj, cons_append, cons_append]
      by_cases htick : tick ∈ firstLine rest.flatten
      · refine iff_of_false ?_ fun h => h.1 hopen htick
        obtain ⟨v, t, hflat, hv⟩ := exists_tick htick
        intro heq
        have huv : Plain (u ++ v) := fun c hc => (mem_append.mp hc).elim (hu c) (hv c)
        rw [hflat, ← append_assoc, strip_span huv] at heq
        -- What is kept of the line behind the span would be shorter than its last part.
        have hlong := tailLength_flatten_le rest
        have hline := length_firstLine_of_strip heq.symm
        rw [hflat, tailLength_tick hv] at hlong
        rw [firstLine_append hu.newline_notMem, length_append] at hline
        have hnil : u = [] := eq_nil_of_length_eq_zero (by omega)
        refine hends _ mem_cons_self ?_
        rw [hnil, getLast?_append]
        rfl
      · rw [strip_open hu htick, cons_inj_right, append_right_inj, and_iff_right fun _ => htick]
    · rw [strip_append hopen, append_right_inj, and_iff_right fun h => absurd h hopen]

lemma untilFence_isSome_cons (c : Char) (h : (untilFence s).isSome) :
    (untilFence (c :: s)).isSome := by
  rw [untilFence]
  split_ifs
  · rfl
  · rw [Option.isSome_map]
    exact h

lemma fencedCode_cons_tick (s : List Char) (h : (fencedCode s).isSome) :
    (fencedCode (tick :: s)).isSome := by
  rw [fencedCode] at h
  by_cases hs : s.take 3 = fence
  · rw [if_pos hs, Option.isSome_map] at h
    have hdrop : s = [tick, tick, tick] ++ s.drop 3 := by
      conv_lhs => rw [← take_append_drop 3 s, hs]
      rfl
    have htake' : (tick :: s).take 3 = fence := by rw [hdrop]; rfl
    have hdrop' : (tick :: s).drop 3 = tick :: s.drop 3 := by rw [hdrop]; rfl
    rw [fencedCode, if_pos htake', hdrop', Option.isSome_map]
    exact untilFence_isSome_cons tick h
  · rw [if_neg hs] at h
    cases h

/-- The texts between the fenced blocks of a body. -/
def fenceGaps (body : List Char) : List (List Char) := (cut fencedCode body).gaps

/-- Splitting a body never drops a byte, and the prose of its segments is what `stripCodeSpans`
leaves exactly when no span that is open before a fenced block is closed in its line behind it. -/
theorem proseText_eq_stripCodeSpans_iff (body : List Char) : written (splitCodeSpans body) = body ∧
      (proseText (splitCodeSpans body) = stripCodeSpans body ↔ ClosedWithin (fenceGaps body)) := by
  refine ⟨written_splitCodeSpans body, ?_⟩
  rw [proseText_splitCodeSpans]
  refine strip_flatten_iff fun p hp => ?_
  obtain ⟨x, hx, rfl⟩ := mem_map.mp hp
  exact (getLast?_before_ne fencedCode_cons_tick body).1 x hx

/-- A span that is open before a fenced block and closed behind it: the mention in it is prose for
the renderer and code for the mention scan. -/
theorem open_span_differs : ¬ ∀ body : List Char, written (splitCodeSpans body) = body ∧
    proseText (splitCodeSpans body) = stripCodeSpans body := by
  intro h
  exact absurd (h "`@ada```x```b`".toList).2 (by decide)

end Coforge.Bodies
