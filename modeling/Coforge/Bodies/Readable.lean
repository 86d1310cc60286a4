import Coforge.Bodies.Tokens

/-!
# Reading a body in one pass

The four passes of `readableBody` against one pass over the stored tokens. The later passes read
what the earlier ones wrote: a mention is written out before the tasks, threads and channels are
read, and a thread before the channels. The passes are one pass just for the bodies and names for
which every token that they read is made of stored characters.

A token of a pattern is what stands between a `<` and the first `>` behind it, so each replacement
is a pass over bracketed tokens.
-/

namespace Coforge.Bodies

open Brackets List Option
open Protocol (nameStart nameChar uuidLike)
open Release (hexDigit dash shapeMatches)

def angle : Brackets Char where
  opens c := c = '<'
  closes c := c = '>'

/-- A character that the inside of a token may have. -/
def TokenChar (c : Char) : Prop := c ≠ '<' ∧ c ≠ '>' ∧ c ≠ '#'

variable {c : Char}

lemma TokenChar.inner (h : TokenChar c) : angle.Inner c :=
  ⟨decide_eq_false h.1, decide_eq_false h.2.1⟩

/-! ### Parts of a pattern -/

/-- A part that stays inside of a token, and so does not see what is behind it. -/
structure Part.Inside (part : Part) : Prop where
  split : ∀ s a b, part s = some (a, b) → s = a ++ b ∧ ∀ c ∈ a, TokenChar c
  closed : ∀ u r, part (u ++ '>' :: r) = (part (u ++ ['>'])).map fun m => (m.1, m.2 ++ r)

lemma exactly_inside {n : ℕ} {p : List Char → Bool} (hp : ∀ t, p t → ∀ c ∈ t, TokenChar c) :
    (exactly n p).Inside where
  split s a b h := by
    rw [exactly] at h
    split_ifs at h with hok
    cases h
    exact ⟨(take_append_drop n s).symm, hp _ hok⟩
  closed u r := by
    rw [exactly, exactly]
    by_cases hn : n ≤ u.length
    · rw [take_append_of_le_length hn, take_append_of_le_length hn,
        drop_append_of_le_length hn, drop_append_of_le_length hn]
      split_ifs
      · rw [map_some, append_assoc]
        rfl
      · rfl
    · -- the bracket would be one of the characters
      have hno : ∀ t, '>' ∈ (u ++ '>' :: t).take n := by
        intro t
        rw [take_append, mem_append]
        right
        rw [show n - u.length = (n - u.length - 1) + 1 by omega, take_succ_cons]
        exact mem_cons_self
      rw [if_neg fun hok => (hp _ hok _ (hno r)).2.1 rfl,
        if_neg fun hok => (hp _ hok _ (hno [])).2.1 rfl]
      rfl

lemma run_inside {p : Char → Bool} {ok : List Char → Bool} (hp : ∀ c, p c → TokenChar c) :
    (run p ok).Inside where
  split s a b h := by
    rw [run] at h
    split_ifs at h with hok
    cases h
    refine ⟨(takeWhile_append_dropWhile).symm, ?_⟩
    intro c hc
    exact hp c (mem_takeWhile_imp hc)
  closed u r := by
    have hstop : ¬ p '>' := fun h => (hp _ h).2.1 rfl
    have htake : ∀ u t, (u ++ '>' :: t).takeWhile p = u.takeWhile p := by
      intro u t
      induction u with
      | nil => rw [nil_append, takeWhile_cons_of_neg hstop, takeWhile_nil]
      | cons a u ih =>
        rw [cons_append, takeWhile_cons, takeWhile_cons, ih]
    have hdrop : ∀ u t, (u ++ '>' :: t).dropWhile p = u.dropWhile p ++ '>' :: t := by
      intro u t
      induction u with
      | nil => rw [nil_append, dropWhile_cons_of_neg hstop, dropWhile_nil, nil_append]
      | cons a u ih =>
        rw [cons_append, dropWhile_cons, dropWhile_cons, ih]
        split_ifs
        · rfl
        · rfl
    rw [run, run, htake u r, htake u [], hdrop u r, hdrop u []]
    split_ifs
    · rw [map_some, append_assoc]
      rfl
    · rfl

lemma oneOf_inside {a b : Part} (ha : a.Inside) (hb : b.Inside) : (oneOf a b).Inside where
  split s x y h := by
    rcases or_eq_some_iff.mp h with h | ⟨-, h⟩
    · exact ha.split s x y h
    · exact hb.split s x y h
  closed u r := by
    rw [oneOf, oneOf, ha.closed, hb.closed]
    cases a (u ++ ['>']) with
    | none => rfl
    | some m => rfl

lemma tokenChar_of_toLower (h : TokenChar c.toLower) : TokenChar c := by
  refine ⟨?_, ?_, ?_⟩
  · rintro rfl
    exact h.1 rfl
  · rintro rfl
    exact h.2.1 rfl
  · rintro rfl
    exact h.2.2 rfl

lemma sign_inside (hc : TokenChar c) : (sign c).Inside := by
  apply exactly_inside
  intro t ht c' hc'
  rw [of_decide_eq_true ht] at hc'
  rw [mem_singleton.mp hc']
  exact hc

lemma word_inside {text : String} (h : ∀ c ∈ text.toList, TokenChar c) : (word text).Inside := by
  apply exactly_inside
  intro t ht c hc
  have hlower : c.toLower ∈ text.toList := by
    rw [← of_decide_eq_true ht]
    exact mem_map_of_mem hc
  exact tokenChar_of_toLower (h _ hlower)

lemma tokenChar_of_nameChar (h : nameChar c) : TokenChar c := by
  refine ⟨?_, ?_, ?_⟩ <;> rintro rfl <;> exact absurd h (by decide)

lemma tokenChar_of_hexDigit (h : hexDigit c) : TokenChar c := by
  refine ⟨?_, ?_, ?_⟩ <;> rintro rfl <;> exact absurd h (by decide)

lemma tokenChar_of_dash (h : dash c) : TokenChar c := by
  rw [of_decide_eq_true h]
  exact ⟨by decide, by decide, by decide⟩

lemma name_inside : name.Inside :=
  run_inside fun _ h => tokenChar_of_toLower (tokenChar_of_nameChar h)

lemma digits_inside : digits.Inside := by
  apply run_inside
  intro c h
  refine ⟨?_, ?_, ?_⟩ <;> rintro rfl <;> exact absurd h (by decide)

lemma shapeMatches_forall {ps : List (Char → Bool)} {P : Char → Prop} {cs : List Char}
    (hps : ∀ p ∈ ps, ∀ c, p c → P c) (h : shapeMatches ps cs) : ∀ c ∈ cs, P c := by
  induction ps generalizing cs with
  | nil =>
    cases cs with
    | nil =>
      rintro c ⟨⟩
    | cons c cs => cases h
  | cons p ps ih =>
    cases cs with
    | nil => cases h
    | cons c cs =>
      rw [shapeMatches, Bool.and_eq_true] at h
      intro c' hc'
      rcases mem_cons.mp hc' with rfl | hc'
      · exact hps p mem_cons_self _ h.1
      · exact ih (fun q hq => hps q (mem_cons_of_mem p hq)) h.2 c' hc'

lemma uuid_inside : uuid.Inside := by
  apply exactly_inside
  intro t ht
  refine shapeMatches_forall ?_ ht
  intro p hp c hc
  simp only [mem_append, mem_cons, mem_replicate] at hp
  have hp' : p = hexDigit ∨ p = dash := by tauto
  rcases hp' with rfl | rfl
  · exact tokenChar_of_hexDigit hc
  · exact tokenChar_of_dash hc

variable {s : List Char}

lemma exists_behind {u a : List Char} (h : u ++ [c] = a ++ s) (hc : c ∉ a) :
    ∃ v, s = v ++ [c] ∧ u = a ++ v := by
  rcases eq_nil_or_concat s with rfl | ⟨v, x, rfl⟩
  · rw [append_nil] at h
    exact absurd (h ▸ mem_append_right u mem_cons_self) hc
  · rw [concat_eq_append, ← append_assoc] at h
    obtain ⟨hu, rfl⟩ := append_singleton_inj.mp h
    exact ⟨v, concat_eq_append, hu⟩

/-- The parts of a pattern, one after the other, stay inside of a token as each of them does. -/
lemma sequence_inside {parts : List Part} (hparts : ∀ part ∈ parts, part.Inside) :
    (∀ s m b, sequence parts s = some (m, b) → s = m.flatten ++ b ∧ ∀ c ∈ m.flatten, TokenChar c) ∧
    ∀ u r, sequence parts (u ++ '>' :: r) =
      (sequence parts (u ++ ['>'])).map fun m => (m.1, m.2 ++ r) := by
  induction parts with
  | nil =>
    refine ⟨?_, ?_⟩
    · intro s m b h
      cases h
      exact ⟨rfl, by simp⟩
    · intro u r
      rw [sequence, sequence, map_some, append_assoc]
      rfl
  | cons part parts ih =>
    obtain ⟨hsplit, hclosed⟩ := ih fun p hp => hparts p (mem_cons_of_mem part hp)
    have hpart := hparts part mem_cons_self
    refine ⟨?_, ?_⟩
    · intro s m b h
      obtain ⟨⟨a, s'⟩, ha, h⟩ := bind_eq_some_iff.mp h
      obtain ⟨⟨rest, b'⟩, hrest, heq⟩ := map_eq_some_iff.mp h
      cases heq
      obtain ⟨rfl, hchars⟩ := hpart.split s a s' ha
      obtain ⟨hs', hchars'⟩ := hsplit s' rest b' hrest
      rw [flatten_cons]
      refine ⟨by rw [append_assoc, ← hs'], ?_⟩
      intro c hc
      rcases mem_append.mp hc with hc | hc
      · exact hchars c hc
      · exact hchars' c hc
    · intro u r
      rw [sequence, sequence, hpart.closed]
      cases ha : part (u ++ ['>']) with
      | none => rfl
      | some m =>
        obtain ⟨a, s'⟩ := m
        obtain ⟨hu, hchars⟩ := hpart.split _ a s' ha
        -- the bracket is not among the matched characters, so it is behind them
        obtain ⟨v, rfl, -⟩ := exists_behind hu fun hmem => (hchars _ hmem).2.1 rfl
        rw [map_some, bind_some, bind_some, append_assoc, singleton_append, hclosed]
        cases sequence parts (v ++ ['>']) with
        | none => rfl
        | some m' => rfl

/-! ### Tokens of a pattern -/

lemma sign_cons (c : Char) (s : List Char) : sign c (c :: s) = some ([c], s) := by
  rw [sign, exactly]
  exact if_pos (decide_eq_true rfl)

lemma sign_cons_ne {a : Char} (h : a ≠ c) (s : List Char) : sign c (a :: s) = none := by
  rw [sign, exactly]
  refine if_neg fun heq => h ?_
  exact (cons.inj (of_decide_eq_true heq)).1

lemma sign_eq_some {a b : List Char} (h : sign c s = some (a, b)) : s = c :: b := by
  cases s with
  | nil => cases h
  | cons x s =>
    by_cases hx : x = c
    · rw [hx, sign_cons] at h
      obtain ⟨-, rfl⟩ := Prod.mk.inj (some.inj h)
      rw [hx]
    · rw [sign_cons_ne hx] at h
      cases h

variable {parts : List Part}

/-- What `tokenAt` finds is a token, and no character of it is a `#`. -/
lemma token_of_tokenAt (hparts : ∀ part ∈ parts, part.Inside)
    {m : List (List Char)} {n : ℕ} (h : tokenAt parts s = some (m, n)) :
    ∃ x r, s = '<' :: (x ++ '>' :: r) ∧ ∀ c ∈ x, TokenChar c := by
  obtain ⟨⟨a, s₁⟩, h₁, h⟩ := bind_eq_some_iff.mp h
  obtain ⟨⟨inside, s₂⟩, h₂, h⟩ := bind_eq_some_iff.mp h
  obtain ⟨⟨b, s₃⟩, h₃, -⟩ := map_eq_some_iff.mp h
  obtain ⟨hs₁, hchars⟩ := (sequence_inside hparts).1 s₁ inside s₂ h₂
  refine ⟨inside.flatten, s₃, ?_, hchars⟩
  have hclose : s₂ = '>' :: s₃ := sign_eq_some h₃
  rw [← hclose, ← hs₁, sign_eq_some h₁]

lemma front_angle {x : List Char} (hx : ∀ c ∈ x, angle.Inner c) (r : List Char) :
    angle.front ('<' :: (x ++ '>' :: r)) = some ('<' :: (x ++ ['>'])) :=
  front_cons_eq_some.mpr ⟨rfl, _, close_inner hx rfl rfl, rfl⟩

lemma tokenAt_append (hparts : ∀ part ∈ parts, part.Inside) {x : List Char}
    (hx : ∀ c ∈ x, angle.Inner c) (r : List Char) : tokenAt parts ('<' :: (x ++ '>' :: r)) =
      (tokenAt parts ('<' :: (x ++ ['>']))).map fun m => (m.1, x.length + 2) := by
  rw [tokenAt, tokenAt, sign_cons, sign_cons, bind_some, bind_some, (sequence_inside hparts).2]
  cases hseq : sequence parts (x ++ ['>']) with
  | none => rfl
  | some m =>
    obtain ⟨inside, b⟩ := m
    obtain ⟨hsplit, hchars⟩ := (sequence_inside hparts).1 _ inside b hseq
    obtain ⟨v, rfl, hv⟩ := exists_behind hsplit fun hmem => (hchars _ hmem).2.1 rfl
    rw [map_some, bind_some, bind_some]
    cases v with
    | nil =>
      rw [nil_append, singleton_append, sign_cons, sign_cons]
      simp only [map_some, length_cons, length_append, length_nil]
      congr 2
      omega
    | cons a v =>
      have ha : a ≠ '>' := by
        have hmem : a ∈ x := hv ▸ mem_append_right _ mem_cons_self
        exact of_decide_eq_false (hx a hmem).2
      rw [cons_append, cons_append, sign_cons_ne ha, sign_cons_ne ha]
      rfl

lemma tokenAt_eq_front (hparts : ∀ part ∈ parts, part.Inside) (s : List Char) : tokenAt parts s =
      (angle.front s).bind fun w => (tokenAt parts w).map fun m => (m.1, w.length) := by
  cases hfront : angle.front s with
  | none =>
    cases h : tokenAt parts s with
    | none => rfl
    | some m =>
      obtain ⟨x, r, rfl, hx⟩ := token_of_tokenAt hparts h
      rw [front_angle fun c hc => (hx c hc).inner] at hfront
      cases hfront
  | some w =>
    cases s with
    | nil => cases hfront
    | cons b s =>
      obtain ⟨hb, u, hu, rfl⟩ := front_cons_eq_some.mp hfront
      obtain ⟨r, rfl, -, -⟩ := exists_of_close hu
      obtain ⟨x, c, rfl, hc, hx⟩ := exists_inner_of_close hu
      obtain rfl := of_decide_eq_true hb
      obtain rfl := of_decide_eq_true hc
      rw [append_assoc, singleton_append, tokenAt_append hparts hx, bind_some]
      simp only [length_cons, length_append, length_nil]

/-- What a pattern's tokens read as. -/
def reading (parts : List Part) (text : List (List Char) → Option (List Char)) (w : List Char) :
    Option (List Char) :=
  (tokenAt parts w).bind fun m => text m.1

lemma replaceTokens_eq_pass (hparts : ∀ part ∈ parts, part.Inside)
    (text : List (List Char) → Option (List Char)) (body : List Char) :
    replaceTokens parts text body = angle.pass (reading parts text) body := by
  have hfind : (fun s => (tokenAt parts s).map fun m => (m.2, (text m.1).getD (s.take m.2))) =
      fun s => (angle.front s).bind fun w =>
        ((tokenAt parts w).map fun m => (text m.1).getD w).map fun t => (w.length, t) := by
    funext s
    rw [tokenAt_eq_front hparts]
    cases hfront : angle.front s with
    | none => rfl
    | some w =>
      obtain ⟨r, rfl, -⟩ := exists_of_front hfront
      rw [bind_some, bind_some]
      cases tokenAt parts w with
      | none => rfl
      | some m =>
        rw [map_some, map_some, map_some, map_some, take_left]
  rw [replaceTokens, hfind]
  show angle.rewrite _ _ _ = angle.rewrite _ _ _
  apply rewrite_congr
  intro w _
  rw [reading]
  cases tokenAt parts w with
  | none => rfl
  | some m =>
    show (text m.1).getD w = (text m.1).getD (w.flatMap fun c => [c])
    rw [flatMap_singleton']

/-! ### The four patterns -/

lemma at_inside : (sign '@').Inside := sign_inside ⟨by decide, by decide, by decide⟩

lemma colon_inside : (sign ':').Inside := sign_inside ⟨by decide, by decide, by decide⟩

lemma tokenChar_of_all {text : String} (h : text.toList.all fun c => c.isLower) :
    ∀ c ∈ text.toList, TokenChar c := by
  intro c hc
  have hlower := all_eq_true.mp h c hc
  refine ⟨?_, ?_, ?_⟩ <;> rintro rfl <;> exact absurd hlower (by decide)

lemma mention_inside : ∀ part ∈ mentionTokenPattern, part.Inside := by
  have hkind : (oneOf (word "human") (word "agent")).Inside :=
    oneOf_inside (word_inside (tokenChar_of_all (by decide)))
      (word_inside (tokenChar_of_all (by decide)))
  intro part hpart
  simp only [mentionTokenPattern, mem_cons, not_mem_nil, or_false] at hpart
  rcases hpart with rfl | rfl | rfl | rfl
  · exact at_inside
  · exact hkind
  · exact colon_inside
  · exact uuid_inside

lemma task_inside : ∀ part ∈ taskReferenceTokenPattern, part.Inside := by
  intro part hpart
  simp only [taskReferenceTokenPattern, mem_cons, not_mem_nil, or_false] at hpart
  rcases hpart with rfl | rfl | rfl | rfl
  · exact at_inside
  · exact word_inside (tokenChar_of_all (by decide))
  · exact colon_inside
  · exact digits_inside

lemma thread_inside : ∀ part ∈ threadReferenceTokenPattern, part.Inside := by
  intro part hpart
  simp only [threadReferenceTokenPattern, mem_cons, not_mem_nil, or_false] at hpart
  rcases hpart with rfl | rfl | rfl | rfl | rfl | rfl | rfl | rfl
  · exact at_inside
  · exact word_inside (tokenChar_of_all (by decide))
  · exact colon_inside
  · exact uuid_inside
  · exact colon_inside
  · exact uuid_inside
  · exact colon_inside
  · exact name_inside

lemma channel_inside : ∀ part ∈ channelReferenceTokenPattern, part.Inside := by
  intro part hpart
  simp only [channelReferenceTokenPattern, mem_cons, not_mem_nil, or_false] at hpart
  rcases hpart with rfl | rfl | rfl | rfl | rfl | rfl
  · exact at_inside
  · exact word_inside (tokenChar_of_all (by decide))
  · exact colon_inside
  · exact uuid_inside
  · exact colon_inside
  · exact name_inside

def mentionReading (names : ReadableBodyNames) : List Char → Option (List Char) :=
  reading mentionTokenPattern (mentionText (readMention names))

def taskReading : List Char → Option (List Char) :=
  reading taskReferenceTokenPattern (taskReferenceText readTask)

def threadReading (names : ReadableBodyNames) : List Char → Option (List Char) :=
  reading threadReferenceTokenPattern (threadText names.channelName)

def channelReading (names : ReadableBodyNames) : List Char → Option (List Char) :=
  reading channelReferenceTokenPattern (channelText names.channelName)

/-! ### A body without tokens -/

lemma includesMark_suffix {t : List Char} (h : includesMark s = false) (ht : t <:+ s)
    (r : List Char) : t ≠ '<' :: '@' :: r := by
  rintro rfl
  have hnot := any_eq_false.mp h _ ((mem_tails _ _).mpr ht)
  exact hnot rfl

/-- A body without `<@` has no token of a pattern that begins with `@`. -/
lemma replaceTokens_of_not_includesMark {body : List Char} (h : includesMark body = false)
    (text : List (List Char) → Option (List Char)) :
    replaceTokens (sign '@' :: parts) text body = body := by
  rw [replaceTokens, replaceFrom_keep, flatMap_singleton']
  intro t ht
  rw [map_eq_none_iff]
  cases hm : tokenAt (sign '@' :: parts) t with
  | none => rfl
  | some m =>
    obtain ⟨⟨a, s₁⟩, h₁, hm⟩ := bind_eq_some_iff.mp hm
    obtain ⟨⟨inside, s₂⟩, h₂, -⟩ := bind_eq_some_iff.mp hm
    obtain ⟨⟨b, s₃⟩, h₃, -⟩ := bind_eq_some_iff.mp h₂
    have hat : s₁ = '@' :: s₃ := sign_eq_some h₃
    refine absurd ?_ (includesMark_suffix h ht s₃)
    rw [sign_eq_some h₁, hat]

lemma readableBody_eq_passes (body : List Char) (names : ReadableBodyNames) :
    readableBody body names = angle.passes
      [mentionReading names, taskReading, threadReading names, channelReading names] body := by
  have hpasses : angle.passes
      [mentionReading names, taskReading, threadReading names, channelReading names] body =
      replaceChannelReferenceTokens (replaceThreadReferenceTokens (replaceTaskReferenceTokens
        (replaceMentionTokens body (readMention names)) readTask) names.channelName)
        names.channelName := by
    rw [replaceChannelReferenceTokens, replaceTokens_eq_pass channel_inside,
      replaceThreadReferenceTokens, replaceTokens_eq_pass thread_inside, replaceTaskReferenceTokens,
      replaceTokens_eq_pass task_inside, replaceMentionTokens, replaceTokens_eq_pass mention_inside]
    rfl
  rw [hpasses, readableBody]
  by_cases hmark : includesMark body
  · rw [hmark]
    rfl
  · rw [Bool.not_eq_true] at hmark
    have hmentions : replaceMentionTokens body (readMention names) = body :=
      replaceTokens_of_not_includesMark hmark _
    have htasks : replaceTaskReferenceTokens body readTask = body :=
      replaceTokens_of_not_includesMark hmark _
    have hthreads : replaceThreadReferenceTokens body names.channelName = body :=
      replaceTokens_of_not_includesMark hmark _
    have hchannels : replaceChannelReferenceTokens body names.channelName = body :=
      replaceTokens_of_not_includesMark hmark _
    rw [hmark, hmentions, htasks, hthreads, hchannels]
    rfl

/-! ### One pass -/

/-- One pass over the tokens of a stored body: each is replaced by its text, and a mention that has
no name stays as written. -/
def readOnce (body : List Char) (names : ReadableBodyNames) : List Char :=
  angle.pass
    (firstOf (mentionReading names) [taskReading, threadReading names, channelReading names]) body

/-- With the mentions written out, a task token only has stored characters, and so have a thread
token with the tasks written out as well, and a channel token with the threads. -/
structure OnlyStoredRead (body : List Char) (names : ReadableBodyNames) : Prop where
  tasks : angle.StoredOnly taskReading (angle.writeOut (mentionReading names) body)
  threads : angle.StoredOnly (threadReading names)
    (angle.writeOut (either (mentionReading names) taskReading) body)
  channels : angle.StoredOnly (channelReading names)
    (angle.writeOut (either (either (mentionReading names) taskReading) (threadReading names)) body)

/-- No token with a `#` is read. -/
lemma reading_of_mark (hparts : ∀ part ∈ parts, part.Inside)
    (text : List (List Char) → Option (List Char)) {w : List Char} (hw : angle.Token w)
    (hmark : '#' ∈ w) : reading parts text w = none := by
  cases hm : tokenAt parts w with
  | none => rw [reading, hm, bind_none]
  | some m =>
    exfalso
    obtain ⟨x, r, rfl, hx⟩ := token_of_tokenAt hparts hm
    have hall := (front_angle (fun c hc => (hx c hc).inner) r).symm.trans hw
    rw [← some.inj hall] at hmark
    simp only [mem_cons, mem_append, not_mem_nil, or_false] at hmark
    rcases hmark with h | h | h
    · cases h
    · exact (hx _ h).2.2 rfl
    · cases h

lemma sealed_hash (t : List Char) : angle.Sealed '#' ('#' :: t) :=
  ⟨[], t, rfl, by simp⟩

/-- What the later passes write begins with a `#`, or with `task #`. -/
lemma readings_marked (names : ReadableBodyNames) :
    angle.Marked '#' [taskReading, threadReading names, channelReading names] where
  opens := rfl
  sealed read hread w text h := by
    simp only [mem_cons, not_mem_nil, or_false] at hread
    rcases hread with rfl | rfl | rfl
    · obtain ⟨m, -, h⟩ := bind_eq_some_iff.mp h
      rw [taskReferenceText.eq_def] at h
      split at h
      · cases h
        exact ⟨['t', 'a', 's', 'k', ' '], _, rfl, by simp [Brackets.Inner, angle]⟩
      · cases h
    · obtain ⟨m, -, h⟩ := bind_eq_some_iff.mp h
      rw [threadText.eq_def] at h
      split at h
      · cases h
        exact sealed_hash _
      · cases h
    · obtain ⟨m, -, h⟩ := bind_eq_some_iff.mp h
      rw [channelText.eq_def] at h
      split at h
      · cases h
        exact sealed_hash _
      · cases h
  unread read hread w hw hmark := by
    simp only [mem_cons, not_mem_nil, or_false] at hread
    rcases hread with rfl | rfl | rfl
    · exact reading_of_mark task_inside _ hw hmark
    · exact reading_of_mark thread_inside _ hw hmark
    · exact reading_of_mark channel_inside _ hw hmark

lemma mentionReading_ne_nil (names : ReadableBodyNames) (w text : List Char)
    (h : mentionReading names w = some text) : text ≠ [] := by
  obtain ⟨m, -, h⟩ := bind_eq_some_iff.mp h
  rw [mentionText.eq_def] at h
  split at h
  · obtain ⟨name, -, rfl⟩ := map_eq_some_iff.mp h
    exact cons_ne_nil _ _
  · cases h

/-- The four passes read a body as one pass does just when they only read stored characters. -/
theorem readableBody_eq_readOnce_iff (body : List Char) (names : ReadableBodyNames) :
    readableBody body names = readOnce body names ↔ OnlyStoredRead body names := by
  rw [readableBody_eq_passes, readOnce,
    passes_eq_iff (readings_marked names) (mentionReading_ne_nil names)]
  constructor
  · rintro ⟨htasks, hthreads, hchannels, -⟩
    exact ⟨htasks, hthreads, hchannels⟩
  · rintro ⟨htasks, hthreads, hchannels⟩
    exact ⟨htasks, hthreads, hchannels, trivial⟩

/-- A person whose handle is `task`. -/
def taskHandle : ReadableBodyNames where
  mention _ _ := some "task".toList
  channelName := none

/-- A `<` before the mention of the person and `:5>` behind it read as a task. -/
theorem readableBody_ne_readOnce :
    readableBody "<<@human:11111111-1111-4111-8111-111111111111>:5>".toList taskHandle =
        "task #5".toList ∧
      readOnce "<<@human:11111111-1111-4111-8111-111111111111>:5>".toList taskHandle =
        "<@task:5>".toList := by
  decide +kernel

end Coforge.Bodies
