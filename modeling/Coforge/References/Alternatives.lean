import Coforge.Bodies.Tokens

/-!
# The references a prose text can hold

A reference is read by one of five alternatives, in their order of precedence: a mention, a thread,
a task, a bare number and a channel. Each has a pattern, and reads a match of it into a reference
and the text that the reference takes. A bare number takes the whole `#name` run that it starts.
-/

namespace Coforge.References

open Bodies (Part sign word run digits uuid oneOf toNumber)
open Protocol (nameStart nameChar)
open Release (hexDigit)

inductive Reference
  | mention (handle : List Char)
  | thread (name anchor : List Char)
  | task (number : Option ℕ)
  | bareNumber (number : Option ℕ) (name rest : List Char)
  | channel (name : List Char)
  deriving DecidableEq

/-- A reference and the text it consumes; `exactPart` is what a prefix of that text still reads as
when the whole is not written exactly. -/
structure Reading where
  reference : Reference
  text      : List Char
  exactPart : Option (Reference × List Char)
  deriving DecidableEq

/-- What the patterns take from the Unicode tables. -/
structure Letters where
  /-- `[\p{L}\p{N}]`, and what it is ignoring case. -/
  lettersAndNumbers : Char → Bool
  ignoringCase      : Char → Bool
  toLowerCase       : List Char → List Char
  ascii             : ∀ c, c.isAlphanum = true → lettersAndNumbers c = true

/-! ### Patterns -/

/-- A pattern with the characters that may not stand before and behind its match. -/
structure Pattern where
  before : Char → Bool
  parts  : List Part
  behind : Char → Bool

/-- What the parts of a pattern match at a place of a text. -/
def Pattern.matchAt (p : Pattern) (text : List Char) (index : ℕ) : Option (List (List Char)) :=
  if index ≠ 0 ∧ text[index - 1]?.any p.before then none
  else (Bodies.sequence p.parts (text.drop index)).bind fun m =>
    if m.2.head?.any p.behind then none else some m.1

/-- `\w`. -/
def wordChar (c : Char) : Bool := c.isAlphanum || c = '_'

def wordOrDash (c : Char) : Bool := wordChar c || c = '-'

/-- `[0-9a-z-]`, ignoring case: the long `s` and the Kelvin sign are letters of it. -/
def anchorChar (c : Char) : Bool := c.isAlphanum || c = '-' || c = 'ſ' || c = '\u212A'

def mentionPattern : Pattern where
  before c := wordChar c || c = '@'
  parts    := [sign '@', run nameChar fun t => t.head?.any nameStart]
  behind   := wordOrDash

/-- `[0-9a-f]{6,8}`, ignoring case. -/
def shortId : Part := fun s =>
  let t := (s.takeWhile hexDigit).take 8
  if 6 ≤ t.length then some (t, s.drop t.length) else none

/-- `[\p{L}\p{N}_-]+`, with the letters and numbers of a flag. -/
def nameRun (letters : Char → Bool) : Part :=
  run (fun c => letters c || c = '_' || c = '-') fun t => t ≠ []

def threadReferencePattern (u : Letters) : Pattern where
  before _ := false
  parts    := [sign '#', nameRun u.ignoringCase, sign ':', oneOf uuid shortId]
  behind   := anchorChar

def taskReferencePattern : Pattern where
  before := wordChar
  parts  := [word "task #", digits]
  behind := Char.isDigit

def bareTaskReferencePattern : Pattern where
  before c := wordChar c || c = '/'
  parts    := [sign '#', run Char.isDigit fun t => t.head?.any (· ≠ '0')]
  behind   := wordChar

def channelReferencePattern (u : Letters) : Pattern where
  before _ := false
  parts    := [sign '#', nameRun u.lettersAndNumbers]
  behind _ := false

/-! ### Readings -/

/-- A pattern, and how its match at an index of the input is read. -/
structure Alternative where
  matchAt : List Char → ℕ → Option (List (List Char))
  read    : List Char → ℕ → List (List Char) → Reading

/-- A reading of the whole match. -/
def whole (reference : List (List Char) → Reference) (_ : List Char) (_ : ℕ)
    (groups : List (List Char)) : Reading :=
  ⟨reference groups, groups.flatten, none⟩

/-- The `#name` run at an index, which a bare `#N` always starts. -/
def channelRun (u : Letters) (input : List Char) (index : ℕ) : List Char :=
  (((channelReferencePattern u).matchAt input index).map List.flatten).getD []

/-- A bare `#N`, read with the whole `#name` run it starts, so it can fall through to a channel. -/
def readBareNumber (u : Letters) (input : List Char) (index : ℕ) (groups : List (List Char)) :
    Reading :=
  let run := channelRun u input index
  let number := toNumber (groups.getD 1 [])
  { reference := .bareNumber number (u.toLowerCase (run.drop 1)) (run.drop groups.flatten.length)
    text      := run
    exactPart :=
      if groups.flatten.length < run.length then some (.task number, groups.flatten) else none }

/-- The alternatives in precedence order. -/
def alternatives (u : Letters) : List Alternative :=
  [⟨mentionPattern.matchAt, whole fun groups => .mention (groups.getD 1 [])⟩,
   ⟨(threadReferencePattern u).matchAt, whole fun groups =>
      .thread (u.toLowerCase (groups.getD 1 [])) (u.toLowerCase (groups.getD 3 []))⟩,
   ⟨taskReferencePattern.matchAt, whole fun groups => .task (toNumber (groups.getD 1 []))⟩,
   ⟨bareTaskReferencePattern.matchAt, readBareNumber u⟩,
   ⟨(channelReferencePattern u).matchAt, whole fun groups =>
      .channel (u.toLowerCase (groups.getD 1 []))⟩]

/-! ### Every reading consumes something -/

/-- A match is never read into nothing. -/
def Alternative.Consumes (a : Alternative) : Prop :=
  ∀ text index groups, a.matchAt text index = some groups → (a.read text index groups).text ≠ []

lemma sequence_of_matchAt {p : Pattern} {text : List Char} {index : ℕ}
    {groups : List (List Char)} (h : p.matchAt text index = some groups) :
    ∃ rest, Bodies.sequence p.parts (text.drop index) = some (groups, rest) := by
  rw [Pattern.matchAt] at h
  split_ifs at h
  obtain ⟨⟨parts, rest⟩, hparts, hrest⟩ := Option.bind_eq_some_iff.mp h
  split_ifs at hrest
  cases hrest
  exact ⟨rest, hparts⟩

lemma sequence_cons {part : Part} {parts : List Part} {s rest : List Char}
    {groups : List (List Char)} (h : Bodies.sequence (part :: parts) s = some (groups, rest)) :
    ∃ m behind, part s = some (m, behind) ∧
      ∃ groups', Bodies.sequence parts behind = some (groups', rest) ∧ groups = m :: groups' := by
  obtain ⟨⟨m, behind⟩, hm, htail⟩ := Option.bind_eq_some_iff.mp h
  obtain ⟨⟨groups', rest'⟩, hparts, heq⟩ := Option.map_eq_some_iff.mp htail
  cases heq
  exact ⟨m, behind, hm, groups', hparts, rfl⟩

lemma sign_eq_some {c : Char} {s m behind : List Char} (h : sign c s = some (m, behind)) :
    m = [c] ∧ s = c :: behind := by
  rw [sign, Bodies.exactly] at h
  split_ifs at h with htake
  obtain ⟨hm, hbehind⟩ := Prod.mk.inj (Option.some.inj h)
  have hc : s.take 1 = [c] := of_decide_eq_true htake
  refine ⟨hm ▸ hc, ?_⟩
  rw [← List.take_append_drop 1 s, hc, hbehind, List.singleton_append]

lemma run_eq_some {p : Char → Bool} {ok : List Char → Bool} {s m behind : List Char}
    (h : run p ok s = some (m, behind)) : m = s.takeWhile p ∧ ok m = true := by
  rw [run] at h
  split_ifs at h with hok
  obtain ⟨rfl, -⟩ := Prod.mk.inj (Option.some.inj h)
  exact ⟨rfl, hok⟩

lemma whole_consumes {p : Pattern} {part : Part} {parts : List Part}
    {reference : List (List Char) → Reference} (hp : p.parts = part :: parts)
    (hpart : ∀ s m behind, part s = some (m, behind) → m ≠ []) :
    Alternative.Consumes ⟨p.matchAt, whole reference⟩ := by
  intro text index groups h
  obtain ⟨rest, hseq⟩ := sequence_of_matchAt h
  rw [hp] at hseq
  obtain ⟨m, behind, hm, groups', -, rfl⟩ := sequence_cons hseq
  exact List.append_ne_nil_of_left_ne_nil (hpart _ m behind hm) _

lemma sign_ne_nil (c : Char) (s m behind : List Char) (h : sign c s = some (m, behind)) :
    m ≠ [] := by
  rw [(sign_eq_some h).1]
  exact List.cons_ne_nil c []

lemma word_ne_nil {text : String} (htext : text.toList ≠ []) (s m behind : List Char)
    (h : word text s = some (m, behind)) : m ≠ [] := by
  rw [word, Bodies.exactly] at h
  split_ifs at h with htake
  obtain ⟨rfl, -⟩ := Prod.mk.inj (Option.some.inj h)
  intro hnil
  have hlower : (s.take text.toList.length).map Char.toLower = text.toList :=
    of_decide_eq_true htake
  rw [hnil] at hlower
  exact htext hlower.symm

/-- A `#` and a character of a name start a `#name` run. -/
lemma channelRun_ne_nil {u : Letters} {text : List Char} {index : ℕ} {d : Char} {ds : List Char}
    (hdrop : text.drop index = '#' :: d :: ds) (hd : u.lettersAndNumbers d = true) :
    channelRun u text index ≠ [] := by
  let name : Char → Bool := fun c => u.lettersAndNumbers c || c = '_' || c = '-'
  have hname : (d :: ds).takeWhile name ≠ [] := by
    rw [List.takeWhile_cons_of_pos (by simp only [name, hd, Bool.true_or])]
    exact List.cons_ne_nil d _
  have hrun : nameRun u.lettersAndNumbers (d :: ds) =
      some ((d :: ds).takeWhile name, (d :: ds).dropWhile name) := if_pos (decide_eq_true hname)
  have hsign : sign '#' ('#' :: d :: ds) = some (['#'], d :: ds) := rfl
  have hmatch : (channelReferencePattern u).matchAt text index =
      some [['#'], (d :: ds).takeWhile name] := by
    rw [Pattern.matchAt, if_neg (by simp [channelReferencePattern]), hdrop]
    simp only [channelReferencePattern, Bodies.sequence, hsign, hrun, Option.bind_some,
      Option.map_some]
    exact if_neg (by simp)
  rw [channelRun, hmatch]
  exact List.cons_ne_nil '#' _

/-- The run of a bare `#N` always matches: a digit is a character of a name. -/
lemma bareNumber_consumes (u : Letters) :
    Alternative.Consumes ⟨bareTaskReferencePattern.matchAt, readBareNumber u⟩ := by
  intro text index groups h
  obtain ⟨rest, hseq⟩ := sequence_of_matchAt h
  obtain ⟨m, behind, hm, groups', htail, rfl⟩ := sequence_cons hseq
  obtain ⟨number, behind', hnumber, -⟩ := sequence_cons htail
  obtain ⟨-, hdrop⟩ := sign_eq_some hm
  obtain ⟨htake, hok⟩ := run_eq_some hnumber
  rw [htake] at hok
  cases behind with
  | nil => cases hok
  | cons d ds =>
    by_cases hd : d.isDigit = true
    · exact channelRun_ne_nil hdrop (u.ascii d (by rw [Char.isAlphanum, hd, Bool.or_true]))
    · rw [List.takeWhile_cons_of_neg hd] at hok
      cases hok

lemma alternatives_consume (u : Letters) : ∀ a ∈ alternatives u, a.Consumes := by
  intro a ha
  simp only [alternatives, List.mem_cons, List.not_mem_nil, or_false] at ha
  rcases ha with rfl | rfl | rfl | rfl | rfl
  · exact whole_consumes rfl (sign_ne_nil '@')
  · exact whole_consumes rfl (sign_ne_nil '#')
  · exact whole_consumes rfl (word_ne_nil (by decide))
  · exact bareNumber_consumes u
  · exact whole_consumes rfl (sign_ne_nil '#')

end Coforge.References
