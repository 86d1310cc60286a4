import Coforge.Lib.Passes
import Coforge.Protocol.Fields

/-!
# Stored bodies

A stored body names people, tasks, channels and threads by tokens such as `<@task:68>`, and
`readableBody` reads them back as the text a person writes. It runs one replacement for each kind of
token, the mentions first and the channels last.

A pattern is the list of its parts. A part that repeats a class of characters takes all it can, and
none of the classes has the character that follows it in a pattern.
-/

namespace Coforge.Bodies

open Protocol (nameStart nameChar uuidLike)
open Release (hexDigit)

/-! ### Patterns -/

/-- What a part of a pattern matches at the front of a text, and the text behind it. -/
abbrev Part := List Char → Option (List Char × List Char)

/-- A fixed number of characters. -/
def exactly (n : ℕ) (p : List Char → Bool) : Part :=
  fun s => if p (s.take n) then some (s.take n, s.drop n) else none

def sign (c : Char) : Part := exactly 1 fun t => t = [c]

/-- A word, ignoring case. -/
def word (text : String) : Part :=
  exactly text.toList.length fun t => t.map Char.toLower = text.toList

/-- `UUID_LIKE_SOURCE`, ignoring case. -/
def uuid : Part := exactly 36 (uuidLike hexDigit)

/-- As many characters of a class as there are. -/
def run (p : Char → Bool) (ok : List Char → Bool) : Part :=
  fun s => if ok (s.takeWhile p) then some (s.takeWhile p, s.dropWhile p) else none

/-- `\d+`. -/
def digits : Part := run Char.isDigit fun t => t ≠ []

/-- `[a-z0-9][a-z0-9_-]*`, ignoring case. -/
def name : Part := run (fun c => nameChar c.toLower) fun t => t.head?.any fun c => nameStart c.toLower

def oneOf (a b : Part) : Part := fun s => (a s).or (b s)

/-- What the parts match one after the other. -/
def sequence : List Part → List Char → Option (List (List Char) × List Char)
  | [], s            => some ([], s)
  | part :: parts, s =>
    (part s).bind fun m => (sequence parts m.2).map fun rest => (m.1 :: rest.1, rest.2)

/-- A token at the front of a text: what the parts between its brackets match, and its length. -/
def tokenAt (parts : List Part) (s : List Char) : Option (List (List Char) × ℕ) :=
  (sign '<' s).bind fun opened => (sequence parts opened.2).bind fun inside =>
    (sign '>' inside.2).map fun closed => (inside.1, s.length - closed.2.length)

/-- `body.replace(pattern, …)`: every token of the pattern is replaced by its text, and stays as it
is written when it has none. -/
def replaceTokens (parts : List Part) (text : List (List Char) → Option (List Char))
    (body : List Char) : List Char :=
  replaceFrom
    (fun s => (tokenAt parts s).map fun m => (m.2, (text m.1).getD (s.take m.2)))
    (fun c => [c]) 0 body

/-! ### Mentions -/

inductive MentionType where
  | user
  | agent
deriving DecidableEq

def mentionTokenPattern : List Part :=
  [sign '@', oneOf (word "human") (word "agent"), sign ':', uuid]

/-- Only a `human` in small letters is a user. -/
def mentionText (resolve : MentionType → List Char → Option (List Char)) :
    List (List Char) → Option (List Char)
  | [_, kind, _, id] => resolve (if kind = "human".toList then .user else .agent)
      (id.map Char.toLower)
  | _                => none

def replaceMentionTokens (body : List Char)
    (resolve : MentionType → List Char → Option (List Char)) : List Char :=
  replaceTokens mentionTokenPattern (mentionText resolve) body

/-! ### Numbers -/

/-- The double nearest to a whole number, `none` for `Infinity`. -/
def nearestDouble (n : ℕ) : Option ℕ :=
  let e := n.log2 - 52
  let q := n / 2 ^ e
  let r := n % 2 ^ e
  let m := if 2 * r > 2 ^ e ∨ (2 * r = 2 ^ e ∧ q % 2 = 1) then q + 1 else q
  if (m * 2 ^ e).log2 < 1024 then some (m * 2 ^ e) else none

/-- `Number(digits)`. -/
def toNumber (digits : List Char) : Option ℕ :=
  nearestDouble (digits.foldl (fun n c => 10 * n + (c.toNat - '0'.toNat)) 0)

/-- The number with the fewest significant digits that reads as the double `x`, and of two such the
one nearest to it. -/
def shortest (x : ℕ) : ℕ :=
  let candidate (j : ℕ) : Option ℕ :=
    let low := x / 10 ^ j * 10 ^ j
    let high := low + 10 ^ j
    if nearestDouble low = some x ∧
        (nearestDouble high ≠ some x ∨ x - low < high - x ∨
          (x - low = high - x ∧ x / 10 ^ j % 2 = 0)) then some low
    else if nearestDouble high = some x then some high else none
  ((List.range ((Nat.toDigits 10 x).length + 1)).reverse.findSome? candidate).getD x

/-- `String(number)`: all the digits up to 21 of them, and a power of ten from there on. -/
def numberText : Option ℕ → List Char
  | none   => "Infinity".toList
  | some x =>
    let ds := Nat.toDigits 10 (shortest x)
    if ds.length ≤ 21 then ds
    else
      let significant := (ds.reverse.dropWhile (· = '0')).reverse
      significant.take 1 ++
        (if significant.length ≤ 1 then [] else '.' :: significant.drop 1) ++
        "e+".toList ++ Nat.toDigits 10 (ds.length - 1)

/-! ### Tasks, threads and channels -/

def taskReferenceTokenPattern : List Part := [sign '@', word "task", sign ':', digits]

def taskReferenceText (resolve : Option ℕ → Option (List Char)) :
    List (List Char) → Option (List Char)
  | [_, _, _, number] => resolve (toNumber number)
  | _                 => none

def replaceTaskReferenceTokens (body : List Char) (resolve : Option ℕ → Option (List Char)) :
    List Char :=
  replaceTokens taskReferenceTokenPattern (taskReferenceText resolve) body

/-- A channel's current name when it is known, otherwise the one that the token stored. -/
def currentOr (currentName : Option (List Char → Option (List Char))) (id stored : List Char) :
    List Char :=
  (currentName.bind fun f => f (id.map Char.toLower)).getD stored

/-- `#name:` and the first eight characters of the root message's id. -/
def threadReferenceText (name rootId : List Char) : List Char :=
  '#' :: name ++ ':' :: (rootId.take 8).map Char.toLower

def threadReferenceTokenPattern : List Part :=
  [sign '@', word "thread", sign ':', uuid, sign ':', uuid, sign ':', name]

def threadText (currentName : Option (List Char → Option (List Char))) :
    List (List Char) → Option (List Char)
  | [_, _, _, channelId, _, rootId, _, name] =>
      some (threadReferenceText (currentOr currentName channelId name) rootId)
  | _ => none

def replaceThreadReferenceTokens (body : List Char)
    (currentName : Option (List Char → Option (List Char))) : List Char :=
  replaceTokens threadReferenceTokenPattern (threadText currentName) body

def channelReferenceTokenPattern : List Part :=
  [sign '@', word "channel", sign ':', uuid, sign ':', name]

def channelText (currentName : Option (List Char → Option (List Char))) :
    List (List Char) → Option (List Char)
  | [_, _, _, id, _, name] => some ('#' :: currentOr currentName id name)
  | _                      => none

def replaceChannelReferenceTokens (body : List Char)
    (currentName : Option (List Char → Option (List Char))) : List Char :=
  replaceTokens channelReferenceTokenPattern (channelText currentName) body

/-! ### The readable body -/

structure ReadableBodyNames where
  mention : MentionType → List Char → Option (List Char)
  channelName : Option (List Char → Option (List Char))

/-- `body.includes("<@")`. -/
def includesMark (body : List Char) : Bool := body.tails.any ("<@".toList.isPrefixOf ·)

/-- What a mention reads as. -/
def readMention (names : ReadableBodyNames) (type : MentionType) (id : List Char) :
    Option (List Char) :=
  (names.mention type id).map fun name => '@' :: name

def readTask (number : Option ℕ) : Option (List Char) :=
  some ("task #".toList ++ numberText number)

def readableBody (body : List Char) (names : ReadableBodyNames) : List Char :=
  if !includesMark body then body
  else
    let mentions := replaceMentionTokens body (readMention names)
    let tasks := replaceTaskReferenceTokens mentions readTask
    let threads := replaceThreadReferenceTokens tasks names.channelName
    replaceChannelReferenceTokens threads names.channelName

example : readableBody "see <@task:7>".toList ⟨fun _ _ => none, none⟩ = "see task #7".toList := by
  decide

end Coforge.Bodies
