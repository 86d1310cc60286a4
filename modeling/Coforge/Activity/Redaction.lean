import Coforge.Lib.Rewriting

/-!
# Redacting streamed text

Three passes replace what looks like a secret: the value behind a key word and a `:` or `=`, a key
that starts with `sk-`, and the token behind `Bearer`. Where a pass takes all the characters of a
class, giving one of them back would never make the rest of its pattern match.
-/

namespace Coforge.Activity

/-- `\s`. -/
def space (c : Char) : Bool :=
  c ∈ ['\t', '\n', '\x0b', '\x0c', '\r', ' ', '\u00a0', '\u1680', '\u2028', '\u2029', '\u202f',
    '\u205f', '\u3000', '\ufeff'] || ('\u2000' ≤ c && c ≤ '\u200a')

/-- Whether a text starts with a word, ignoring case. -/
def startsWith (word : String) (s : List Char) : Bool :=
  (s.take word.toList.length).map Char.toLower = word.toList

/-- `api[_-]?key|token|secret|password`: the length of the key word at the front. -/
def keyWord (s : List Char) : Option ℕ :=
  if startsWith "apikey" s || startsWith "secret" s then some 6
  else if startsWith "api_key" s || startsWith "api-key" s then some 7
  else if startsWith "token" s then some 5
  else if startsWith "password" s then some 8
  else none

def redacted : List Char := "[REDACTED]".toList

/-- A class of characters at the front, and what stands behind it. -/
def spanOf (p : Char → Bool) (s : List Char) : List Char × List Char := (s.takeWhile p, s.dropWhile p)

/-- `((?:api[_-]?key|token|secret|password)\s*[:=]\s*)[^\s,;]+`. -/
def secretValue (s : List Char) : Option (ℕ × List Char) :=
  (keyWord s).bind fun n =>
    let (blank, s₁) := spanOf space (s.drop n)
    match s₁ with
    | []      => none
    | c :: s₂ =>
      let (blank', s₃) := spanOf space s₂
      let value := s₃.takeWhile fun c => !space c && c ≠ ',' && c ≠ ';'
      if (c = ':' ∨ c = '=') ∧ value ≠ [] then
        let kept := s.take n ++ blank ++ c :: blank'
        some (kept.length + value.length, kept ++ redacted)
      else none

/-- `sk-[A-Za-z0-9_-]+`. -/
def secretKey (s : List Char) : Option (ℕ × List Char) :=
  let key := (s.drop 3).takeWhile fun c => c.isAlphanum || c = '_' || c = '-'
  if s.take 3 = "sk-".toList ∧ key ≠ [] then some (3 + key.length, redacted) else none

/-- `Bearer\s+\S+`. -/
def bearerToken (s : List Char) : Option (ℕ × List Char) :=
  let (blank, s₁) := spanOf space (s.drop 6)
  let token := s₁.takeWhile fun c => !space c
  if startsWith "bearer" s ∧ blank ≠ [] ∧ token ≠ [] then
    some (6 + blank.length + token.length, "Bearer ".toList ++ redacted)
  else none

/-- `text.replace(pattern, …)`. -/
def replaceAll (find : List Char → Option (ℕ × List Char)) (text : List Char) : List Char :=
  replaceFrom find (fun c => [c]) 0 text

def redactTrajectoryText (text : List Char) : List Char :=
  replaceAll bearerToken (replaceAll secretKey (replaceAll secretValue text))

example : redactTrajectoryText "token=split-secret sk-example Bearer private-value".toList =
    "token=[REDACTED] [REDACTED] Bearer [REDACTED]".toList := by decide

end Coforge.Activity
