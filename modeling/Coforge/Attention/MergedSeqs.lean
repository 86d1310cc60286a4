import Coforge.Attention.Index

/-!
# Exact sequences merged or normalized

`mergeSeenExactSeqs` merges two lists that ascend in one pass, and `normalizeSeenExactSeqs` sorts
any numbers. A number is a rational or infinite. No number is above NaN, and none above `⊤`, which
stands for it as a boundary.
-/

namespace Coforge.Attention.Merged

abbrev Number := WithBot (WithTop ℚ)

/-- `Number.isSafeInteger`. -/
def isSafeInteger : Number → Bool
  | some (some x) => x.den = 1 ∧ |x| ≤ 2 ^ 53 - 1
  | _             => false

def normalizeSeenExactSeqs (values : List Number) (after : Number) : List Number :=
  History.sliceLast seenExactSeqsLimit
    ((values.filter fun value => isSafeInteger value ∧ after < value).dedup.mergeSort
      fun left right => left ≤ right)

def mergeSeenExactSeqs (after : Number) (left right : List Number) : List Number :=
  History.sliceLast seenExactSeqsLimit (Ascending.mergeAbove after left right)

/-- Lists of positive safe integers that ascend are merged as they are normalized together. -/
theorem mergeSeenExactSeqs_eq (after : Number) {left right : List Number}
    (hleft : left.Pairwise (· ≤ ·)) (hright : right.Pairwise (· ≤ ·))
    (hsafe : ∀ x ∈ left ++ right, isSafeInteger x ∧ 0 < x) :
    mergeSeenExactSeqs after left right = normalizeSeenExactSeqs (left ++ right) after := by
  have hkept : ((left ++ right).filter fun value => decide (isSafeInteger value ∧ after < value)) =
      (left ++ right).filter fun value => after < value := by
    refine List.filter_congr fun x hx => ?_
    simp [(hsafe x hx).1]
  rw [mergeSeenExactSeqs, normalizeSeenExactSeqs, hkept,
    Ascending.mergeAbove_eq_mergeSort after hleft hright]

theorem mergeSeenExactSeqs_eq_above :
    mergeSeenExactSeqs (1 : ℚ) [(1 : ℚ), (2 : ℚ)] [(2 : ℚ), (3 : ℚ)] =
      normalizeSeenExactSeqs [(1 : ℚ), (2 : ℚ), (2 : ℚ), (3 : ℚ)] (1 : ℚ) :=
  mergeSeenExactSeqs_eq _ (by decide) (by decide) (by decide +kernel)

end Coforge.Attention.Merged
