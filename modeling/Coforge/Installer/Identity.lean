import Coforge.Lib.Document
import Coforge.Release.Names

/-!
# Identities of files

A file on the release feed, or of an installed version, is known by its size and its checksum.
-/

namespace Coforge.Installer

open Release (shapeMatches shapeMatches_replicate)

/-- Byte size and lowercase hex SHA-256 of one file. -/
structure ArtifactIdentity where
  size : Nat
  checksum : String
deriving DecidableEq

/-- `MAX_SAFE_SIZE`: the largest size that JavaScript holds exactly. -/
def maxSafeSize : Nat := 2 ^ 53 - 1

/-- `[0-9a-f]`. -/
def lowerHexDigit (c : Char) : Bool := c.isDigit || ('a' ≤ c && c ≤ 'f')

/-- The installer's rule: a size that JavaScript can represent, and 64 lowercase digits. -/
def isValidIdentity (identity : ArtifactIdentity) : Bool :=
  identity.size ≤ maxSafeSize && identity.checksum.toList.length = 64 &&
    identity.checksum.toList.all lowerHexDigit

/-- `CHECKSUM_PATTERN`. -/
def checksumPattern (value : String) : Bool :=
  shapeMatches (List.replicate 64 lowerHexDigit) value.toList

/-- The Computer's rule. -/
def validIdentity (value : Option Document) : Bool :=
  match value.bind (·.get? "size"), value.bind (·.get? "checksum") with
  | some size, some (.str checksum) =>
    (size.integer?.any fun n => 0 ≤ n ∧ n ≤ 2 ^ 53 - 1) && checksumPattern checksum
  | _, _ => false

namespace Identity

/-- The members of an identity, as the two readers see them. -/
def members : Twin Serde.Members ArtifactIdentity :=
  (Twin.required "size" (.natural 64 (2 ^ 64) le_rfl)).map ArtifactIdentity.mk
    |>.seq (.required "checksum" .string)

/-- A valid identity, with other members beside it. -/
def readers : Twin Document ArtifactIdentity :=
  (members.comap Document.get?).filter isValidIdentity

lemma isValidIdentity_iff {identity : ArtifactIdentity} : isValidIdentity identity = true ↔
      identity.size < 2 ^ 53 ∧ checksumPattern identity.checksum = true := by
  rw [isValidIdentity, checksumPattern, shapeMatches_replicate, maxSafeSize]
  simp only [Bool.and_eq_true, decide_eq_true_eq, List.all_eq_true, and_assoc]
  exact and_congr_left fun _ => Nat.lt_iff_le_pred (by decide) |>.symm

lemma members_right {m : Serde.Members} {identity : ArtifactIdentity} :
    members.right m = some identity ↔
      (∃ v, m "size" = some v ∧ v.natBelow (2 ^ 64) = some identity.size) ∧
        m "checksum" = some (.str identity.checksum) := by
  simp only [members, Twin.seq, Twin.map, Option.seq_eq_some, Option.map_eq_map,
    Option.map_eq_some_iff, Twin.natural_right, Twin.required_string_right]
  constructor
  · rintro ⟨_, _, ⟨size, hsize, rfl⟩, hchecksum, rfl⟩
    exact ⟨hsize, hchecksum⟩
  · rintro ⟨hsize, hchecksum⟩
    exact ⟨_, _, ⟨_, hsize, rfl⟩, hchecksum, rfl⟩

lemma validIdentity_some (v : Document) : validIdentity (some v) = (readers.right v).isSome := by
  have hright : (readers.right v).isSome = true ↔
      ∃ identity, members.right v.get? = some identity ∧ isValidIdentity identity = true :=
    Option.isSome_filter_iff
  rw [Bool.eq_iff_iff, hright]
  simp only [members_right, isValidIdentity_iff, validIdentity, Option.bind_some,
    Document.natBelow_eq_some]
  constructor
  · intro h
    split at h
    · rename_i size checksum hsize hchecksum
      obtain ⟨hany, hpattern⟩ := Bool.and_eq_true_iff.mp h
      obtain ⟨n, hn, hbound⟩ := Option.any_eq_true _ _ |>.mp hany
      obtain ⟨hnonneg, hmax⟩ := of_decide_eq_true hbound
      have hcast : ((n.toNat : Nat) : Int) = n := Int.toNat_of_nonneg hnonneg
      refine ⟨⟨n.toNat, checksum⟩, ⟨⟨size, hsize, ?_, ?_⟩, hchecksum⟩, ?_, hpattern⟩
      · rw [hcast]
        exact hn
      · simp only
        omega
      · simp only
        omega
    · exact nomatch h
  · rintro ⟨⟨n, checksum⟩, ⟨⟨size, hsize, hn, -⟩, hchecksum⟩, hmax, hpattern⟩
    simp only [hsize, hchecksum, hn, Option.any_some, hpattern, Bool.and_true, decide_eq_true_eq]
    simp only at hmax
    omega

end Identity

end Coforge.Installer
