import Coforge.Installer.Installed
import Coforge.Installer.ManifestReaders

/-!
# Where the two checks of an installed version agree

Each of them takes records that the other does not: arrays for objects the one, numbers with a
fraction and bad members of a later schema the other; and they do not trim the marker alike.
-/

namespace Coforge.Installer

open Option Twin
open Release (Failure isValidReleaseVersion)

/-- The files that a record of its schema has to name. -/
structure RetainedFiles where
  computer : ArtifactIdentity
  agentCli : ArtifactIdentity
  githubCli : Option ArtifactIdentity
  photonWasm : Option ArtifactIdentity

namespace InstalledReaders

/-! ### Member by member -/

def artifact : Twin Document ArtifactIdentity :=
  ((Twin.struct ["size", "checksum"]).andThen Identity.members).filter isValidIdentity

/-- A file that the schema has. Otherwise only the installer looks at the member. -/
def fileOf (key : String) (has : Bool) : Twin Serde.Members (Option ArtifactIdentity) :=
  if has then (Twin.required key artifact).map some
  else (Twin.leftChecks (Serde.optional key ArtifactIdentity.deserialize)).map fun _ => none

def files (version : String) (schema : Nat) : Twin Serde.Members RetainedFiles :=
  ((Twin.required "version" .string).filter (· = version)).map (fun _ => RetainedFiles.mk)
    |>.seq (.required "computer" artifact)
    |>.seq (.required "agentCli" artifact)
    |>.seq (fileOf "githubCli" (3 ≤ schema))
    |>.seq (fileOf "photonWasm" (schema = 4))

def members (version : String) : Twin Serde.Members RetainedFiles :=
  ((Twin.required "schema_version" (.natural 32 (2 ^ 32) le_rfl)).filter
    fun schema => 2 ≤ schema ∧ schema ≤ 4).bind (files version)

/-- What both tools take from `installation.json`. -/
def record (version : String) : Twin Document RetainedFiles :=
  (Twin.same fun raw => if (raw.get? "daemon").isNone then some id else none)
    |>.seq ((Twin.struct installedMembers).andThen (members version))

/-- The marker is the version, less the white space around it. -/
def marker (version : String) : Twin String Unit :=
  .checks (fun text => trim isWhitespace text = version)
    fun text => trim Updater.isWhitespace text = version

/-- The name of the version is a valid one. -/
def name (version : String) : Twin VersionDirectory Unit :=
  .leftChecks fun _ => if isValidReleaseVersion version then some () else none

section Files

variable (sha256 : List UInt8 → String) (directory : VersionDirectory)

/-- The file of this name has this identity. -/
def stored (name : String) (identity : ArtifactIdentity) : Bool :=
  (directory.file name).map (measureFile sha256) = some identity

def intact (target : String) (files : RetainedFiles) : Bool :=
  stored sha256 directory (computerName target) files.computer &&
    stored sha256 directory (agentCliName target) files.agentCli &&
    files.githubCli.all (stored sha256 directory (githubCliName target)) &&
    files.photonWasm.all (stored sha256 directory photonWasmFile)

end Files

end InstalledReaders

open InstalledReaders in
/-- The two checks of an installed version. -/
def installedReaders (sha256 : List UInt8 → String) (target version : String) :
    Twin VersionDirectory RetainedFiles :=
  ((name version).map (fun _ _ files => files)
      |>.seq ((Twin.same VersionDirectory.marker).andThen (marker version))
      |>.seq ((Twin.same VersionDirectory.installation).andThen (record version))).bind
    fun files => .same fun directory =>
      if intact sha256 directory target files then some files else none

namespace InstalledReaders

/-! ### The installer -/

section Installer

variable {sha256 : List UInt8 → String} {directory : VersionDirectory} {target version : String}

/-- What the installer keeps of a record. -/
def retained (identity : InstalledIdentity) : RetainedFiles where
  computer := identity.computer
  agentCli := identity.agentCli
  githubCli := if 3 ≤ identity.schemaVersion then identity.githubCli else none
  photonWasm := if identity.schemaVersion = 4 then identity.photonWasm else none

/-- What is recorded of a file is valid. -/
def Valid (o : Option ArtifactIdentity) : Prop := ∃ i, o = some i ∧ isValidIdentity i = true

lemma readable_eq_ok {α : Type} {o : Option α} {a : α} : readable o = .ok a ↔ o = some a := by
  cases o with
  | none => exact ⟨nofun, nofun⟩
  | some b =>
    constructor
    · intro h
      rw [Except.ok.inj h]
    · intro h
      rw [some.inj h]
      rfl

lemma isOk_require {message : String} {x : Except Fault Bool} :
    (require message x).isOk = true ↔ x = .ok true := by
  cases x with
  | error e => exact ⟨nofun, nofun⟩
  | ok b =>
    cases b with
    | true => exact ⟨fun _ => rfl, fun _ => rfl⟩
    | false => exact ⟨nofun, nofun⟩

variable {name : String} {i : ArtifactIdentity}

lemma stored_iff : stored sha256 directory name i = true ↔
      ∃ bytes, directory.file name = some bytes ∧ measureFile sha256 bytes = i := by
  rw [stored, decide_eq_true_eq, map_eq_some_iff]

variable {o : Option ArtifactIdentity}

lemma fileMatches_eq : fileMatches sha256 directory name o = .ok true ↔
      ∃ i, o = some i ∧ isValidIdentity i = true ∧ stored sha256 directory name i = true := by
  rw [fileMatches]
  cases hvalid : o.filter isValidIdentity with
  | none =>
    refine ⟨nofun, ?_⟩
    rintro ⟨i, rfl, hi, -⟩
    rw [Option.filter, hi] at hvalid
    exact nomatch hvalid
  | some i =>
    obtain ⟨rfl, hi⟩ := filter_eq_some_iff.mp hvalid
    have hsame : (∃ j, some i = some j ∧ isValidIdentity j = true ∧
        stored sha256 directory name j = true) ↔ stored sha256 directory name i = true := by
      constructor
      · rintro ⟨j, hj, -, h⟩
        rw [some.inj hj]
        exact h
      · exact fun h => ⟨i, rfl, hi, h⟩
    rw [hsame, stored_iff]
    cases directory.file name with
    | none => exact ⟨nofun, fun ⟨_, h, _⟩ => nomatch h⟩
    | some bytes =>
      change (if bytes.length ≠ i.size then Except.ok false
        else .ok (decide (measureFile sha256 bytes = i))) = .ok true ↔ _
      constructor
      · intro h
        split_ifs at h
        · exact nomatch h
        · exact ⟨bytes, rfl, of_decide_eq_true (Except.ok.inj h)⟩
      · rintro ⟨other, hother, rfl⟩
        cases hother
        have hsize : ¬bytes.length ≠ (measureFile sha256 bytes).size := not_not.mpr rfl
        rw [if_neg hsize, decide_eq_true rfl]

lemma isOk_check : (check sha256 target directory version).isOk = true ↔
    ∃ marker raw identity, directory.marker = some marker ∧ trim isWhitespace marker = version ∧
      directory.installation = some raw ∧ raw.get? "daemon" = none ∧
      InstalledIdentity.deserialize raw = some identity ∧ identity.version = version ∧
      (2 ≤ identity.schemaVersion ∧ identity.schemaVersion ≤ 4) ∧
      fileMatches sha256 directory (computerName target) (some identity.computer) = .ok true ∧
      fileMatches sha256 directory (agentCliName target) (some identity.agentCli) = .ok true ∧
      (3 ≤ identity.schemaVersion →
        fileMatches sha256 directory (githubCliName target) identity.githubCli = .ok true) ∧
      (identity.schemaVersion = 4 →
        fileMatches sha256 directory photonWasmFile identity.photonWasm = .ok true) := by
  simp only [check, ↓Except.isOk_andThen, Except.isOk_bind, Except.isOk_when, Except.isOk_guard,
    isOk_require, readable_eq_ok, not_or, not_not, isSome_iff_ne_none]
  constructor
  · rintro ⟨_, -, marker, hmarker, raw, hraw, identity, hidentity, hgithub, hagent, hphoton,
      ⟨htrim, hschema, hversion, hdaemon⟩, hcomputer⟩
    exact ⟨marker, raw, identity, hmarker, htrim, hraw, hdaemon, hidentity, hversion, hschema,
      hcomputer, hagent, fun h => hgithub (by omega), hphoton⟩
  · rintro ⟨marker, raw, identity, hmarker, htrim, hraw, hdaemon, hidentity, hversion, hschema,
      hcomputer, hagent, hgithub, hphoton⟩
    obtain ⟨i, hi, -, hstored⟩ := fileMatches_eq.mp hcomputer
    obtain ⟨bytes, hbytes, -⟩ := stored_iff.mp hstored
    exact ⟨bytes, hbytes, marker, hmarker, raw, hraw, identity, hidentity,
      fun h => hgithub (by omega), hagent, hphoton, ⟨htrim, hschema, hversion, hdaemon⟩, hcomputer⟩

variable {v : Document} {m : Serde.Members} {key : String}

lemma deserialize_eq {identity : InstalledIdentity} :
    InstalledIdentity.deserialize v = some identity ↔
      ∃ m, Serde.struct installedMembers v = some m ∧
        (m "schema_version").bind (Serde.unsigned 32) = some identity.schemaVersion ∧
        (m "version").bind Serde.string = some identity.version ∧
        (m "computer").bind ArtifactIdentity.deserialize = some identity.computer ∧
        (m "agentCli").bind ArtifactIdentity.deserialize = some identity.agentCli ∧
        Serde.optional "githubCli" ArtifactIdentity.deserialize m = some identity.githubCli ∧
        Serde.optional "photonWasm" ArtifactIdentity.deserialize m = some identity.photonWasm := by
  simp only [InstalledIdentity.deserialize, bind_eq_some_iff (x := Serde.struct _ _),
    Serde.required, seq_eq_some, map_eq_map, map_eq_some_iff]
  refine exists_congr fun m => and_congr_right fun _ => ?_
  constructor
  · rintro ⟨_, _, ⟨_, _, ⟨_, _, ⟨_, _, ⟨_, _, ⟨_, h₁, rfl⟩, h₂, rfl⟩, h₃, rfl⟩, h₄, rfl⟩, h₅, rfl⟩, h₆,
      rfl⟩
    exact ⟨h₁, h₂, h₃, h₄, h₅, h₆⟩
  · rintro ⟨h₁, h₂, h₃, h₄, h₅, h₆⟩
    exact ⟨_, _, ⟨_, _, ⟨_, _, ⟨_, _, ⟨_, _, ⟨_, h₁, rfl⟩, h₂, rfl⟩, h₃, rfl⟩, h₄, rfl⟩, h₅, rfl⟩, h₆,
      rfl⟩

lemma artifact_left : artifact.left v = some i ↔
    ArtifactIdentity.deserialize v = some i ∧ isValidIdentity i = true :=
  filter_eq_some_iff

lemma required_artifact_left : (Twin.required key artifact).left m = some i ↔
      (m key).bind ArtifactIdentity.deserialize = some i ∧ isValidIdentity i = true := by
  change (m key).bind artifact.left = some i ↔ _
  cases m key with
  | none => exact ⟨nofun, fun h => nomatch h.1⟩
  | some d => exact artifact_left

/-- A file that the schema has is recorded validly; any other member is of the right type. -/
lemma fileOf_left {has : Prop} [Decidable has] : (fileOf key has).left m = some o ↔
      ∃ recorded, Serde.optional key ArtifactIdentity.deserialize m = some recorded ∧
        (has → Valid recorded) ∧ o = if has then recorded else none := by
  by_cases h : has
  · simp only [fileOf, h, decide_true, if_true, forall_const]
    change some <$> (required key artifact).left m = some o ↔ _
    simp only [map_eq_map, map_eq_some_iff, required_artifact_left, Valid]
    constructor
    · rintro ⟨i, ⟨hi, hvalid⟩, rfl⟩
      refine ⟨some i, ?_, ⟨i, rfl, hvalid⟩, rfl⟩
      obtain ⟨d, hd, hi⟩ := bind_eq_some_iff.mp hi
      rw [Serde.optional, hd]
      cases d with
      | null => exact nomatch hi
      | _ =>
        simp only [hi]
        rfl
    · rintro ⟨_, hi, ⟨i, rfl, hvalid⟩, rfl⟩
      refine ⟨i, ⟨?_, hvalid⟩, rfl⟩
      rw [Serde.optional] at hi
      split at hi
      · exact nomatch hi
      · exact nomatch hi
      · rename_i d _ hd
        obtain ⟨_, hd', hi⟩ := map_eq_some_iff.mp hi
        rw [hd, bind_some, hd', some.inj hi]
  · simp only [fileOf, h, decide_false, if_false, false_implies, true_and]
    change (fun _ => none) <$> (Serde.optional key ArtifactIdentity.deserialize m).map
      (fun _ => ()) = some o ↔ _
    cases Serde.optional key ArtifactIdentity.deserialize m with
    | none => exact ⟨nofun, fun ⟨_, h, _⟩ => nomatch h⟩
    | some recorded => simp [eq_comm]

variable {r : RetainedFiles}

lemma files_left {schema : Nat} : (files version schema).left m = some r ↔
      (m "version").bind Serde.string = some version ∧
      ((m "computer").bind ArtifactIdentity.deserialize = some r.computer ∧
        isValidIdentity r.computer = true) ∧
      ((m "agentCli").bind ArtifactIdentity.deserialize = some r.agentCli ∧
        isValidIdentity r.agentCli = true) ∧
      (fileOf "githubCli" (3 ≤ schema)).left m = some r.githubCli ∧
      (fileOf "photonWasm" (schema = 4)).left m = some r.photonWasm := by
  simp only [← required_artifact_left, files, seq, map, filter, seq_eq_some,
    map_eq_map, map_eq_some_iff, filter_eq_some_iff]
  constructor
  · rintro ⟨_, _, ⟨_, _, ⟨_, _, ⟨_, _, ⟨s, ⟨hversion, hs⟩, rfl⟩, hcomputer, rfl⟩, hagent, rfl⟩,
      hgithub, rfl⟩, hphoton, rfl⟩
    obtain rfl := of_decide_eq_true hs
    exact ⟨hversion, hcomputer, hagent, hgithub, hphoton⟩
  · rintro ⟨hversion, hcomputer, hagent, hgithub, hphoton⟩
    exact ⟨_, _, ⟨_, _, ⟨_, _, ⟨_, _, ⟨_, ⟨hversion, decide_eq_true rfl⟩, rfl⟩, hcomputer, rfl⟩,
      hagent, rfl⟩, hgithub, rfl⟩, hphoton, rfl⟩

lemma record_left : (record version).left v = some r ↔
    v.get? "daemon" = none ∧ ∃ identity, InstalledIdentity.deserialize v = some identity ∧
      identity.version = version ∧ (2 ≤ identity.schemaVersion ∧ identity.schemaVersion ≤ 4) ∧
      isValidIdentity identity.computer = true ∧ isValidIdentity identity.agentCli = true ∧
      (3 ≤ identity.schemaVersion → Valid identity.githubCli) ∧
      (identity.schemaVersion = 4 → Valid identity.photonWasm) ∧ r = retained identity := by
  have hdaemon : (record version).left v = some r ↔ v.get? "daemon" = none ∧
      ∃ m schema, Serde.struct installedMembers v = some m ∧
        ((m "schema_version").bind (Serde.unsigned 32) = some schema ∧
          (2 ≤ schema ∧ schema ≤ 4)) ∧ (files version schema).left m = some r := by
    have hleft : (record version).left v = (if (v.get? "daemon").isNone then some id else none) <*>
        (Serde.struct installedMembers v).bind fun m =>
          (((m "schema_version").bind (Serde.unsigned 32)).filter fun schema =>
            2 ≤ schema ∧ schema ≤ 4).bind fun schema => (files version schema).left m := rfl
    simp only [hleft, seq_eq_some, bind_eq_some_iff (x := Serde.struct _ _),
      Option.bind_eq_some_iff (x := Option.filter _ _), Option.filter_eq_some_iff,
      decide_eq_true_eq]
    constructor
    · rintro ⟨f, a, hnone, ⟨m, hm, schema, hschema, ha⟩, rfl⟩
      split_ifs at hnone with hdaemon
      cases hnone
      exact ⟨Option.isNone_iff_eq_none.mp hdaemon, m, schema, hm, hschema, ha⟩
    · rintro ⟨hdaemon, m, schema, hm, hschema, ha⟩
      exact ⟨id, r, by rw [hdaemon]; rfl, ⟨m, hm, schema, hschema, ha⟩, rfl⟩
  rw [hdaemon]
  simp only [deserialize_eq, files_left, fileOf_left]
  refine and_congr_right fun _ => ?_
  constructor
  · rintro ⟨m, schema, hm, ⟨hschema, hbound⟩, hversion, ⟨hcomputer, hvalid⟩, ⟨hagent, hvalid'⟩,
      ⟨githubCli, hgithub, hvalid₃, hr₃⟩, photonWasm, hphoton, hvalid₄, hr₄⟩
    refine ⟨⟨schema, version, r.computer, r.agentCli, githubCli, photonWasm⟩,
      ⟨m, hm, hschema, hversion, hcomputer, hagent, hgithub, hphoton⟩, rfl, hbound, hvalid, hvalid',
      hvalid₃, hvalid₄, ?_⟩
    rw [retained, ← hr₃, ← hr₄]
  · rintro ⟨⟨schema, _, computer, agentCli, githubCli, photonWasm⟩, ⟨m, hm, hschema, hversion,
      hcomputer, hagent, hgithub, hphoton⟩, rfl, hbound, hvalid, hvalid', hvalid₃, hvalid₄, rfl⟩
    exact ⟨m, schema, hm, ⟨hschema, hbound⟩, hversion, ⟨hcomputer, hvalid⟩, ⟨hagent, hvalid'⟩,
      ⟨githubCli, hgithub, hvalid₃, rfl⟩, photonWasm, hphoton, hvalid₄, rfl⟩

lemma fileMatches_some : fileMatches sha256 directory name (some i) = .ok true ↔
      isValidIdentity i = true ∧ stored sha256 directory name i = true := by
  rw [fileMatches_eq]
  constructor
  · rintro ⟨j, hj, h⟩
    rw [some.inj hj]
    exact h
  · exact fun h => ⟨i, rfl, h⟩

lemma all_stored {has : Prop} [Decidable has] :
    (has → fileMatches sha256 directory name o = .ok true) ↔ (has → Valid o) ∧
      (if has then o else none).all (stored sha256 directory name) = true := by
  by_cases h : has
  · simp only [h, if_true, forall_const, fileMatches_eq, Valid]
    constructor
    · rintro ⟨i, rfl, hvalid, hstored⟩
      exact ⟨⟨i, rfl, hvalid⟩, hstored⟩
    · rintro ⟨⟨i, rfl, hvalid⟩, hstored⟩
      exact ⟨i, rfl, hvalid, hstored⟩
  · simp [h]

lemma intact_iff : intact sha256 directory target r = true ↔
    stored sha256 directory (computerName target) r.computer = true ∧
      stored sha256 directory (agentCliName target) r.agentCli = true ∧
      r.githubCli.all (stored sha256 directory (githubCliName target)) = true ∧
      r.photonWasm.all (stored sha256 directory photonWasmFile) = true := by
  simp only [intact, Bool.and_eq_true, and_assoc]

lemma verify_left : (verifyInstalled sha256 target directory version).isOk = true ↔
    ((installedReaders sha256 target version).left directory).isSome = true := by
  have hverify : (verifyInstalled sha256 target directory version).isOk = true ↔
      isValidReleaseVersion version = true ∧
        (check sha256 target directory version).isOk = true := by
    rw [verifyInstalled, Except.isOk_guard, Bool.not_eq_true', Bool.not_eq_false]
    refine and_congr_right fun _ => ?_
    cases check sha256 target directory version with
    | ok _ => exact ⟨fun _ => rfl, fun _ => rfl⟩
    | error fault => cases fault <;> exact ⟨nofun, nofun⟩
  have hleft : ((installedReaders sha256 target version).left directory).isSome = true ↔
      isValidReleaseVersion version = true ∧ ∃ marker raw, directory.marker = some marker ∧
        trim isWhitespace marker = version ∧ directory.installation = some raw ∧
        ∃ r, (record version).left raw = some r ∧ intact sha256 directory target r = true := by
    simp only [installedReaders, name, marker, Twin.bind, Twin.seq, Twin.map, Twin.andThen,
      Twin.comap, Twin.same, Twin.leftChecks, Twin.checks, isSome_iff_exists,
      bind_eq_some_iff, seq_eq_some, map_eq_map, map_eq_some_iff]
    constructor
    · rintro ⟨_, _, ⟨_, _, ⟨_, _, ⟨_, ⟨_, hname, -⟩, rfl⟩, ⟨text, htext, hmarker⟩, rfl⟩,
        ⟨raw, hraw, hread⟩, rfl⟩, hintact⟩
      split_ifs at hname hmarker hintact with hvalid htrim hfiles
      exact ⟨hvalid, text, raw, htext, of_decide_eq_true htrim, hraw, _, hread, hfiles⟩
    · rintro ⟨hvalid, text, raw, htext, htrim, hraw, r, hread, hfiles⟩
      have hmarker : (if decide (trim isWhitespace text = version) = true then some () else none) =
          some () := if_pos (decide_eq_true htrim)
      exact ⟨r, r, ⟨_, r, ⟨_, (), ⟨(), ⟨(), if_pos hvalid, trivial⟩, rfl⟩,
        ⟨text, htext, hmarker⟩, rfl⟩, ⟨raw, hraw, hread⟩, rfl⟩, if_pos hfiles⟩
  rw [hverify, hleft, isOk_check]
  refine and_congr_right fun _ => exists_congr fun marker => exists_congr fun raw => ?_
  simp only [record_left, fileMatches_some, all_stored]
  constructor
  · rintro ⟨identity, hmarker, htrim, hraw, hdaemon, hidentity, hversion, hschema,
      ⟨hvalid, hcomputer⟩, ⟨hvalid', hagent⟩, ⟨hvalid₃, hgithub⟩, hvalid₄, hphoton⟩
    exact ⟨hmarker, htrim, hraw, _, ⟨hdaemon, identity, hidentity, hversion, hschema, hvalid,
      hvalid', hvalid₃, hvalid₄, rfl⟩, intact_iff.mpr ⟨hcomputer, hagent, hgithub, hphoton⟩⟩
  · rintro ⟨hmarker, htrim, hraw, _, ⟨hdaemon, identity, hidentity, hversion, hschema, hvalid,
      hvalid', hvalid₃, hvalid₄, rfl⟩, hintact⟩
    obtain ⟨hcomputer, hagent, hgithub, hphoton⟩ := intact_iff.mp hintact
    exact ⟨identity, hmarker, htrim, hraw, hdaemon, hidentity, hversion, hschema,
      ⟨hvalid, hcomputer⟩, ⟨hvalid', hagent⟩, ⟨hvalid₃, hgithub⟩, hvalid₄, hphoton⟩

end Installer
/-! ### The Computer -/

section Computer

open Updater

variable {sha256 : List UInt8 → String} {directory : VersionDirectory} {target version : String}
  {v : Document} {m : Serde.Members} {key : String}

variable {i : ArtifactIdentity}

lemma artifact_right : artifact.right v = some i ↔
    identityOf v = some i ∧ isValidIdentity i = true := by
  have hright : artifact.right v =
      ((Serde.map v).bind Identity.members.right).filter isValidIdentity := rfl
  rw [hright, ManifestReaders.map_bind rfl]
  exact filter_eq_some_iff

lemma validIdentity_iff {o : Option Document} : validIdentity o = true ↔
    ∃ d i, o = some d ∧ artifact.right d = some i := by
  simp only [ManifestReaders.validIdentity_iff, artifact_right]

lemma matchesIdentity_iff {bytes : List UInt8} (h : artifact.right v = some i) :
    matchesIdentity sha256 bytes (some v) = true ↔ measureFile sha256 bytes = i := by
  obtain ⟨⟨d, hd, hsize⟩, hchecksum⟩ := Identity.members_right.mp (artifact_right.mp h).1
  obtain ⟨hinteger, -⟩ := Document.natBelow_eq_some.mp hsize
  rw [matchesIdentity, Bool.and_eq_true, ManifestReaders.isText_iff, decide_eq_true_eq,
    bind_some, bind_some, hd, hchecksum, bind_some, hinteger, measureFile]
  constructor
  · rintro ⟨hlength, hsum⟩
    obtain ⟨size, checksum⟩ := i
    rw [ArtifactIdentity.mk.injEq]
    exact ⟨(Int.ofNat.inj (some.inj hlength)).symm, (some.inj hsum).symm⟩
  · rintro rfl
    exact ⟨rfl, rfl⟩

lemma isOk_assertFile {message name : String} {o : Option Document} :
    (assertFile sha256 message o (directory.file name)).isOk = true ↔
      ∃ d i, o = some d ∧ artifact.right d = some i ∧ stored sha256 directory name i = true := by
  rw [assertFile, Except.isOk_guard, Bool.not_eq_true', Bool.not_eq_false, validIdentity_iff]
  constructor
  · rintro ⟨⟨d, i, rfl, hi⟩, hmatch⟩
    refine ⟨d, i, rfl, hi, ?_⟩
    rw [stored_iff]
    cases hbytes : directory.file name with
    | none =>
      rw [hbytes] at hmatch
      exact nomatch hmatch
    | some bytes =>
      rw [hbytes] at hmatch
      change (if matchesIdentity sha256 bytes (some d) then Except.ok ()
        else .error (integrity message)).isOk = true at hmatch
      split_ifs at hmatch with hsame
      · exact ⟨bytes, rfl, (matchesIdentity_iff hi).mp hsame⟩
      · exact nomatch hmatch
  · rintro ⟨d, i, rfl, hi, hstored⟩
    obtain ⟨bytes, hbytes, hmeasure⟩ := stored_iff.mp hstored
    refine ⟨⟨d, i, rfl, hi⟩, ?_⟩
    rw [hbytes]
    change (if matchesIdentity sha256 bytes (some d) then Except.ok ()
      else .error (integrity message)).isOk = true
    rw [if_pos ((matchesIdentity_iff hi).mpr hmeasure)]
    rfl

lemma isOk_assertInstalled : (assertInstalled sha256 target directory version).isOk = true ↔
      ∃ marker raw, directory.marker = some marker ∧ trim Updater.isWhitespace marker = version ∧
        directory.installation = some raw ∧ raw.get? "daemon" = none ∧
        (raw.get? "version").bind Serde.string = some version ∧
        (isSchema raw 2 = true ∨ isSchema raw 3 = true ∨ isSchema raw 4 = true) ∧
        (∃ d i, raw.get? "computer" = some d ∧ artifact.right d = some i ∧
          stored sha256 directory (computerName target) i = true) ∧
        (∃ d i, raw.get? "agentCli" = some d ∧ artifact.right d = some i ∧
          stored sha256 directory (agentCliName target) i = true) ∧
        (isSchema raw 3 = true ∨ isSchema raw 4 = true →
          ∃ d i, raw.get? "githubCli" = some d ∧ artifact.right d = some i ∧
            stored sha256 directory (githubCliName target) i = true) ∧ (isSchema raw 4 = true →
          ∃ d i, raw.get? "photonWasm" = some d ∧ artifact.right d = some i ∧
            stored sha256 directory photonWasmFile i = true) := by
  have hread {α : Type} {o : Option α} {a : α} : readFile o = .ok a ↔ o = some a := by
    cases o with
    | none => exact ⟨nofun, nofun⟩
    | some b => simp [readFile]
  have hok : (Except.ok () : Except Failure Unit).isOk = true := rfl
  simp only [assertInstalled, ↓Except.isOk_andThen, Except.isOk_bind, Except.isOk_when,
    Except.isOk_guard, isOk_assertFile, hread, not_or, not_not, isSome_iff_ne_none, hok,
    Bool.not_eq_true', Bool.not_eq_false, Bool.or_eq_true, ManifestReaders.isText_iff,
    validIdentity_iff, and_true]
  constructor
  · rintro ⟨bytes, hbytes, marker, hmarker, raw, hraw, -, hgithub, hagent, hphoton, htrim, hschema,
      hversion, hdaemon, ⟨d, i, hd, hi⟩, hmatch⟩
    rw [hd] at hmatch
    refine ⟨marker, raw, hmarker, htrim, hraw, hdaemon, hversion, or_assoc.mp hschema,
      ⟨d, i, hd, hi, ?_⟩, hagent, hgithub, hphoton⟩
    exact stored_iff.mpr ⟨bytes, hbytes, (matchesIdentity_iff hi).mp hmatch⟩
  · rintro ⟨marker, raw, hmarker, htrim, hraw, hdaemon, hversion, hschema, ⟨d, i, hd, hi, hstored⟩,
      hagent, hgithub, hphoton⟩
    obtain ⟨bytes, hbytes, hmeasure⟩ := stored_iff.mp hstored
    refine ⟨bytes, hbytes, marker, hmarker, raw, hraw, ?_, hgithub, hagent, hphoton, htrim,
      or_assoc.mpr hschema, hversion, hdaemon, ⟨d, i, hd, hi⟩, ?_⟩
    · obtain ⟨fields, rfl⟩ := ManifestReaders.obj_of_get? hd
      exact nofun
    · rw [hd]
      exact (matchesIdentity_iff hi).mpr hmeasure

lemma required_artifact_right : (Twin.required key artifact).right m = some i ↔
      ∃ d, m key = some d ∧ artifact.right d = some i :=
  required_right

lemma fileOf_right {has : Prop} [Decidable has] {o : Option ArtifactIdentity} :
    (fileOf key has).right m = some o ↔
      (has → ∃ d i, m key = some d ∧ artifact.right d = some i ∧ o = some i) ∧
        (¬has → o = none) := by
  by_cases h : has
  · simp only [fileOf, h, decide_true, if_true, forall_const, not_true, false_implies, and_true]
    change some <$> (required key artifact).right m = some o ↔ _
    simp only [map_eq_map, map_eq_some_iff, required_artifact_right]
    constructor
    · rintro ⟨i, ⟨d, hd, hi⟩, rfl⟩
      exact ⟨d, i, hd, hi, rfl⟩
    · rintro ⟨d, i, hd, hi, rfl⟩
      exact ⟨i, ⟨d, hd, hi⟩, rfl⟩
  · simp only [fileOf, h, decide_false, false_implies, true_and, not_false_eq_true, forall_const]
    change (fun _ => none) <$> some () = some o ↔ _
    simp [eq_comm]

lemma fileOf_stored {has : Prop} [Decidable has] {name : String} :
    (has → ∃ d i, m key = some d ∧ artifact.right d = some i ∧
      stored sha256 directory name i = true) ↔
      ∃ o, (fileOf key has).right m = some o ∧ o.all (stored sha256 directory name) = true := by
  simp only [fileOf_right]
  by_cases h : has
  · simp only [h, forall_const, not_true, false_implies, and_true]
    constructor
    · rintro ⟨d, i, hd, hi, hstored⟩
      exact ⟨some i, ⟨d, i, hd, hi, rfl⟩, hstored⟩
    · rintro ⟨_, ⟨d, i, hd, hi, rfl⟩, hstored⟩
      exact ⟨d, i, hd, hi, hstored⟩
  · simp [h]

lemma files_right {schema : Nat} {r : RetainedFiles} : (files version schema).right m = some r ↔
      (m "version").bind Serde.string = some version ∧
      (∃ d, m "computer" = some d ∧ artifact.right d = some r.computer) ∧
      (∃ d, m "agentCli" = some d ∧ artifact.right d = some r.agentCli) ∧
      (fileOf "githubCli" (3 ≤ schema)).right m = some r.githubCli ∧
      (fileOf "photonWasm" (schema = 4)).right m = some r.photonWasm := by
  simp only [← required_artifact_right, files, seq, map, filter,
    seq_eq_some, map_eq_map, map_eq_some_iff, filter_eq_some_iff]
  constructor
  · rintro ⟨_, _, ⟨_, _, ⟨_, _, ⟨_, _, ⟨s, ⟨hversion, hs⟩, rfl⟩, hcomputer, rfl⟩, hagent, rfl⟩,
      hgithub, rfl⟩, hphoton, rfl⟩
    obtain rfl := of_decide_eq_true hs
    exact ⟨hversion, hcomputer, hagent, hgithub, hphoton⟩
  · rintro ⟨hversion, hcomputer, hagent, hgithub, hphoton⟩
    exact ⟨_, _, ⟨_, _, ⟨_, _, ⟨_, _, ⟨_, ⟨hversion, decide_eq_true rfl⟩, rfl⟩, hcomputer, rfl⟩,
      hagent, rfl⟩, hgithub, rfl⟩, hphoton, rfl⟩

lemma record_right {r : RetainedFiles} : (record version).right v = some r ↔
    v.get? "daemon" = none ∧ ∃ schema : Nat,
      (v.get? "schema_version").bind Document.integer? = some (schema : Int) ∧
      (2 ≤ schema ∧ schema ≤ 4) ∧ (files version schema).right v.get? = some r := by
  have hright : (record version).right v = (if (v.get? "daemon").isNone then some id else none) <*>
      (Serde.map v).bind fun m =>
        (((m "schema_version").bind (Document.natBelow (2 ^ 32))).filter fun schema =>
          2 ≤ schema ∧ schema ≤ 4).bind fun schema => (files version schema).right m := rfl
  rw [hright, ManifestReaders.map_bind rfl]
  simp only [Option.seq_eq_some, Option.bind_eq_some_iff (x := Option.filter _ _),
    filter_eq_some_iff, decide_eq_true_eq]
  have hnumber (schema : Nat) (hbound : 2 ≤ schema ∧ schema ≤ 4) :
      (v.get? "schema_version").bind (Document.natBelow (2 ^ 32)) = some schema ↔
        (v.get? "schema_version").bind Document.integer? = some (schema : Int) := by
    have hlt : schema < 2 ^ 32 := by omega
    simp only [Option.bind_eq_some_iff, Document.natBelow_eq_some, hlt, and_true]
  constructor
  · rintro ⟨f, a, hnone, ⟨schema, ⟨hschema, hbound⟩, ha⟩, rfl⟩
    split_ifs at hnone with hdaemon
    cases hnone
    exact ⟨Option.isNone_iff_eq_none.mp hdaemon, schema, (hnumber schema hbound).mp hschema, hbound,
      ha⟩
  · rintro ⟨hdaemon, schema, hschema, hbound, ha⟩
    exact ⟨id, r, by rw [hdaemon]; rfl, ⟨schema, ⟨(hnumber schema hbound).mpr hschema, hbound⟩, ha⟩,
      rfl⟩

lemma isSchema_iff {schema n : Nat}
    (h : (v.get? "schema_version").bind Document.integer? = some (schema : Int)) :
    isSchema v n = true ↔ schema = n := by
  rw [isSchema, h, decide_eq_true_eq, some.injEq, Int.natCast_inj]

lemma isSchema_or : (isSchema v 2 = true ∨ isSchema v 3 = true ∨ isSchema v 4 = true) ↔
    ∃ schema : Nat, (v.get? "schema_version").bind Document.integer? = some (schema : Int) ∧
      2 ≤ schema ∧ schema ≤ 4 := by
  constructor
  · rintro (h | h | h)
    · exact ⟨2, of_decide_eq_true h, by omega⟩
    · exact ⟨3, of_decide_eq_true h, by omega⟩
    · exact ⟨4, of_decide_eq_true h, by omega⟩
  · rintro ⟨schema, h, hbound⟩
    have heq (n : Nat) := isSchema_iff (n := n) h
    have hcases : schema = 2 ∨ schema = 3 ∨ schema = 4 := by omega
    exact hcases.imp (heq 2).mpr (Or.imp (heq 3).mpr (heq 4).mpr)

lemma assert_right : (assertInstalled sha256 target directory version).isOk = true ↔
    ((installedReaders sha256 target version).right directory).isSome = true := by
  have hright : ((installedReaders sha256 target version).right directory).isSome = true ↔
      ∃ marker raw, directory.marker = some marker ∧
        trim Updater.isWhitespace marker = version ∧ directory.installation = some raw ∧
        ∃ r, (record version).right raw = some r ∧ intact sha256 directory target r = true := by
    simp only [installedReaders, name, marker, Twin.bind, Twin.seq, Twin.map, Twin.andThen,
      Twin.comap, Twin.same, Twin.leftChecks, Twin.checks, isSome_iff_exists,
      bind_eq_some_iff, seq_eq_some, map_eq_map, map_eq_some_iff]
    constructor
    · rintro ⟨_, _, ⟨_, _, ⟨_, _, ⟨_, -, rfl⟩, ⟨text, htext, hmarker⟩, rfl⟩, ⟨raw, hraw, hread⟩, rfl⟩,
        hintact⟩
      split_ifs at hmarker hintact with htrim hfiles
      exact ⟨text, raw, htext, of_decide_eq_true htrim, hraw, _, hread, hfiles⟩
    · rintro ⟨text, raw, htext, htrim, hraw, r, hread, hfiles⟩
      have hmarker : (if decide (trim Updater.isWhitespace text = version) = true then some ()
          else none) = some () := if_pos (decide_eq_true htrim)
      exact ⟨r, r, ⟨_, r, ⟨_, (), ⟨(), trivial, rfl⟩, ⟨text, htext, hmarker⟩, rfl⟩,
        ⟨raw, hraw, hread⟩, rfl⟩, if_pos hfiles⟩
  rw [isOk_assertInstalled, hright]
  refine exists_congr fun marker => exists_congr fun raw => ?_
  simp only [record_right, files_right]
  constructor
  · rintro ⟨hmarker, htrim, hraw, hdaemon, hversion, hschema, ⟨d, i, hd, hi, hcomputer⟩,
      ⟨d', i', hd', hi', hagent⟩, hgithub, hphoton⟩
    obtain ⟨schema, hschema, hbound⟩ := isSchema_or.mp hschema
    have heq (n : Nat) := isSchema_iff (n := n) hschema
    have hfour : schema = 4 ↔ isSchema raw 4 = true := (heq 4).symm
    have hthree : 3 ≤ schema ↔ isSchema raw 3 = true ∨ isSchema raw 4 = true := by
      rw [show isSchema raw 3 = true ↔ schema = 3 from heq 3, ← hfour]
      omega
    rw [← hthree] at hgithub
    rw [← hfour] at hphoton
    obtain ⟨githubCli, hread₃, hstored₃⟩ := fileOf_stored.mp hgithub
    obtain ⟨photonWasm, hread₄, hstored₄⟩ := fileOf_stored.mp hphoton
    exact ⟨hmarker, htrim, hraw, ⟨i, i', githubCli, photonWasm⟩, ⟨hdaemon, schema, hschema, hbound,
      hversion, ⟨d, hd, hi⟩, ⟨d', hd', hi'⟩, hread₃, hread₄⟩,
      intact_iff.mpr ⟨hcomputer, hagent, hstored₃, hstored₄⟩⟩
  · rintro ⟨hmarker, htrim, hraw, r, ⟨hdaemon, schema, hschema, hbound, hversion,
      ⟨d, hd, hcomputer⟩, ⟨d', hd', hagent⟩, hgithub, hphoton⟩, hintact⟩
    obtain ⟨h₁, h₂, h₃, h₄⟩ := intact_iff.mp hintact
    have heq (n : Nat) := isSchema_iff (n := n) hschema
    have hfour : schema = 4 ↔ isSchema raw 4 = true := (heq 4).symm
    have hthree : 3 ≤ schema ↔ isSchema raw 3 = true ∨ isSchema raw 4 = true := by
      rw [show isSchema raw 3 = true ↔ schema = 3 from heq 3, ← hfour]
      omega
    exact ⟨hmarker, htrim, hraw, hdaemon, hversion, isSchema_or.mpr ⟨schema, hschema, hbound⟩, ⟨d,
      _, hd, hcomputer, h₁⟩, ⟨d', _, hd', hagent, h₂⟩, fun h => fileOf_stored.mpr ⟨_, hgithub,
      h₃⟩ (hthree.mpr h), fun h => fileOf_stored.mpr ⟨_, hphoton, h₄⟩ (hfour.mpr h)⟩

end Computer

end InstalledReaders

open InstalledReaders in
/-- The two checks agree on a version exactly if its directory is not intact even with the forms of
either, or it has forms of both or of neither. -/
theorem installed_readers_agree_iff (sha256 : List UInt8 → String) (target version : String)
    (directory : VersionDirectory) :
    ((verifyInstalled sha256 target directory version).isOk = true ↔
        (Updater.assertInstalled sha256 target directory version).isOk = true) ↔
      (((installedReaders sha256 target version).lenient directory).isSome = true →
        (installedReaders sha256 target version).leftOnly directory =
          (installedReaders sha256 target version).rightOnly directory) := by
  rw [verify_left, assert_right]
  exact agree_iff _ _

/-- The checksum of a file without bytes. -/
def emptyChecksum : String := "e3b0c44298fc1c149afbf4c8996fb92427ae41e4649b934ca495991b7852b855"

/-- A version of the second schema with empty files. Its record may have other members. -/
def versionOfSchema2 (others : List (String × Document)) : VersionDirectory where
  file name := if name = "coforge-computer" ∨ name = "coforge" then some [] else none
  marker := some "0.1.0\n"
  installation := some (.obj ([("schema_version", .int 2), ("version", .str "0.1.0"),
    ("computer", .obj [("size", .int 0), ("checksum", .str emptyChecksum)]),
    ("agentCli", .obj [("size", .int 0), ("checksum", .str emptyChecksum)])] ++ others))

/-- A member of a later schema is read by the installer only. -/
theorem installed_readers_differ :
    (verifyInstalled (fun _ => emptyChecksum) "linux-x64" (versionOfSchema2 []) "0.1.0").isOk =
        true ∧ verifyInstalled (fun _ => emptyChecksum) "linux-x64"
        (versionOfSchema2 [("githubCli", .obj [])]) "0.1.0" =
          .error (integrity "installed version metadata or payload is invalid") ∧
      (Updater.assertInstalled (fun _ => emptyChecksum) "linux-x64"
        (versionOfSchema2 [("githubCli", .obj [])]) "0.1.0").isOk = true := by
  decide

end Coforge.Installer
