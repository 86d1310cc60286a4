import Coforge.Installer.Manifest

/-!
# The two offline checks of an installed version

A version directory has the files of a version, a marker with its name, and `installation.json`,
which records the files. The installer deserializes that record and the Computer looks at its
members one by one. Both compare it with the files before they keep the version or go back to it.
-/

namespace Coforge.Installer

open Release (Failure UpdateErrorCode isValidReleaseVersion)

/-- What is under `versions/<v>`: files by their names, the text of the marker, and the value in
`installation.json`; `none` is what cannot be read. -/
structure VersionDirectory where
  file : String → Option (List UInt8)
  marker : Option String
  installation : Option Document

def integrity (message : String) : Failure := ⟨message, some .integrityFailed⟩

/-- The text without the characters of a class at its ends. -/
def trim (p : Char → Bool) (s : String) : String :=
  String.ofList (s.toList.dropWhile p |>.reverse.dropWhile p |>.reverse)

/-- White space of both languages. -/
def commonSpace (c : Char) : Bool :=
  let n := c.toNat
  (0x9 ≤ n && n ≤ 0xd) || n = 0x20 || n = 0xa0 || n = 0x1680 || (0x2000 ≤ n && n ≤ 0x200a) ||
    n = 0x2028 || n = 0x2029 || n = 0x202f || n = 0x205f || n = 0x3000

/-! ### Names of the files -/

/-- A release target of which the files have other names. -/
def isWindows (target : String) : Bool := "windows-".toList.isPrefixOf target.toList

def computerName (target : String) : String :=
  if isWindows target then "coforge-computer.exe" else "coforge-computer"

def agentCliName (target : String) : String :=
  if isWindows target then "coforge.cmd" else "coforge"

def githubCliName (target : String) : String :=
  if isWindows target then "gh.cmd" else "gh"

/-! ### The installer -/

/-- `installation.json`. Schema 3 added `githubCli`, schema 4 `photonWasm`. -/
structure InstalledIdentity where
  schemaVersion : Nat
  version : String
  computer : ArtifactIdentity
  agentCli : ArtifactIdentity
  githubCli : Option ArtifactIdentity
  photonWasm : Option ArtifactIdentity
deriving DecidableEq

def ArtifactIdentity.deserialize (v : Document) : Option ArtifactIdentity :=
  (Serde.struct ["size", "checksum"] v).bind ArtifactIdentity.ofMembers

def installedMembers : List String :=
  ["schema_version", "version", "computer", "agentCli", "githubCli", "photonWasm"]

def InstalledIdentity.deserialize (v : Document) : Option InstalledIdentity :=
  (Serde.struct installedMembers v).bind fun members =>
    InstalledIdentity.mk <$> Serde.required "schema_version" (Serde.unsigned 32) members
      <*> Serde.required "version" Serde.string members
      <*> Serde.required "computer" ArtifactIdentity.deserialize members
      <*> Serde.required "agentCli" ArtifactIdentity.deserialize members
      <*> Serde.optional "githubCli" ArtifactIdentity.deserialize members
      <*> Serde.optional "photonWasm" ArtifactIdentity.deserialize members

inductive Fault
  | mismatch (message : String)
  | unreadable
deriving DecidableEq

/-- `White_Space`, with the next-line character. -/
def isWhitespace (c : Char) : Bool := commonSpace c || c.toNat = 0x85

/-- What cannot be read is a fault. -/
def readable {α : Type} (o : Option α) : Except Fault α :=
  match o with
  | some a => .ok a
  | none   => .error .unreadable

section Store

-- Lowercase hex SHA-256 of the bytes of a file.
variable (sha256 : List UInt8 → String)

def measureFile (bytes : List UInt8) : ArtifactIdentity := ⟨bytes.length, sha256 bytes⟩

/-- Whether a file has exactly the recorded size and checksum. -/
def fileMatches (directory : VersionDirectory) (name : String)
    (recorded : Option ArtifactIdentity) : Except Fault Bool :=
  match recorded.filter isValidIdentity with
  | none => .ok false
  | some recorded => do
    let bytes ← readable (directory.file name)
    if bytes.length ≠ recorded.size then .ok false
    else .ok (measureFile sha256 bytes = recorded)

/-- A check that goes wrong is a mismatch. -/
def require (message : String) (check : Except Fault Bool) : Except Fault Unit := do
  if ← check then .ok () else .error (.mismatch message)

def versionFault : String := "installed version failed its offline integrity check"

/-- `check`: what `installation.json` records, against the files and the marker. -/
def check (target : String) (directory : VersionDirectory) (version : String) :
    Except Fault Unit := do
  let _ ← readable (directory.file (computerName target))
  let marker ← readable directory.marker
  let raw ← readable directory.installation
  let hasDaemon := (raw.get? "daemon").isSome
  let identity ← readable (InstalledIdentity.deserialize raw)
  (if identity.schemaVersion = 3 ∨ identity.schemaVersion = 4 then
    require "installed GitHub CLI launcher failed its offline integrity check"
      (fileMatches sha256 directory (githubCliName target) identity.githubCli)
  else .ok ())
  require "installed Agent CLI failed its offline integrity check"
    (fileMatches sha256 directory (agentCliName target) (some identity.agentCli))
  (if identity.schemaVersion = 4 then
    require "installed image library failed its offline integrity check"
      (fileMatches sha256 directory photonWasmFile identity.photonWasm)
  else .ok ())
  if trim isWhitespace marker ≠ version ∨
      ¬(2 ≤ identity.schemaVersion ∧ identity.schemaVersion ≤ 4) ∨
      identity.version ≠ version ∨ hasDaemon then
    .error (.mismatch versionFault)
  else
    require versionFault
      (fileMatches sha256 directory (computerName target) (some identity.computer))

/-- What an invalid version is refused with. -/
def versionInvalid (version : String) : Failure :=
  feedInvalid ("version is invalid: " ++ version.quote)

/-- `verify_installed`. -/
def verifyInstalled (target : String) (directory : VersionDirectory) (version : String) :
    Except Failure Unit :=
  if !isValidReleaseVersion version then .error (versionInvalid version)
  else
    match check sha256 target directory version with
    | .ok ()                     => .ok ()
    | .error (.mismatch message) => .error (integrity message)
    | .error .unreadable         =>
      .error (integrity "installed version metadata or payload is invalid")

/-! ### The Computer -/

namespace Updater

/-- The white space of JavaScript, with the byte order mark. -/
def isWhitespace (c : Char) : Bool := commonSpace c || c.toNat = 0xfeff

def metadataInvalid : Failure := integrity "installed version metadata or payload is invalid"

/-- What cannot be read ends the check. -/
def readFile {α : Type} (o : Option α) : Except Failure α :=
  match o with
  | some a => .ok a
  | none   => .error metadataInvalid

def matchesIdentity (bytes : List UInt8) (identity : Option Document) : Bool :=
  (identity.bind (·.get? "size")).bind Document.integer? = some (bytes.length : Int) &&
    isText (identity.bind (·.get? "checksum")) (sha256 bytes)

/-- The recorded identity is valid, and the file that is read then has it. -/
def assertFile (message : String) (identity : Option Document) (file : Option (List UInt8)) :
    Except Failure Unit :=
  if !validIdentity identity then .error (integrity message)
  else do
    let bytes ← readFile file
    if matchesIdentity sha256 bytes identity then .ok () else .error (integrity message)

/-- The schema has this number. -/
def isSchema (identity : Document) (n : Int) : Bool :=
  (identity.get? "schema_version").bind Document.integer? = some n

/-- `#assertInstalled`. -/
def assertInstalled (target : String) (directory : VersionDirectory) (version : String) :
    Except Failure Unit := do
  let computer ← readFile (directory.file (computerName target))
  let marker ← readFile directory.marker
  let identity ← readFile directory.installation
  -- `null` has no members, not even undefined ones.
  (if identity.isNull then .error metadataInvalid else .ok ())
  (if isSchema identity 3 || isSchema identity 4 then
    assertFile sha256 "installed GitHub CLI launcher failed its offline integrity check"
      (identity.get? "githubCli") (directory.file (githubCliName target))
  else .ok ())
  assertFile sha256 "installed Agent CLI failed its offline integrity check"
    (identity.get? "agentCli") (directory.file (agentCliName target))
  (if isSchema identity 4 then
    assertFile sha256 "installed image library failed its offline integrity check"
      (identity.get? "photonWasm") (directory.file "photon_rs_bg.wasm")
  else .ok ())
  if trim isWhitespace marker ≠ version ∨
      !(isSchema identity 2 || isSchema identity 3 || isSchema identity 4) ∨
      !isText (identity.get? "version") version ∨ (identity.get? "daemon").isSome ∨
      !validIdentity (identity.get? "computer") ∨
      !matchesIdentity sha256 computer (identity.get? "computer") then
    .error (integrity versionFault)
  else .ok ()

end Updater

end Store

end Coforge.Installer
