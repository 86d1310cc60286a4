import Coforge.Installer.Identity
import Coforge.Release.Upgrade

/-!
# The two readers of a release manifest

The installer checks the raw JSON of a manifest and then deserializes it. The Computer checks the
parsed value and uses it as it is.
-/

namespace Coforge.Installer

open Release (Failure UpdateErrorCode)

def feedInvalid (message : String) : Failure := ⟨message, some .feedInvalid⟩

def computerBinary : String := "coforge-computer"

def computerGzip : String := "coforge-computer.gz"

def photonWasmFile : String := "photon_rs_bg.wasm"

/-! ### The installer -/

structure GzipObject where
  binary : String
  identity : ArtifactIdentity
deriving DecidableEq

structure ComputerArtifact where
  binary : String
  identity : ArtifactIdentity
  gzip : GzipObject
deriving DecidableEq

/-- A feed object named by `file`. -/
structure NamedArtifact where
  file : String
  identity : ArtifactIdentity
deriving DecidableEq

structure ReleasePlatform where
  computer : ComputerArtifact
deriving DecidableEq

structure ReleaseManifest where
  schemaVersion : Nat
  version : String
  commit : String
  buildDate : String
  platforms : List (String × ReleasePlatform)
  photonWasm : NamedArtifact
  installerProtocol : Option Nat
deriving DecidableEq

/-- The flattened members of an identity. -/
def ArtifactIdentity.ofMembers (members : Serde.Members) : Option ArtifactIdentity :=
  ArtifactIdentity.mk <$> Serde.required "size" (Serde.unsigned 64) members
    <*> Serde.required "checksum" Serde.string members

def GzipObject.deserialize (v : Document) : Option GzipObject :=
  (Serde.map v).bind fun members =>
    GzipObject.mk <$> Serde.required "binary" Serde.string members
      <*> ArtifactIdentity.ofMembers members

def ComputerArtifact.deserialize (v : Document) : Option ComputerArtifact :=
  (Serde.map v).bind fun members =>
    ComputerArtifact.mk <$> Serde.required "binary" Serde.string members
      <*> ArtifactIdentity.ofMembers members
      <*> Serde.required "gzip" GzipObject.deserialize members

def NamedArtifact.deserialize (v : Document) : Option NamedArtifact :=
  (Serde.map v).bind fun members =>
    NamedArtifact.mk <$> Serde.required "file" Serde.string members
      <*> ArtifactIdentity.ofMembers members

def ReleasePlatform.deserialize (v : Document) : Option ReleasePlatform :=
  (Serde.struct ["computer"] v).bind fun members =>
    ReleasePlatform.mk <$> Serde.required "computer" ComputerArtifact.deserialize members

/-- A map from names. -/
def deserializePlatforms (v : Document) : Option (List (String × ReleasePlatform)) :=
  match v with
  | .obj fields => fields.mapM fun f => (Prod.mk f.1) <$> ReleasePlatform.deserialize f.2
  | _           => none

def ReleaseManifest.deserialize (v : Document) : Option ReleaseManifest :=
  (Serde.struct ["schema_version", "version", "commit", "buildDate", "platforms", "photonWasm",
      "installer_protocol"] v).bind fun members =>
    ReleaseManifest.mk <$> Serde.required "schema_version" (Serde.unsigned 32) members
      <*> Serde.required "version" Serde.string members
      <*> Serde.required "commit" Serde.string members
      <*> Serde.required "buildDate" Serde.string members
      <*> Serde.required "platforms" deserializePlatforms members
      <*> Serde.required "photonWasm" NamedArtifact.deserialize members
      <*> Serde.optional "installer_protocol" (Serde.unsigned 32) members

/-- The size and checksum of an object, if it has a valid pair. -/
def identity (value : Document) : Option ArtifactIdentity :=
  (ArtifactIdentity.ofMembers value.get?).filter isValidIdentity

def validComputer (value : Option Document) : Bool :=
  value.any fun value =>
    (identity value).isSome && (value.get? "binary").bind Serde.string = some computerBinary &&
      (value.get? "gzip").any fun gzip =>
        (identity gzip).isSome && (gzip.get? "binary").bind Serde.string = some computerGzip

/-- A platform entry holds exactly the computer artifact. -/
def validPlatformEntry (value : Document) : Bool :=
  match value with
  | .obj fields => fields.length = 1 && validComputer (fields.lookup "computer")
  | _           => false

def validPhotonWasm (value : Option Document) : Bool :=
  value.any fun value =>
    (value.get? "file").bind Serde.string = some photonWasmFile && (identity value).isSome

/-- The first entry that is invalid is named. -/
def checkEntries (valid : Document → Bool) : List (String × Document) → Except Failure Unit
  | []               => .ok ()
  | (name, e) :: rest =>
    if !valid e then
      .error (feedInvalid ("manifest platform entry for " ++ name ++ " is invalid"))
    else checkEntries valid rest

def schemaInvalid : Failure := feedInvalid "manifest schema is invalid"

/-- What a manifest of another version is refused with. -/
def versionMismatch (version expectedVersion : String) : Failure :=
  feedInvalid ("manifest version " ++ version ++ " does not match requested version " ++
    expectedVersion)

/-- `parse_release_manifest`, from the parsed JSON. -/
def parseReleaseManifest (value : Document) (expectedVersion : String) :
    Except Failure ReleaseManifest :=
  let text (key : String) : Option String := (value.get? key).bind Serde.string
  let platforms : Option (List (String × Document)) :=
    match value.get? "platforms" with
    | some (.obj fields) => some fields
    | _                  => none
  if (value.get? "schema_version").bind (Serde.unsigned 64) ≠ some 2 ∨ (text "version").isNone ∨
      (text "commit").isNone ∨ (text "buildDate").isNone ∨ platforms.isNone ∨
      validPhotonWasm (value.get? "photonWasm") = false then
    .error schemaInvalid
  else
    let version := (text "version").getD ""
    if version ≠ expectedVersion then .error (versionMismatch version expectedVersion)
    else do
      checkEntries validPlatformEntry (platforms.getD [])
      match ReleaseManifest.deserialize value with
      | some manifest => .ok manifest
      | none          => .error schemaInvalid

/-- The computer artifact published for a target. -/
def computerArtifact (manifest : ReleaseManifest) (target : String) :
    Except Failure ComputerArtifact :=
  match manifest.platforms.lookup target with
  | some platform => .ok platform.computer
  | none =>
    .error ⟨"manifest has no platform entry for " ++ target, some .unsupportedTarget⟩

/-! ### The Computer -/

namespace Updater

/-- The entries of an object or an array. -/
def entries : Document → Option (List (String × Document))
  | .obj fields => some fields
  | .arr xs     => some (xs.zipIdx.map fun x => (toString x.2, x.1))
  | _           => none

/-- The value is this string. -/
def isText (value : Option Document) (text : String) : Bool :=
  value.bind Serde.string = some text

def validArtifact (value : Option Document) (expectedBinary : String) : Bool :=
  let gzip := value.bind (·.get? "gzip")
  validIdentity value && isText (value.bind (·.get? "binary")) expectedBinary &&
    validIdentity gzip && isText (gzip.bind (·.get? "binary")) (expectedBinary ++ ".gz")

def validPlatformEntry (value : Document) : Bool :=
  match entries value with
  | some fields => fields.length = 1 && validArtifact (value.get? "computer") "coforge-computer"
  | none        => false

def validPhotonWasmEntry (value : Option Document) : Bool :=
  (value.bind entries).isSome && isText (value.bind (·.get? "file")) "photon_rs_bg.wasm" &&
    validIdentity value

/-- `#assertManifest`. -/
def assertManifest (value : Document) (expectedVersion : String) : Except Failure Unit :=
  let text (key : String) : Option String := (value.get? key).bind Serde.string
  let platforms := (value.get? "platforms").bind entries
  if (value.get? "schema_version").bind Document.integer? ≠ some 2 ∨ (text "version").isNone ∨
      (text "commit").isNone ∨ (text "buildDate").isNone ∨ platforms.isNone ∨
      validPhotonWasmEntry (value.get? "photonWasm") = false then
    .error schemaInvalid
  else
    let version := (text "version").getD ""
    if version ≠ expectedVersion then .error (versionMismatch version expectedVersion)
    else checkEntries validPlatformEntry (platforms.getD [])

/-- The size and checksum that the Computer compares a file with. -/
def identityOf (value : Document) : Option ArtifactIdentity :=
  ArtifactIdentity.mk <$> (value.get? "size").bind (Document.natBelow (2 ^ 64))
    <*> (value.get? "checksum").bind Serde.string

def gzipOf (value : Document) : Option GzipObject :=
  GzipObject.mk <$> (value.get? "binary").bind Serde.string <*> identityOf value

def artifactOf (value : Document) : Option ComputerArtifact :=
  ComputerArtifact.mk <$> (value.get? "binary").bind Serde.string <*> identityOf value
    <*> (value.get? "gzip").bind gzipOf

/-- The artifact that `#prepareArtifact` takes for a target. -/
def platformArtifact (manifest : Document) (target : String) : Option ComputerArtifact :=
  (((manifest.get? "platforms").bind entries).bind fun platforms => platforms.lookup target).bind
    fun platform => (platform.get? "computer").bind artifactOf

def photonWasmArtifact (manifest : Document) : Option NamedArtifact :=
  (manifest.get? "photonWasm").bind fun value =>
    NamedArtifact.mk <$> (value.get? "file").bind Serde.string <*> identityOf value

end Updater

end Coforge.Installer
