import Coforge.Lib.Document
import Coforge.Release.Upgrade

/-!
# The two readers of an upgrade receipt

The installer deserializes a receipt into typed fields and validates them. The Computer holds the
parsed value against a schema of five variants.
-/

namespace Coforge.Installer

open Release (rfcUuidPattern upgradeErrorCodePattern rolledBackCode rollbackFailedCode hexDigit
  versionDigit variantDigit)
open Serde (Members)

/-! ### The installer's receipt -/

@[match_pattern] abbrev exitSucceeded : Nat := 0

@[match_pattern] abbrev exitFailed : Nat := 1

@[match_pattern] abbrev exitHeld : Nat := 2

@[match_pattern] abbrev exitUnresolved : Nat := 3

def receiptSchemaVersion : Nat := 1

def installerReceiptProtocol : String := "coforge-installer/v1"

/-- `CARGO_PKG_VERSION`. -/
def packageVersion : String := "0.1.0"

inductive ReceiptStatus where
  | succeeded | failed | held
deriving DecidableEq

def ReceiptStatus.name : ReceiptStatus → String
  | .succeeded => "succeeded"
  | .failed    => "failed"
  | .held      => "held"

def ReceiptStatus.named? (name : String) : Option ReceiptStatus :=
  if name = "succeeded" then some .succeeded
  else if name = "failed" then some .failed
  else if name = "held" then some .held
  else none

structure RuntimeState where
  bindingId : String
  running : Bool
deriving DecidableEq

structure DeadProcessIdentity where
  pid : Nat
  startedAt : String
  executable : String
deriving DecidableEq

/-- A positive id, a start time and an executable. -/
def DeadProcessIdentity.isIdentified (p : DeadProcessIdentity) : Bool :=
  0 < p.pid && p.startedAt ≠ "" && p.executable ≠ ""

/-- How an upgrade ended. -/
inductive ReceiptOutcome where
  | succeeded (version : String)
  | failed (error : String) (errorCode : Option String)
  | rolledBack (error restoredVersion : String)
  | held (error : String) (errorCode : Option String)
  | unresolved (error : String) (rollbackFailed : Bool)

structure ReceiptFields where
  schemaVersion : Nat
  requestId : String
  operation : String
  status : ReceiptStatus
  version : Option String
  restoredVersion : Option String
  error : Option String
  errorCode : Option String
  supervisorRunning : Option Bool
  runtimes : Option (List RuntimeState)
  deadProcessIdentities : Option (List DeadProcessIdentity)
  protocol : String
  exitCode : Nat
  installerVersion : String
deriving DecidableEq

/-- Why a receipt is invalid: a rule with its text, or a status that does not go with its exit code
or with what the receipt carries. -/
inductive InvalidReceipt where
  | rule (reason : String)
  | exit (status : ReceiptStatus) (exitCode : Nat)
  | unpaired (status : ReceiptStatus) (exitCode : Nat) (error errorCode restored : Option String)
deriving DecidableEq

/-- An RFC 9562 UUID in either case: five groups of hexadecimal digits. -/
def isRequestId (value : String) : Bool :=
  match value.toList.splitOn '-' with
  | [a, b, c, d, e] =>
    ([(a, 8), (b, 4), (c, 4), (d, 4), (e, 12)].all fun g =>
      g.1.length = g.2 && g.1.all hexDigit) &&
    (c.head?.any versionDigit) && d.head?.any variantDigit
  | _ => false

/-- The shape of every upgrade error code. -/
def isErrorCode (value : String) : Bool :=
  let chars := value.toList
  3 ≤ chars.length && chars.length ≤ 64 && chars.head?.any Char.isUpper &&
    chars.tail.all fun c => c.isUpper || c.isDigit || c = '_'

namespace ReceiptFields

def hasReason (fields : ReceiptFields) : Bool := fields.error.any (· ≠ "")

def rollbackCode (fields : ReceiptFields) : Bool :=
  fields.errorCode = some rolledBackCode || fields.errorCode = some rollbackFailedCode

/-- Whether the receipt carries what goes with its status and exit code. -/
def paired (fields : ReceiptFields) : Except InvalidReceipt Bool :=
  match fields.status, fields.exitCode with
  | .succeeded, exitSucceeded =>
    .ok (fields.errorCode.isNone && fields.restoredVersion.isNone)
  | .held, exitHeld =>
    .ok (fields.hasReason && !fields.rollbackCode && fields.restoredVersion.isNone)
  | .failed, exitFailed =>
    if fields.errorCode = some rolledBackCode then
      .ok (fields.hasReason && fields.restoredVersion.any (· ≠ ""))
    else .ok (fields.hasReason && !fields.rollbackCode && fields.restoredVersion.isNone)
  | .failed, exitUnresolved =>
    .ok (fields.hasReason &&
      (fields.errorCode.isNone || fields.errorCode = some rollbackFailedCode) &&
      fields.restoredVersion.isNone)
  | status, exitCode => .error (.exit status exitCode)

def validate (fields : ReceiptFields) : Except InvalidReceipt Unit :=
  if fields.schemaVersion ≠ receiptSchemaVersion then .error (.rule "schema_version is not 1")
  else if fields.operation ≠ "upgrade" then .error (.rule "operation is not upgrade")
  else if fields.protocol ≠ installerReceiptProtocol then
    .error (.rule "protocol is not coforge-installer/v1")
  else if !isRequestId fields.requestId then .error (.rule "request_id is not a UUID")
  else if fields.errorCode.any fun code => !isErrorCode code then
    .error (.rule "errorCode is not an upper-case code")
  else do
    let paired ← fields.paired
    if !paired then
      .error (.unpaired fields.status fields.exitCode fields.error fields.errorCode
        fields.restoredVersion)
    else if fields.deadProcessIdentities.any fun processes =>
        processes.isEmpty || !processes.all DeadProcessIdentity.isIdentified then
      .error (.rule "deadProcessIdentities is empty or names a process without an identity")
    else .ok ()

end ReceiptFields

/-- A receipt that breaks the rules cannot exist. -/
structure UpgradeReceipt where
  fields : ReceiptFields
  valid : fields.validate = .ok ()
deriving DecidableEq

/-- The receipt with these fields, if they are valid. -/
def UpgradeReceipt.ofFields (fields : ReceiptFields) : Except InvalidReceipt UpgradeReceipt :=
  match h : fields.validate with
  | .ok ()   => .ok ⟨fields, h⟩
  | .error e => .error e

/-- The fields of the receipt of one upgrade. -/
def UpgradeReceipt.newFields (requestId : String) (outcome : ReceiptOutcome)
    (deadProcessIdentities : List DeadProcessIdentity) : ReceiptFields :=
  let fields (status : ReceiptStatus) (exitCode : Nat)
      (version restoredVersion error errorCode : Option String) : ReceiptFields :=
    { schemaVersion := receiptSchemaVersion
      requestId := requestId
      operation := "upgrade"
      status := status
      version := version
      restoredVersion := restoredVersion
      error := error
      errorCode := errorCode
      supervisorRunning := none
      runtimes := none
      deadProcessIdentities :=
        if deadProcessIdentities.isEmpty then none else some deadProcessIdentities
      protocol := installerReceiptProtocol
      exitCode := exitCode
      installerVersion := packageVersion }
  match outcome with
  | .succeeded version => fields .succeeded exitSucceeded (some version) none none none
  | .failed error errorCode => fields .failed exitFailed none none (some error) errorCode
  | .rolledBack error restoredVersion =>
    fields .failed exitFailed none (some restoredVersion) (some error) (some rolledBackCode)
  | .held error errorCode => fields .held exitHeld none none (some error) errorCode
  | .unresolved error rollbackFailed =>
    fields .failed exitUnresolved none none (some error)
      (if rollbackFailed then some rollbackFailedCode else none)

def UpgradeReceipt.new (requestId : String) (outcome : ReceiptOutcome)
    (deadProcessIdentities : List DeadProcessIdentity) : Except InvalidReceipt UpgradeReceipt :=
  UpgradeReceipt.ofFields (newFields requestId outcome deadProcessIdentities)

/-- Adds what the Computer said about its Coordinator and its Workspaces. -/
def UpgradeReceipt.withRuntimes (receipt : UpgradeReceipt) (supervisorRunning : Bool)
    (runtimes : List RuntimeState) : UpgradeReceipt where
  fields :=
    { receipt.fields with supervisorRunning := some supervisorRunning, runtimes := some runtimes }
  valid := receipt.valid

/-! ### Writing and reading it -/

def RuntimeState.serialize (r : RuntimeState) : Document :=
  .obj [("bindingId", .str r.bindingId), ("running", .bool r.running)]

def DeadProcessIdentity.serialize (p : DeadProcessIdentity) : Document :=
  .obj [("pid", .int p.pid), ("startedAt", .str p.startedAt), ("executable", .str p.executable)]

/-- A member that is left out if there is nothing to write. -/
def unlessNone (key : String) (value : Option Document) : List (String × Document) :=
  match value with
  | none   => []
  | some v => [(key, v)]

def ReceiptFields.serialize (fields : ReceiptFields) : Document :=
  .obj ([("schema_version", .int fields.schemaVersion), ("request_id", .str fields.requestId),
      ("operation", .str fields.operation), ("status", .str fields.status.name)] ++
    unlessNone "version" (fields.version.map .str) ++
    unlessNone "restoredVersion" (fields.restoredVersion.map .str) ++
    unlessNone "error" (fields.error.map .str) ++
    unlessNone "errorCode" (fields.errorCode.map .str) ++
    unlessNone "supervisorRunning" (fields.supervisorRunning.map .bool) ++
    unlessNone "runtimes" (fields.runtimes.map fun rs => .arr (rs.map RuntimeState.serialize)) ++
    unlessNone "deadProcessIdentities" (fields.deadProcessIdentities.map fun ps =>
      .arr (ps.map DeadProcessIdentity.serialize)) ++
    [("protocol", .str fields.protocol), ("exit_code", .int fields.exitCode),
      ("installer_version", .str fields.installerVersion)])

def ReceiptStatus.deserialize (v : Document) : Option ReceiptStatus :=
  (Serde.unitVariant v).bind named?

def RuntimeState.deserialize (v : Document) : Option RuntimeState :=
  (Serde.struct ["bindingId", "running"] v).bind fun members =>
    RuntimeState.mk <$> Serde.required "bindingId" Serde.string members
      <*> Serde.required "running" Serde.bool members

def DeadProcessIdentity.deserialize (v : Document) : Option DeadProcessIdentity :=
  (Serde.struct ["pid", "startedAt", "executable"] v).bind fun members =>
    DeadProcessIdentity.mk <$> Serde.required "pid" (Serde.unsigned 32) members
      <*> Serde.required "startedAt" Serde.string members
      <*> Serde.required "executable" Serde.string members

def receiptNames : List String :=
  ["schema_version", "request_id", "operation", "status", "version", "restoredVersion", "error",
    "errorCode", "supervisorRunning", "runtimes", "deadProcessIdentities", "protocol", "exit_code",
    "installer_version"]

def ReceiptFields.deserialize (v : Document) : Option ReceiptFields :=
  (Serde.struct receiptNames v).bind fun members =>
    ReceiptFields.mk <$> Serde.required "schema_version" (Serde.unsigned 32) members
      <*> Serde.required "request_id" Serde.string members
      <*> Serde.required "operation" Serde.string members
      <*> Serde.required "status" ReceiptStatus.deserialize members
      <*> Serde.optional "version" Serde.string members
      <*> Serde.optional "restoredVersion" Serde.string members
      <*> Serde.optional "error" Serde.string members
      <*> Serde.optional "errorCode" Serde.string members
      <*> Serde.optional "supervisorRunning" Serde.bool members
      <*> Serde.optional "runtimes" (Serde.vec RuntimeState.deserialize) members
      <*> Serde.optional "deadProcessIdentities" (Serde.vec DeadProcessIdentity.deserialize) members
      <*> Serde.required "protocol" Serde.string members
      <*> Serde.required "exit_code" (Serde.unsigned 8) members
      <*> Serde.required "installer_version" Serde.string members

def UpgradeReceipt.deserialize (v : Document) : Option UpgradeReceipt :=
  (ReceiptFields.deserialize v).bind fun fields => (ofFields fields).toOption

/-! ### The schema of the Computer -/

open Zod (Schema Shape)

/-- The shape of `UpgradeResultSchema`. -/
def upgradeResultShape : Shape :=
  [("schema_version", Zod.number 1), ("request_id", Zod.regex rfcUuidPattern), ("operation",
    Zod.union [Zod.literal "upgrade", Zod.literal "rollback"]), ("status",
    Zod.union [Zod.literal "succeeded", Zod.literal "failed"]), ("version",
    Zod.optional Zod.string), ("restoredVersion", Zod.optional Zod.string), ("error",
    Zod.optional Zod.string), ("errorCode", Zod.optional (Zod.regex upgradeErrorCodePattern)),
    ("supervisorRunning", Zod.optional Zod.boolean), ("runtimes",
    Zod.optional (Zod.array (Zod.looseObject
      [("bindingId", Zod.string), ("running", Zod.boolean)])))]

def DeadProcessIdentitySchema : Schema :=
  Zod.looseObject
    [("pid", Zod.positiveInt), ("startedAt", Zod.text), ("executable", Zod.text)]

/-- `NON_ROLLBACK_ERROR_CODE`. -/
def nonRollbackErrorCode : Schema :=
  Zod.regex fun code =>
    upgradeErrorCodePattern code && code ≠ rolledBackCode && code ≠ rollbackFailedCode

def noValue : Schema := Zod.optional Zod.never

def reason : Schema := Zod.text

def receiptFields : Shape :=
  Zod.extend upgradeResultShape
    [("operation", Zod.literal "upgrade"), ("protocol", Zod.literal installerReceiptProtocol),
      ("installer_version", Zod.string), ("deadProcessIdentities",
      Zod.optional (Zod.nonemptyArray DeadProcessIdentitySchema))]

def InstallerReceiptSchema : Schema :=
  Zod.union
    [Zod.looseObject (Zod.extend receiptFields
      [("status", Zod.literal "succeeded"), ("exit_code", Zod.number exitSucceeded), ("errorCode",
        noValue), ("restoredVersion", noValue)]),
    Zod.looseObject (Zod.extend receiptFields
      [("status", Zod.literal "failed"), ("exit_code", Zod.number exitFailed), ("error", reason),
        ("errorCode", Zod.optional nonRollbackErrorCode), ("restoredVersion", noValue)]),
    Zod.looseObject (Zod.extend receiptFields
      [("status", Zod.literal "failed"), ("exit_code", Zod.number exitFailed), ("error", reason),
        ("errorCode", Zod.literal rolledBackCode), ("restoredVersion", Zod.text)]),
    Zod.looseObject (Zod.extend receiptFields
      [("status", Zod.literal "held"), ("exit_code", Zod.number exitHeld), ("error", reason),
        ("errorCode", Zod.optional nonRollbackErrorCode), ("restoredVersion", noValue)]),
    Zod.looseObject (Zod.extend receiptFields
      [("status", Zod.literal "failed"), ("exit_code", Zod.number exitUnresolved), ("error",
        reason), ("errorCode", Zod.optional (Zod.literal rollbackFailedCode)), ("restoredVersion",
        noValue)])]

end Coforge.Installer
