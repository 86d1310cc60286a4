import Coforge.Files.Base64
import Coforge.Protocol.Fields

/-!
# Messages about workspace files

The requests to list a directory and to read a file of an Agent's workspace, and their results. Each
has an encoder and a decoder with checks of their own; the protobuf library between them is a
parameter. A number of a message is a natural one, since its schema is unsigned, and `uint64` is
what the library refuses to serialize.
-/

namespace Coforge.Files

open Wire
open Protocol (utf16Length maxSafeInteger isSafeInteger)

def listRequestType : String := "coforge.rpc.v1.AgentWorkspaceFilesListRequest"

def listResultType : String := "coforge.rpc.v1.AgentWorkspaceFilesListResult"

def readRequestType : String := "coforge.rpc.v1.AgentWorkspaceFileReadRequest"

def readResultType : String := "coforge.rpc.v1.AgentWorkspaceFileReadResult"

def rpcPayloadMaxBytes : ℕ := 1048576

def maxTextBytes : ℕ := 512 * 1024

def maxContentBytes : ℕ := rpcPayloadMaxBytes

def maxContentBase64Length : ℕ := (maxContentBytes + 2) / 3 * 4

def maxReadResultBytes : ℕ := maxContentBytes + maxTextBytes

/-! ### Values -/

/-- What every one of the messages is about. -/
structure Scope where
  protocolMajor : Int
  requestId : String
  workspaceId : String
  computerId : String
  agentId : String
deriving DecidableEq

structure AgentWorkspaceFilesListRequest extends Scope where
  dirPath : String
  includeHidden : Bool
deriving DecidableEq

structure AgentWorkspaceFileEntry where
  name : String
  type : String
  sizeBytes : Int
  modifiedAtMs : Int
deriving DecidableEq

structure AgentWorkspaceFilesListResult extends AgentWorkspaceFilesListRequest where
  status : String
  rootPath : String
  entries : List AgentWorkspaceFileEntry
deriving DecidableEq

structure AgentWorkspaceFileReadRequest extends Scope where
  path : String
deriving DecidableEq

structure AgentWorkspaceFileReadResult extends AgentWorkspaceFileReadRequest where
  status : String
  sizeBytes : Int
  modifiedAtMs : Int
  text : String
  contentType : String
  contentBase64 : String
deriving DecidableEq

/-! ### Messages of the schema -/

structure AgentWorkspaceFilesListRequestMessage extends AgentWorkspaceFilesListRequest where
  messageType : String
deriving DecidableEq

structure AgentWorkspaceFileEntryMessage where
  name : String
  type : String
  sizeBytes : ℕ
  modifiedAtMs : ℕ
deriving DecidableEq

structure AgentWorkspaceFilesListResultMessage extends AgentWorkspaceFilesListRequest where
  messageType : String
  status : String
  rootPath : String
  entries : List AgentWorkspaceFileEntryMessage
deriving DecidableEq

structure AgentWorkspaceFileReadRequestMessage extends AgentWorkspaceFileReadRequest where
  messageType : String
deriving DecidableEq

structure AgentWorkspaceFileReadResultMessage extends AgentWorkspaceFileReadRequest where
  messageType : String
  status : String
  sizeBytes : ℕ
  modifiedAtMs : ℕ
  text : String
  contentType : String
  content : List UInt8
deriving DecidableEq

/-- `BigInt(n)` in an unsigned field of 64 bits, which the library only writes in range. -/
def uint64 (n : Int) : Except String ℕ :=
  if 0 ≤ n ∧ n < 2 ^ 64 then .ok n.toNat else .error "invalid uint64"

/-! ### Validation -/

/-- `ID`. -/
def idPattern (id : String) : Bool :=
  match id.toList with
  | []      => false
  | c :: cs => c.isAlphanum && cs.length ≤ 127 && cs.all fun c => c.isAlphanum || c = '_' || c = '-'

def scopeIds (value : Scope) : Except String Unit :=
  check (∀ id ∈ [value.requestId, value.workspaceId, value.computerId, value.agentId], idPattern id)
    "Invalid Workspace Files request scope"

/-- The path begins like one of a drive. -/
def drivePath (value : String) : Bool :=
  match value.toList with
  | c :: ':' :: _ => c.isAlpha
  | _             => false

def relativePath (value : String) : Except String String :=
  if 4096 < utf16Length value ∨ (value.toList.any fun c => c.toNat ≤ 0x1f) ∨
      value.toList.head? = some '/' ∨ drivePath value ∨ '\\' ∈ value.toList ∨
      "..".toList ∈ value.toList.splitOn '/' then
    .error "Invalid Workspace Files path"
  else .ok value

/-- `[\x00-\x08\x0b\x0c\x0e-\x1f]`: the control characters without tab, line feed and carriage
return. -/
def controlChar (c : Char) : Bool :=
  c.toNat ≤ 0x08 || c.toNat = 0x0b || c.toNat = 0x0c || (0x0e ≤ c.toNat && c.toNat ≤ 0x1f)

def text (value : String) (max : ℕ) : Except String String :=
  if max < utf16Length value ∨ value.toList.any controlChar then
    .error "Invalid Workspace Files metadata"
  else .ok value

def listRequest (value : AgentWorkspaceFilesListRequest) :
    Except String AgentWorkspaceFilesListRequest := do
  check (value.protocolMajor = 1) "Invalid Workspace Files request"
  scopeIds value.toScope
  let dirPath ← relativePath value.dirPath
  return { value with protocolMajor := 1, dirPath }

def entryTypes : List String := ["file", "dir", "symlink", "other"]

def entry (value : AgentWorkspaceFileEntryMessage) : Except String AgentWorkspaceFileEntry := do
  check (value.type ∈ entryTypes) "Invalid Workspace Files entry"
  check (value.sizeBytes ≤ maxSafeInteger ∧ value.modifiedAtMs ≤ maxSafeInteger)
    "Invalid Workspace Files entry"
  let name ← text value.name 255
  return {
    name
    type := value.type
    sizeBytes := value.sizeBytes
    modifiedAtMs := value.modifiedAtMs }

def listStatuses : List String := ["ok", "missing", "unreadable", "error"]

def validateStatusAndRoot (status rootPath : String) : Except String (String × String) := do
  check (status ∈ listStatuses) "Invalid Workspace Files result"
  let rootPath ← text rootPath 4096
  return (status, rootPath)

def validateEntry (value : AgentWorkspaceFileEntry) : Except String AgentWorkspaceFileEntry := do
  check (value.type ∈ entryTypes) "Invalid Workspace Files entry"
  check (isSafeInteger value.sizeBytes ∧ 0 ≤ value.sizeBytes ∧ isSafeInteger value.modifiedAtMs ∧
    0 ≤ value.modifiedAtMs) "Invalid Workspace Files entry"
  let name ← text value.name 255
  return { value with name }

/-- The status, the root and the entries of a result. -/
def listResult (status rootPath : String) (entries : List AgentWorkspaceFileEntryMessage) :
    Except String ((String × String) × List AgentWorkspaceFileEntry) := do
  check (entries.length ≤ 4096) "Invalid Workspace Files result"
  let head ← validateStatusAndRoot status rootPath
  let entries ← entries.mapM entry
  return (head, entries)

/-- `MEDIA_TYPE`. -/
def mediaType (value : String) : Bool :=
  let type := value.toList.takeWhile Char.isAlpha
  match value.toList.dropWhile Char.isAlpha with
  | '/' :: subtype => type ≠ [] && subtype ≠ [] &&
      subtype.all fun c => c.isAlphanum || c = '.' || c = '+' || c = '-'
  | _ => false

def readResultContent (contentType contentBase64 : String) :
    Except String (String × List UInt8) := do
  let contentType ← text contentType 255
  if contentBase64 = "" then
    check (contentType = "") "Invalid Workspace File read result"
    return ("", [])
  else
    check (mediaType contentType) "Invalid Workspace File read result"
    check (utf16Length contentBase64 ≤ maxContentBase64Length)
      "Invalid Workspace File read result"
    let content ← decodeBase64 contentBase64.toList
    check (content.length ≤ maxContentBytes) "Invalid Workspace File read result"
    return (contentType, content)

def readRequest (value : AgentWorkspaceFileReadRequest) :
    Except String AgentWorkspaceFileReadRequest := do
  check (value.protocolMajor = 1) "Invalid Workspace File read request"
  scopeIds value.toScope
  let path ← relativePath value.path
  return { value with protocolMajor := 1, path }

def readStatuses : List String := ["ok", "missing", "unreadable", "binary", "too_large", "error"]

/-! ### Codecs -/

/-- The list request, but for the bytes. -/
def agentWorkspaceFilesListRequest :
    Codec AgentWorkspaceFilesListRequest AgentWorkspaceFilesListRequestMessage String where
  write value := do
    let request ← listRequest value
    return { request with messageType := listRequestType }
  read value := do
    check (value.messageType = listRequestType) "Invalid Workspace Files request type"
    listRequest value.toAgentWorkspaceFilesListRequest

/-- An entry as the message carries it. -/
def entryMessage (e : AgentWorkspaceFileEntry) : Except String AgentWorkspaceFileEntryMessage := do
  let sizeBytes ← uint64 e.sizeBytes
  let modifiedAtMs ← uint64 e.modifiedAtMs
  return { name := e.name, type := e.type, sizeBytes, modifiedAtMs }

/-- The list result, but for the bytes. -/
def agentWorkspaceFilesListResult :
    Codec AgentWorkspaceFilesListResult AgentWorkspaceFilesListResultMessage String where
  write value := do
    let head ← validateStatusAndRoot value.status value.rootPath
    check (value.entries.length ≤ 4096) "Invalid Workspace Files result"
    let entries ← value.entries.mapM validateEntry
    let request ← listRequest value.toAgentWorkspaceFilesListRequest
    let entries ← entries.mapM entryMessage
    return { request with
      messageType := listResultType
      status := head.1
      rootPath := head.2
      entries }
  read value := do
    check (value.messageType = listResultType) "Invalid Workspace Files result"
    let request ← listRequest value.toAgentWorkspaceFilesListRequest
    let result ← listResult value.status value.rootPath value.entries
    return { request with
      status := result.1.1
      rootPath := result.1.2
      entries := result.2 }

/-- The read request, but for the bytes. -/
def agentWorkspaceFileReadRequest :
    Codec AgentWorkspaceFileReadRequest AgentWorkspaceFileReadRequestMessage String where
  write value := do
    let request ← readRequest value
    return { request with messageType := readRequestType }
  read value := do
    check (value.messageType = readRequestType) "Invalid Workspace File read request type"
    readRequest value.toAgentWorkspaceFileReadRequest

/-- `content.length > 0 ? encodeBase64(content) : ""`. -/
def contentText (content : List UInt8) : String :=
  if 0 < content.length then String.ofList (encodeBase64 content) else ""

/-- The read result, but for the bytes. The encoder measures the text, and lets every character of
it and every time through. -/
def agentWorkspaceFileReadResult :
    Codec AgentWorkspaceFileReadResult AgentWorkspaceFileReadResultMessage String where
  write value := do
    check (value.status ∈ readStatuses) "Invalid Workspace File read result"
    check (0 ≤ value.sizeBytes ∧ isSafeInteger value.sizeBytes ∧
      utf16Length value.text ≤ maxTextBytes) "Invalid Workspace File read result"
    let media ← readResultContent value.contentType value.contentBase64
    check (value.text = "" ∨ media.2.length = 0) "Invalid Workspace File read result"
    let request ← readRequest value.toAgentWorkspaceFileReadRequest
    let sizeBytes ← uint64 value.sizeBytes
    let modifiedAtMs ← uint64 value.modifiedAtMs
    return { request with
      messageType := readResultType
      status := value.status
      sizeBytes
      modifiedAtMs
      text := value.text
      contentType := media.1
      content := media.2 }
  read value := do
    check (value.messageType = readResultType ∧ value.status ∈ readStatuses ∧
      value.sizeBytes ≤ maxSafeInteger ∧ value.modifiedAtMs ≤ maxSafeInteger)
      "Invalid Workspace File read result"
    let text ← text value.text maxTextBytes
    let media ← readResultContent value.contentType (contentText value.content)
    check (text = "" ∨ media.2.length = 0) "Invalid Workspace File read result"
    let request ← readRequest value.toAgentWorkspaceFileReadRequest
    return { request with
      status := value.status
      sizeBytes := value.sizeBytes
      modifiedAtMs := value.modifiedAtMs
      text
      contentType := media.1
      contentBase64 := contentText media.2 }

/-! ### Bytes -/

/-- The protobuf library, as the codecs use it. -/
structure Library (B : Type) where
  size : B → ℕ
  listRequest : Serializer AgentWorkspaceFilesListRequestMessage B String
  listResult : Serializer AgentWorkspaceFilesListResultMessage B String
  readRequest : Serializer AgentWorkspaceFileReadRequestMessage B String
  readResult : Serializer AgentWorkspaceFileReadResultMessage B String

/-- `bounded`, on the bytes that are written and on those that are read. -/
def Library.bounded {B M : Type} (w : Library B) (s : Serializer M B String) (max : ℕ) :
    Serializer M B String :=
  s.bounded w.size max "Workspace Files payload too large"

variable {B : Type} (w : Library B)

/-- The bytes of a request are not measured before they are sent. -/
def encodeAgentWorkspaceFilesListRequest (value : AgentWorkspaceFilesListRequest) :
    Except String B :=
  agentWorkspaceFilesListRequest.encode w.listRequest value

def decodeAgentWorkspaceFilesListRequest (bytes : B) :
    Except String AgentWorkspaceFilesListRequest :=
  agentWorkspaceFilesListRequest.decode (w.bounded w.listRequest rpcPayloadMaxBytes) bytes

def encodeAgentWorkspaceFilesListResult (value : AgentWorkspaceFilesListResult) :
    Except String B :=
  agentWorkspaceFilesListResult.encode (w.bounded w.listResult rpcPayloadMaxBytes) value

def decodeAgentWorkspaceFilesListResult (bytes : B) :
    Except String AgentWorkspaceFilesListResult :=
  agentWorkspaceFilesListResult.decode (w.bounded w.listResult rpcPayloadMaxBytes) bytes

def encodeAgentWorkspaceFileReadRequest (value : AgentWorkspaceFileReadRequest) :
    Except String B :=
  agentWorkspaceFileReadRequest.encode w.readRequest value

def decodeAgentWorkspaceFileReadRequest (bytes : B) :
    Except String AgentWorkspaceFileReadRequest :=
  agentWorkspaceFileReadRequest.decode (w.bounded w.readRequest rpcPayloadMaxBytes) bytes

def encodeAgentWorkspaceFileReadResult (value : AgentWorkspaceFileReadResult) :
    Except String B :=
  agentWorkspaceFileReadResult.encode (w.bounded w.readResult maxReadResultBytes) value

def decodeAgentWorkspaceFileReadResult (bytes : B) :
    Except String AgentWorkspaceFileReadResult :=
  agentWorkspaceFileReadResult.decode (w.bounded w.readResult maxReadResultBytes) bytes

end Coforge.Files
