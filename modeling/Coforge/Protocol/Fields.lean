import Coforge.AgentSessions.Reference
import Coforge.Installer.Installed
import Coforge.Lib.Wire

/-!
# Fields of protocol messages

The words, texts and counters that the codecs of the protocol check. A number is an integer here:
the library refuses to serialize any other.
-/

namespace Coforge.Protocol

open Wire
open AgentSessions (RuntimeProvider SessionMode SessionState)
open Installer.Updater (isWhitespace)
open Release (shapeMatches hexDigit dash)
open Installer (lowerHexDigit)

/-! ### Words -/

inductive MessageSenderKind where
  | human
  | agent
  | system
deriving DecidableEq

/-- The one `MEMORY_AGENT_TOOL_PROFILES`. -/
inductive MemoryAgentToolProfile where
  | openvikingMemory
deriving DecidableEq

inductive ActivityLevel where
  | info
  | warning
  | error
deriving DecidableEq

inductive AgentActivityKind where
  | online
  | working
  | thinking
  | error
  | offline
deriving DecidableEq

inductive AgentDeliveryRejectionReason where
  | noProcess
deriving DecidableEq

inductive MentionDeliveryStage where
  | daemonReceived
  | daemonPending
  | daemonDrained
deriving DecidableEq

inductive MentionDeliveryTransitionOutcome where
  | accepted
  | coalesced
deriving DecidableEq

def RuntimeProvider.name : RuntimeProvider → String
  | .coforge => "coforge"
  | .codex => "codex"
  | .claudeCode => "claude-code"
  | .pi => "pi"
  | .kiro => "kiro"
  | .cursor => "cursor"
  | .opencode => "opencode"
  | .grok => "grok"

instance : Vocabulary RuntimeProvider where
  name := RuntimeProvider.name
  parse s := [.coforge, .codex, .claudeCode, .pi, .kiro, .cursor, .opencode, .grok].find?
    fun p => RuntimeProvider.name p = s
  parse_name p := by cases p <;> decide

def SessionMode.name : SessionMode → String
  | .create => "create"
  | .resume => "resume"

instance : Vocabulary SessionMode where
  name := SessionMode.name
  parse s := [.create, .resume].find? fun m => SessionMode.name m = s
  parse_name m := by cases m <;> decide

def SessionState.name : SessionState → String
  | .empty => "empty"
  | .resumable => "resumable"
  | .unknown => "unknown"

instance : Vocabulary SessionState where
  name := SessionState.name
  parse s := [.empty, .resumable, .unknown].find? fun m => SessionState.name m = s
  parse_name m := by cases m <;> decide

def MessageSenderKind.name : MessageSenderKind → String
  | .human => "human"
  | .agent => "agent"
  | .system => "system"

instance : Vocabulary MessageSenderKind where
  name := MessageSenderKind.name
  parse s := [.human, .agent, .system].find? fun k => MessageSenderKind.name k = s
  parse_name k := by cases k <;> decide

def MemoryAgentToolProfile.name : MemoryAgentToolProfile → String
  | .openvikingMemory => "openviking-memory"

instance : Vocabulary MemoryAgentToolProfile where
  name := MemoryAgentToolProfile.name
  parse s := [.openvikingMemory].find? fun p => MemoryAgentToolProfile.name p = s
  parse_name p := by cases p; decide

def ActivityLevel.name : ActivityLevel → String
  | .info => "info"
  | .warning => "warning"
  | .error => "error"

instance : Vocabulary ActivityLevel where
  name := ActivityLevel.name
  parse s := [.info, .warning, .error].find? fun l => ActivityLevel.name l = s
  parse_name l := by cases l <;> decide

def AgentActivityKind.name : AgentActivityKind → String
  | .online => "online"
  | .working => "working"
  | .thinking => "thinking"
  | .error => "error"
  | .offline => "offline"

instance : Vocabulary AgentActivityKind where
  name := AgentActivityKind.name
  parse s := [.online, .working, .thinking, .error, .offline].find?
    fun k => AgentActivityKind.name k = s
  parse_name k := by cases k <;> decide

def AgentDeliveryRejectionReason.name : AgentDeliveryRejectionReason → String
  | .noProcess => "no_process"

instance : Vocabulary AgentDeliveryRejectionReason where
  name := AgentDeliveryRejectionReason.name
  parse s := [.noProcess].find? fun r => AgentDeliveryRejectionReason.name r = s
  parse_name r := by cases r; decide

def MentionDeliveryStage.name : MentionDeliveryStage → String
  | .daemonReceived => "daemon_received"
  | .daemonPending => "daemon_pending"
  | .daemonDrained => "daemon_drained"

instance : Vocabulary MentionDeliveryStage where
  name := MentionDeliveryStage.name
  parse s := [.daemonReceived, .daemonPending, .daemonDrained].find?
    fun r => MentionDeliveryStage.name r = s
  parse_name r := by cases r <;> decide

def MentionDeliveryTransitionOutcome.name : MentionDeliveryTransitionOutcome → String
  | .accepted => "accepted"
  | .coalesced => "coalesced"

instance : Vocabulary MentionDeliveryTransitionOutcome where
  name := MentionDeliveryTransitionOutcome.name
  parse s := [.accepted, .coalesced].find? fun r => MentionDeliveryTransitionOutcome.name r = s
  parse_name r := by cases r <;> decide

/-! ### Texts -/

/-- `!s.trim()`. -/
def blank (s : String) : Bool := s.toList.all isWhitespace

/-- `s.length`, in UTF-16 code units. -/
def utf16Length (s : String) : Nat :=
  (s.toList.map fun c => if c.toNat < 0x10000 then 1 else 2).sum

def codePointLength (s : String) : Nat := s.toList.length

/-- A text that identifies something, of 512 code units at most. -/
def isId (s : String) : Bool := !blank s && utf16Length s ≤ 512

/-- `[a-z0-9]`. -/
def nameStart (c : Char) : Bool := ('a' ≤ c && c ≤ 'z') || c.isDigit

/-- `[a-z0-9_-]`. -/
def nameChar (c : Char) : Bool := nameStart c || c = '_' || c = '-'

/-- `MENTION_HANDLE_PATTERN`. -/
def mentionHandlePattern (s : String) : Bool :=
  match s.toList with
  | [] => false
  | c :: cs => nameStart c && cs.all nameChar

/-- `[0-9a-f]{8}-[0-9a-f]{4}-[0-9a-f]{4}-[0-9a-f]{4}-[0-9a-f]{12}`, with a class of digits. -/
def uuidLike (digit : Char → Bool) (cs : List Char) : Bool :=
  shapeMatches
    (List.replicate 8 digit ++ dash :: List.replicate 4 digit ++ dash :: List.replicate 4 digit ++
      dash :: List.replicate 4 digit ++ dash :: List.replicate 12 digit) cs

def isPrintableSenderHandle (s : String) : Bool :=
  mentionHandlePattern s && codePointLength s ≤ 64 && !uuidLike hexDigit s.toList

def isValidMessageSender (kind handle : String) : Bool :=
  match (Vocabulary.parse kind : Option MessageSenderKind) with
  | none => false
  | some .system => handle = ""
  | some _ => isPrintableSenderHandle handle

/-- A channel, or one of its threads by its full or its short root. -/
def isChannelMessageTarget (target : String) : Bool :=
  match target.toList with
  | '#' :: c :: cs =>
    let name := cs.takeWhile (· ≠ ':')
    nameStart c && name.all nameChar && name.length ≤ 31 &&
      match cs.dropWhile (· ≠ ':') with
      | [] => true
      | _ :: root =>
        shapeMatches (List.replicate 8 lowerHexDigit) root || uuidLike lowerHexDigit root
  | _ => false

/-- A direct message target, or one of a channel. -/
def isMessageTarget (target : String) : Bool :=
  target.toList.head? = some '@' || isChannelMessageTarget target

/-- `/[\x00-\x1f\x7f]/`. -/
def hasControl (s : String) : Bool := s.toList.any fun c => c.toNat ≤ 0x1f || c.toNat = 0x7f

def validName (s : String) : Bool := s ≠ "" && codePointLength s ≤ 128 && !hasControl s

def validToolInput (s : String) : Bool := codePointLength s ≤ 200 && !hasControl s

def validTitle (s : String) : Bool := s ≠ "" && codePointLength s ≤ 120 && !hasControl s

/-- `TERMINAL_CODE`. -/
def terminalCode (s : String) : Bool :=
  match s.toList with
  | [] => false
  | c :: cs =>
    c.isUpper && cs.all (fun c => c.isUpper || c.isDigit || c = '_') && cs.length ≤ 63

/-! ### Numbers -/

/-- `Number.MAX_SAFE_INTEGER`. -/
def maxSafeInteger : Int := 2 ^ 53 - 1

def isSafeInteger (n : Int) : Bool := -maxSafeInteger ≤ n && n ≤ maxSafeInteger

def assertUint (n maximum : Int) (field : String) : Except String Unit :=
  check (isSafeInteger n ∧ 0 ≤ n ∧ n ≤ maximum) ("invalid " ++ field)

/-- A `uint64` that JavaScript holds exactly. -/
def safeUint64 (n : Int) (field : String) : Except String Int := do
  check (n ≤ maxSafeInteger) ("invalid " ++ field)
  return n

def assertPositiveControlCounter (n : Int) (field : String) : Except String Unit :=
  check (isSafeInteger n ∧ 1 ≤ n ∧ n ≤ 2 ^ 31 - 1) ("invalid " ++ field)

end Coforge.Protocol
