import Coforge.Protocol.Fields

/-!
# Reports that are checked alike on both sides

Session reports, context usage and the reports on a tracked mention go through one validation before
they are written and after they are read, so every report that is written is read back.
-/

namespace Coforge.Protocol

open Wire
open AgentSessions (RuntimeProvider SessionState)

/-! ### Session reports -/

/-- A report, with its words or the texts that a message carries. -/
structure SessionReport (Provider State : Type) where
  protocolMajor : Int
  requestId : String
  workspaceId : String
  computerId : String
  agentId : String
  provider : Provider
  sessionId : String
  startRequestId : String
  daemonInstanceId : String
  launchId : String
  previousLaunchId : Option String
  replacedSessionId : Option String
  controlEpoch : Option Int
  sequence : Option Int
  sessionState : Option State
deriving DecidableEq

abbrev AgentSessionReport := SessionReport RuntimeProvider SessionState

abbrev AgentSessionReportMessage := SessionReport String String

def AgentSessionReport.message (value : AgentSessionReport) : AgentSessionReportMessage :=
  { value with
    provider := Vocabulary.name value.provider
    sessionState := value.sessionState.map Vocabulary.name }

/-- The checks on an optional counter, where it is set. -/
def assertOptional (check : Int → Except String Unit) : Option Int → Except String Unit
  | none => .ok ()
  | some n => check n

/-- Checks texts that identify something. -/
def checkIds (kind : String) (fields : List (String × String)) : Except String Unit :=
  match fields.find? fun field => !isId field.2 with
  | none => .ok ()
  | some field => .error (kind ++ " " ++ field.1)

def AgentSessionReportMessage.ids (value : AgentSessionReportMessage) : List (String × String) :=
  [("requestId", value.requestId), ("workspaceId", value.workspaceId), ("computerId",
    value.computerId), ("agentId", value.agentId), ("startRequestId", value.startRequestId),
    ("daemonInstanceId", value.daemonInstanceId), ("launchId", value.launchId)] ++
    (value.previousLaunchId.map (("previousLaunchId", ·))).toList ++
    (value.replacedSessionId.map (("replacedSessionId", ·))).toList

/-- `validateAgentSessionReport`: the report in its words, where it passes. -/
def validateAgentSessionReport (value : AgentSessionReportMessage) :
    Except String AgentSessionReport := do
  check (value.protocolMajor = 1) "invalid session report protocol/provider"
  let provider ← word value.provider "invalid session report protocol/provider"
  assertOptional (assertPositiveControlCounter · "Agent control epoch") value.controlEpoch
  assertOptional (assertPositiveControlCounter · "Agent Session sequence") value.sequence
  check (value.sequence.isSome → value.controlEpoch.isSome ∧ value.sessionState.isSome)
    "Session snapshot requires control epoch and state"
  check (value.sessionState.isSome → value.sequence.isSome) "Session state requires a sequence"
  let sessionState ← optionalWord value.sessionState "invalid Session state"
  checkIds "invalid session report" value.ids
  check (utf16Length value.sessionId ≤ 512 ∧
      (value.sessionId = "" → value.sessionState = some "empty") ∧
      (value.sessionId ≠ "" → !blank value.sessionId)) "invalid session report sessionId"
  return { value with provider, sessionState }

/-- `encodeAgentSessionReport` and `decodeAgentSessionReport`, but for the bytes. -/
def agentSessionReport : Codec AgentSessionReport AgentSessionReportMessage String :=
  .validated AgentSessionReport.message validateAgentSessionReport

lemma validateAgentSessionReport_message (value report : AgentSessionReport)
    (h : validateAgentSessionReport value.message = .ok report) : report = value := by
  simp only [validateAgentSessionReport, AgentSessionReport.message, word_name, optionalWord_name,
    bind_eq_ok, pure_eq_ok, ok_bind] at h
  obtain ⟨_, -, _, -, _, -, _, -, _, -, _, -, _, -, rfl⟩ := h
  rfl

/-! ### Context usage -/

structure ContextUsage (Provider : Type) where
  protocolMajor : Int
  requestId : String
  workspaceId : String
  computerId : String
  agentId : String
  provider : Provider
  launchId : String
  sessionId : String
  usedTokens : Int
  windowTokens : Int
  observedAtMs : Int
  daemonInstanceId : String
  clientSeq : Int
deriving DecidableEq

abbrev AgentContextUsage := ContextUsage RuntimeProvider

abbrev AgentContextUsageMessage := ContextUsage String

def AgentContextUsage.message (value : AgentContextUsage) : AgentContextUsageMessage :=
  { value with provider := Vocabulary.name value.provider }

def AgentContextUsageMessage.ids (value : AgentContextUsageMessage) : List (String × String) :=
  [("requestId", value.requestId), ("workspaceId", value.workspaceId),
    ("computerId", value.computerId), ("agentId", value.agentId), ("launchId", value.launchId),
    ("sessionId", value.sessionId), ("daemonInstanceId", value.daemonInstanceId)]

def validateAgentContextUsage (value : AgentContextUsageMessage) :
    Except String AgentContextUsage := do
  check (value.protocolMajor = 1) "invalid context usage protocol/provider"
  let provider ← word value.provider "invalid context usage protocol/provider"
  checkIds "invalid context usage" value.ids
  check (isSafeInteger value.usedTokens ∧ 0 ≤ value.usedTokens) "invalid context usage usedTokens"
  check (isSafeInteger value.windowTokens ∧ 1 ≤ value.windowTokens)
    "invalid context usage windowTokens"
  check (isSafeInteger value.observedAtMs ∧ 1 ≤ value.observedAtMs)
    "invalid context usage observedAtMs"
  check (isSafeInteger value.clientSeq ∧ 1 ≤ value.clientSeq) "invalid context usage clientSeq"
  return { value with provider }

/-- `encodeAgentContextUsage` and `decodeAgentContextUsage`, but for the bytes. -/
def agentContextUsage : Codec AgentContextUsage AgentContextUsageMessage String where
  write value := do
    let _ ← validateAgentContextUsage value.message
    return value.message
  read value := do
    let _ ← safeUint64 value.usedTokens "context usage usedTokens"
    let _ ← safeUint64 value.windowTokens "context usage windowTokens"
    let _ ← safeUint64 value.observedAtMs "context usage observedAtMs"
    let _ ← safeUint64 value.clientSeq "context usage clientSeq"
    validateAgentContextUsage value

@[simp] lemma safeUint64_eq_ok {n n' : Int} {field : String} :
    safeUint64 n field = .ok n' ↔ n ≤ maxSafeInteger ∧ n = n' := by
  rw [safeUint64, check_bind_eq_ok, pure_eq_ok]

lemma le_of_isSafeInteger {n : Int} (h : isSafeInteger n) : n ≤ maxSafeInteger := by
  simp only [isSafeInteger, Bool.and_eq_true, decide_eq_true_eq] at h
  exact h.2

theorem agentContextUsage_givesBack : agentContextUsage.GivesBack Eq fun _ => True := by
  intro value m hm
  obtain ⟨usage, husage, hm⟩ := bind_eq_ok.mp hm
  rw [pure_eq_ok] at hm
  subst hm
  have hpassed := husage
  simp only [validateAgentContextUsage, bind_eq_ok, check_eq_ok, exists_const, pure_eq_ok]
    at hpassed
  obtain ⟨-, provider, hprovider, _, -, hused, hwindow, hobserved, hseq, rfl⟩ := hpassed
  obtain rfl : value.provider = provider := by
    rw [AgentContextUsage.message, word_name] at hprovider
    exact Except.ok.inj hprovider
  refine iff_of_true ⟨value, ?_, rfl⟩ trivial
  simp only [agentContextUsage, bind_eq_ok, safeUint64_eq_ok]
  exact ⟨_, ⟨le_of_isSafeInteger hused.1, rfl⟩, _, ⟨le_of_isSafeInteger hwindow.1, rfl⟩, _,
    ⟨le_of_isSafeInteger hobserved.1, rfl⟩, _, ⟨le_of_isSafeInteger hseq.1, rfl⟩, husage⟩

/-! ### Mention reports -/

/-- The launch and session that a tracked mention was issued for. -/
structure MentionDeliveryEnvelope where
  messageId : String
  launchId : String
  sessionId : String
  computerId : String
deriving DecidableEq

def MentionDeliveryEnvelope.complete (value : MentionDeliveryEnvelope) : Bool :=
  isId value.messageId && isId value.launchId && isId value.sessionId && isId value.computerId

def checkedEnvelope (value : Option MentionDeliveryEnvelope) :
    Except String MentionDeliveryEnvelope :=
  match value with
  | some value =>
    if value.complete then .ok value else .error "invalid mention delivery envelope"
  | none => .error "invalid mention delivery envelope"

/-- `mentionDeliveryEnvelopeMessage` and `readMentionDeliveryEnvelope`. -/
def checkedOptionalEnvelope (value : Option MentionDeliveryEnvelope) :
    Except String (Option MentionDeliveryEnvelope) :=
  match value with
  | some value => (checkedEnvelope (some value)).map some
  | none => .ok none

structure MentionDeliveryReport where
  protocolMajor : Int
  requestId : String
  workspaceId : String
  agentId : String
  deliveryId : String
deriving DecidableEq

def MentionDeliveryReport.validScope (value : MentionDeliveryReport) : Bool :=
  value.protocolMajor = 1 && isId value.requestId && isId value.workspaceId &&
    isId value.agentId && isId value.deliveryId

structure AgentMentionDeliveryTransition extends MentionDeliveryReport where
  stage : MentionDeliveryStage
  outcome : MentionDeliveryTransitionOutcome
  mentionDelivery : MentionDeliveryEnvelope
deriving DecidableEq

structure AgentMentionDeliveryTransitionMessage extends MentionDeliveryReport where
  stage : String
  outcome : String
  mentionDelivery : Option MentionDeliveryEnvelope
deriving DecidableEq

def AgentMentionDeliveryTransition.message (value : AgentMentionDeliveryTransition) :
    AgentMentionDeliveryTransitionMessage :=
  { value with
    stage := Vocabulary.name value.stage
    outcome := Vocabulary.name value.outcome
    mentionDelivery := some value.mentionDelivery }

/-- `checkTransition`, and the check of the envelope. -/
def validateTransition (value : AgentMentionDeliveryTransitionMessage) :
    Except String AgentMentionDeliveryTransition := do
  check value.validScope "invalid mention delivery transition"
  let stage ← word value.stage "invalid mention delivery transition"
  let outcome ← word value.outcome "invalid mention delivery transition"
  let mentionDelivery ← checkedEnvelope value.mentionDelivery
  return { value with stage, outcome, mentionDelivery }

/-- `encodeAgentMentionDeliveryTransition` and its decoder, but for the bytes. -/
def agentMentionDeliveryTransition :
    Codec AgentMentionDeliveryTransition AgentMentionDeliveryTransitionMessage String :=
  .validated AgentMentionDeliveryTransition.message validateTransition

structure AgentMentionDeliveryTerminalError extends MentionDeliveryReport where
  code : String
  mentionDelivery : MentionDeliveryEnvelope
deriving DecidableEq

structure AgentMentionDeliveryTerminalErrorMessage extends MentionDeliveryReport where
  code : String
  mentionDelivery : Option MentionDeliveryEnvelope
deriving DecidableEq

def AgentMentionDeliveryTerminalError.message (value : AgentMentionDeliveryTerminalError) :
    AgentMentionDeliveryTerminalErrorMessage :=
  { value with mentionDelivery := some value.mentionDelivery }

/-- `checkTerminalError`, and the check of the envelope. -/
def validateTerminalError (value : AgentMentionDeliveryTerminalErrorMessage) :
    Except String AgentMentionDeliveryTerminalError := do
  check (value.validScope ∧ terminalCode value.code) "invalid mention delivery terminal error"
  let mentionDelivery ← checkedEnvelope value.mentionDelivery
  return { value with mentionDelivery }

/-- `encodeAgentMentionDeliveryTerminalError` and its decoder, but for the bytes. -/
def agentMentionDeliveryTerminalError :
    Codec AgentMentionDeliveryTerminalError AgentMentionDeliveryTerminalErrorMessage String :=
  .validated AgentMentionDeliveryTerminalError.message validateTerminalError

@[simp] lemma checkedEnvelope_some {value envelope : MentionDeliveryEnvelope} :
    checkedEnvelope (some value) = .ok envelope ↔ value.complete ∧ value = envelope := by
  rw [checkedEnvelope]
  split_ifs with h <;> simp [h]

lemma validateTransition_message (value report : AgentMentionDeliveryTransition)
    (h : validateTransition value.message = .ok report) : report = value := by
  simp only [validateTransition, bind_eq_ok, check_eq_ok, exists_const, pure_eq_ok] at h
  obtain ⟨-, stage, hstage, outcome, houtcome, envelope, henvelope, rfl⟩ := h
  simp only [AgentMentionDeliveryTransition.message, word_name, checkedEnvelope_some,
    Except.ok.injEq] at hstage houtcome henvelope ⊢
  rw [← hstage, ← houtcome, ← henvelope.2]

lemma validateTerminalError_message (value report : AgentMentionDeliveryTerminalError)
    (h : validateTerminalError value.message = .ok report) : report = value := by
  simp only [validateTerminalError, bind_eq_ok, check_eq_ok, exists_const, pure_eq_ok] at h
  obtain ⟨-, envelope, henvelope, rfl⟩ := h
  simp only [AgentMentionDeliveryTerminalError.message, checkedEnvelope_some] at henvelope ⊢
  rw [← henvelope.2]

end Coforge.Protocol
