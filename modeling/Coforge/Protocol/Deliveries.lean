import Coforge.Protocol.Reports

/-!
# Message deliveries, and what answers them

A delivery is written with fewer checks than it is read with: an id or a body may be missing, and a
sender's handle may come without its kind. An ACK may also have sequence 0. A rejection goes through
one check on both sides, but like an ACK it has more fields as a value than as a message.
-/

namespace Coforge.Protocol

open Wire

/-- What a delivery may say. -/
structure DeliveryOptions where
  target : Option String := none
  latestSenderKind : Option MessageSenderKind := none
  latestSenderHandle : Option String := none
  latestSenderDescription : Option String := none
  mentionsAgent : Option Bool := none
  nonMemberMention : Option Bool := none
  taskExecutionSessionId : Option String := none
  mentionDelivery : Option MentionDeliveryEnvelope := none
deriving DecidableEq

/-- A text that is not empty. -/
def filled (s : Option String) : Option String := s.filter (· ≠ "")

/-- The text of a field that may be empty. -/
def unlessEmpty (s : String) : Option String := if s = "" then none else some s

@[simp] lemma filled_some (s : String) : filled (some s) = unlessEmpty s := by
  rw [filled, Option.filter_some, unlessEmpty]
  by_cases h : s = "" <;> simp [h]

@[simp] lemma unlessEmpty_getD (s : Option String) : unlessEmpty (s.getD "") = filled s := by
  cases s with
  | none => rfl
  | some s => rw [Option.getD_some, filled_some]

@[simp] lemma filled_unlessEmpty (s : String) : filled (unlessEmpty s) = unlessEmpty s := by
  rw [unlessEmpty]
  split_ifs with h
  · rfl
  · rw [filled_some, unlessEmpty, if_neg h]

@[simp] lemma filled_filled (s : Option String) : filled (filled s) = filled s := by
  rw [← unlessEmpty_getD s, filled_unlessEmpty]

/-- The options, with a field that is empty or false left out. -/
def DeliveryOptions.normal (o : DeliveryOptions) : DeliveryOptions :=
  { o with
    target := filled o.target
    latestSenderHandle := filled o.latestSenderHandle
    latestSenderDescription := filled o.latestSenderDescription
    mentionsAgent := o.mentionsAgent.filter id
    nonMemberMention := o.nonMemberMention.filter id
    taskExecutionSessionId := filled o.taskExecutionSessionId }

/-! ### Deliveries -/

structure AgentMessageDelivery extends DeliveryOptions where
  protocolMajor : Int
  requestId : String
  messageId : String
  deliveryId : String
  sequence : Int
  workspaceId : String
  conversationId : String
  agentId : String
  body : String
deriving DecidableEq

structure AgentMessageDeliveryMessage where
  protocolMajor : Int
  requestId : String
  messageId : String
  deliveryId : String
  sequence : Int
  workspaceId : String
  conversationId : String
  agentId : String
  body : String
  method : String
  target : String
  latestSenderKind : String
  latestSenderHandle : String
  latestSenderDescription : String
  mentionsAgent : Option Bool
  nonMemberMention : Option Bool
  taskExecutionSessionId : String
  mentionDelivery : Option MentionDeliveryEnvelope
deriving DecidableEq

/-- `AGENT_MESSAGE_METHOD`. -/
def agentMessageMethod : String := "agent:v1:message:deliver"

def AgentMessageDelivery.normal (value : AgentMessageDelivery) : AgentMessageDelivery :=
  { value with toDeliveryOptions := value.toDeliveryOptions.normal }

def AgentMessageDelivery.Same (value value' : AgentMessageDelivery) : Prop :=
  value.normal = value'.normal

/-- The sender of a delivery is checked where it has a kind. -/
def assertOptionalSender (o : DeliveryOptions) : Except String Unit :=
  match o.latestSenderKind with
  | none => .ok ()
  | some kind =>
    check (isValidMessageSender (Vocabulary.name kind) (o.latestSenderHandle.getD ""))
      "invalid Agent message delivery sender"

/-- `encodeAgentMessageDelivery` and `decodeAgentMessageDelivery`, but for the bytes. -/
def agentMessageDelivery : Codec AgentMessageDelivery AgentMessageDeliveryMessage String where
  write value := do
    assertUint value.sequence maxSafeInteger "Agent message sequence"
    assertOptionalSender value.toDeliveryOptions
    let mentionDelivery ← checkedOptionalEnvelope value.mentionDelivery
    return {
      protocolMajor := value.protocolMajor
      requestId := value.requestId
      messageId := value.messageId
      deliveryId := value.deliveryId
      sequence := value.sequence
      workspaceId := value.workspaceId
      conversationId := value.conversationId
      agentId := value.agentId
      body := value.body
      method := agentMessageMethod
      target := value.target.getD ""
      latestSenderKind := (value.latestSenderKind.map Vocabulary.name).getD ""
      latestSenderHandle := value.latestSenderHandle.getD ""
      latestSenderDescription := value.latestSenderDescription.getD ""
      mentionsAgent := value.mentionsAgent
      nonMemberMention := value.nonMemberMention
      taskExecutionSessionId := value.taskExecutionSessionId.getD ""
      mentionDelivery }
  read value := do
    check (value.method = agentMessageMethod ∧ value.requestId ≠ "" ∧ value.messageId ≠ "" ∧
        value.workspaceId ≠ "" ∧ value.conversationId ≠ "" ∧ value.agentId ≠ "" ∧
        value.body ≠ "" ∧ (value.latestSenderKind ≠ "" →
          isValidMessageSender value.latestSenderKind value.latestSenderHandle))
      "invalid agent message delivery"
    let mentionDelivery ← checkedOptionalEnvelope value.mentionDelivery
    let sequence ← safeUint64 value.sequence "Agent message sequence"
    return {
      protocolMajor := value.protocolMajor
      requestId := value.requestId
      messageId := value.messageId
      deliveryId := value.deliveryId
      sequence
      workspaceId := value.workspaceId
      conversationId := value.conversationId
      agentId := value.agentId
      body := value.body
      target := unlessEmpty value.target
      latestSenderKind := Vocabulary.parse value.latestSenderKind
      latestSenderHandle :=
        if value.latestSenderKind ≠ "" then some value.latestSenderHandle else none
      latestSenderDescription :=
        if value.latestSenderKind ≠ "" then some value.latestSenderDescription else none
      mentionsAgent := value.mentionsAgent
      nonMemberMention := if value.nonMemberMention = some true then some true else none
      taskExecutionSessionId := unlessEmpty value.taskExecutionSessionId
      mentionDelivery }

/-- A delivery that its decoder accepts and reads whole. -/
structure AgentMessageDelivery.Complete (value : AgentMessageDelivery) : Prop where
  requestId : value.requestId ≠ ""
  messageId : value.messageId ≠ ""
  workspaceId : value.workspaceId ≠ ""
  conversationId : value.conversationId ≠ ""
  agentId : value.agentId ≠ ""
  body : value.body ≠ ""
  /-- A handle or a description comes with the kind of the sender. -/
  sender : value.latestSenderKind = none →
    filled value.latestSenderHandle = none ∧ filled value.latestSenderDescription = none

lemma checkedOptionalEnvelope_eq_ok {envelope envelope' : Option MentionDeliveryEnvelope}
    (h : checkedOptionalEnvelope envelope = .ok envelope') :
    envelope' = envelope ∧ checkedOptionalEnvelope envelope' = .ok envelope' := by
  cases envelope with
  | none =>
    cases h
    exact ⟨rfl, rfl⟩
  | some envelope =>
    by_cases hcomplete : envelope.complete = true
    · rw [checkedOptionalEnvelope, checkedEnvelope, if_pos hcomplete] at h
      cases h
      refine ⟨rfl, ?_⟩
      rw [checkedOptionalEnvelope, checkedEnvelope, if_pos hcomplete]
      rfl
    · rw [checkedOptionalEnvelope, checkedEnvelope, if_neg hcomplete] at h
      cases h

lemma le_of_assertUint {n maximum : Int} {field : String} {u : Unit}
    (h : assertUint n maximum field = .ok u) : n ≤ maxSafeInteger := by
  rw [assertUint, check_eq_ok] at h
  exact le_of_isSafeInteger h.1

lemma name_senderKind_ne (kind : MessageSenderKind) : Vocabulary.name kind ≠ "" := by
  cases kind <;> decide

@[simp] lemma filter_true (b : Option Bool) :
    (if b = some true then some true else none) = b.filter id := by
  rcases b with _ | _ | _ <;> rfl

@[simp] lemma filter_filter_true (b : Option Bool) : (b.filter id).filter id = b.filter id := by
  rcases b with _ | _ | _ <;> rfl

theorem agentMessageDelivery_givesBack :
    agentMessageDelivery.GivesBack AgentMessageDelivery.Same AgentMessageDelivery.Complete := by
  intro value m hm
  simp only [agentMessageDelivery, bind_eq_ok, pure_eq_ok] at hm
  obtain ⟨_, hsequence, _, hsender, envelope, henvelope, rfl⟩ := hm
  obtain ⟨rfl, henvelope⟩ := checkedOptionalEnvelope_eq_ok henvelope
  simp only [agentMessageDelivery, bind_eq_ok, pure_eq_ok, check_eq_ok, exists_const, henvelope,
    safeUint64_eq_ok, Except.ok.injEq]
  constructor
  · rintro ⟨v', ⟨⟨-, hrequest, hmessage, hworkspace, hconversation, hagent, hbody, -⟩, _, -, _, -,
      rfl⟩, hsame⟩
    refine ⟨hrequest, hmessage, hworkspace, hconversation, hagent, hbody, ?_⟩
    intro hkind
    have hhandle := congrArg (fun v => v.latestSenderHandle) hsame
    have hdescription := congrArg (fun v => v.latestSenderDescription) hsame
    simp only [AgentMessageDelivery.normal, DeliveryOptions.normal, hkind] at hhandle hdescription
    exact ⟨hhandle.symm, hdescription.symm⟩
  · intro hcomplete
    refine ⟨_, ⟨⟨trivial, hcomplete.requestId, hcomplete.messageId, hcomplete.workspaceId,
      hcomplete.conversationId, hcomplete.agentId, hcomplete.body, ?_⟩, _, rfl, _,
      ⟨le_of_assertUint hsequence, rfl⟩, rfl⟩, ?_⟩
    · intro hnamed
      cases hkind : value.latestSenderKind with
      | none =>
        rw [hkind] at hnamed
        exact absurd rfl hnamed
      | some kind =>
        rw [assertOptionalSender, hkind] at hsender
        exact check_eq_ok.mp hsender
    · cases hkind : value.latestSenderKind with
      | none =>
        obtain ⟨hhandle, hdescription⟩ := hcomplete.sender hkind
        have hparse : (Vocabulary.parse "" : Option MessageSenderKind) = none := by decide
        simp [AgentMessageDelivery.Same, AgentMessageDelivery.normal, DeliveryOptions.normal,
          hkind, hhandle, hdescription, hparse]
        exact ⟨rfl, rfl⟩
      | some kind =>
        simp [AgentMessageDelivery.Same, AgentMessageDelivery.normal, DeliveryOptions.normal,
          hkind, Vocabulary.parse_name, name_senderKind_ne]
        rfl

/-! ### ACKs and rejections -/

/-- The delivery that an ACK or a rejection answers. -/
structure DeliveryIdentity where
  protocolMajor : Int
  requestId : String
  deliveryId : String
  messageId : String
  workspaceId : String
  agentId : String
  sequence : Int
deriving DecidableEq

/-- `hasDeliveryIdentity`: every field is required. -/
def DeliveryIdentity.required (value : DeliveryIdentity) : Bool :=
  value.requestId ≠ "" && value.deliveryId ≠ "" && value.messageId ≠ "" &&
    value.workspaceId ≠ "" && value.agentId ≠ "" && value.sequence ≠ 0

structure AgentMessageDeliveryAck extends DeliveryIdentity, DeliveryOptions
deriving DecidableEq

structure AgentMessageDeliveryAckMessage extends DeliveryIdentity where
  method : String
  mentionDelivery : Option MentionDeliveryEnvelope
deriving DecidableEq

/-- `AGENT_MESSAGE_ACK_METHOD`. -/
def agentMessageAckMethod : String := "agent:v1:message:ack"

def AgentMessageDeliveryAck.normal (value : AgentMessageDeliveryAck) : AgentMessageDeliveryAck :=
  { value with toDeliveryOptions := value.toDeliveryOptions.normal }

def AgentMessageDeliveryAck.Same (value value' : AgentMessageDeliveryAck) : Prop :=
  value.normal = value'.normal

/-- `encodeAgentMessageDeliveryAck` and `decodeAgentMessageDeliveryAck`, but for the bytes. -/
def agentMessageDeliveryAck :
    Codec AgentMessageDeliveryAck AgentMessageDeliveryAckMessage String where
  write value := do
    assertUint value.sequence maxSafeInteger "Agent delivery ACK sequence"
    let mentionDelivery ← checkedOptionalEnvelope value.mentionDelivery
    return {
      toDeliveryIdentity := value.toDeliveryIdentity
      method := agentMessageAckMethod
      mentionDelivery }
  read v := do
    check (v.method = agentMessageAckMethod ∧ v.toDeliveryIdentity.required)
      "invalid agent delivery ack"
    let mentionDelivery ← checkedOptionalEnvelope v.mentionDelivery
    let sequence ← safeUint64 v.sequence "Agent delivery ACK sequence"
    return {
      toDeliveryIdentity := { v.toDeliveryIdentity with sequence }
      toDeliveryOptions := { mentionDelivery } }

/-- An ACK that its decoder accepts and reads whole: it says no more than a message does. -/
def AgentMessageDeliveryAck.Complete (value : AgentMessageDeliveryAck) : Prop :=
  value.toDeliveryIdentity.required ∧
    value.toDeliveryOptions.normal = { mentionDelivery := value.mentionDelivery }

theorem agentMessageDeliveryAck_givesBack :
    agentMessageDeliveryAck.GivesBack AgentMessageDeliveryAck.Same
      AgentMessageDeliveryAck.Complete := by
  intro value m hm
  simp only [agentMessageDeliveryAck, bind_eq_ok, pure_eq_ok] at hm
  obtain ⟨_, hsequence, envelope, henvelope, rfl⟩ := hm
  obtain ⟨rfl, henvelope⟩ := checkedOptionalEnvelope_eq_ok henvelope
  simp only [agentMessageDeliveryAck, bind_eq_ok, pure_eq_ok, check_eq_ok, exists_const, henvelope,
    safeUint64_eq_ok, Except.ok.injEq]
  constructor
  · rintro ⟨v', ⟨⟨-, hrequired⟩, _, rfl, _, ⟨-, rfl⟩, rfl⟩, hsame⟩
    refine ⟨hrequired, ?_⟩
    have hoptions := congrArg (fun v => v.toDeliveryOptions) hsame
    exact hoptions.symm
  · rintro ⟨hrequired, hoptions⟩
    refine ⟨_, ⟨⟨trivial, hrequired⟩, _, rfl, _, ⟨le_of_assertUint hsequence, rfl⟩, rfl⟩, ?_⟩
    rw [AgentMessageDeliveryAck.Same, AgentMessageDeliveryAck.normal,
      AgentMessageDeliveryAck.normal, hoptions]
    rfl

structure AgentMessageDeliveryRejection extends DeliveryIdentity, DeliveryOptions where
  reason : AgentDeliveryRejectionReason
deriving DecidableEq

structure AgentMessageDeliveryRejectionMessage extends DeliveryIdentity where
  method : String
  reason : String
deriving DecidableEq

/-- `AGENT_MESSAGE_REJECT_METHOD`. -/
def agentMessageRejectMethod : String := "agent:v1:message:reject"

def AgentMessageDeliveryRejection.normal (value : AgentMessageDeliveryRejection) :
    AgentMessageDeliveryRejection :=
  { value with toDeliveryOptions := value.toDeliveryOptions.normal }

def AgentMessageDeliveryRejection.Same (value value' : AgentMessageDeliveryRejection) : Prop :=
  value.normal = value'.normal

def AgentMessageDeliveryRejection.message (value : AgentMessageDeliveryRejection) :
    AgentMessageDeliveryRejectionMessage :=
  { value with
    method := agentMessageRejectMethod
    reason := Vocabulary.name value.reason }

/-- `validateAgentMessageDeliveryRejection`: the fields that it copies. -/
def validateAgentMessageDeliveryRejection (value : AgentMessageDeliveryRejectionMessage) :
    Except String AgentMessageDeliveryRejection := do
  check (value.method = agentMessageRejectMethod) "invalid agent delivery rejection"
  let reason ← word value.reason "invalid agent delivery rejection"
  check value.toDeliveryIdentity.required "invalid agent delivery rejection"
  return { toDeliveryIdentity := value.toDeliveryIdentity, toDeliveryOptions := {}, reason }

/-- `encodeAgentMessageDeliveryRejection` and its decoder, but for the bytes. -/
def agentMessageDeliveryRejection :
    Codec AgentMessageDeliveryRejection AgentMessageDeliveryRejectionMessage String where
  write value := do
    assertUint value.sequence maxSafeInteger "Agent delivery rejection sequence"
    let rejection ← validateAgentMessageDeliveryRejection value.message
    return rejection.message
  read v := do
    let sequence ← safeUint64 v.sequence "Agent delivery rejection sequence"
    validateAgentMessageDeliveryRejection
      { v with toDeliveryIdentity := { v.toDeliveryIdentity with sequence } }

lemma validateAgentMessageDeliveryRejection_message {value rejection :
    AgentMessageDeliveryRejection}
    (h : validateAgentMessageDeliveryRejection value.message = .ok rejection) :
    rejection = { value with toDeliveryOptions := {} } := by
  simp only [validateAgentMessageDeliveryRejection, AgentMessageDeliveryRejection.message,
    word_name, bind_eq_ok, ok_bind, pure_eq_ok] at h
  obtain ⟨_, -, _, -, rfl⟩ := h
  rfl

/-- Every rejection that is written is accepted, and read back without its options. -/
theorem agentMessageDeliveryRejection_givesBack :
    agentMessageDeliveryRejection.GivesBack AgentMessageDeliveryRejection.Same
      fun value => value.toDeliveryOptions.normal = {} := by
  intro value m hm
  simp only [agentMessageDeliveryRejection, bind_eq_ok, pure_eq_ok] at hm
  obtain ⟨_, hsequence, rejection, hrejection, rfl⟩ := hm
  obtain rfl := validateAgentMessageDeliveryRejection_message hrejection
  simp only [agentMessageDeliveryRejection, bind_eq_ok, safeUint64_eq_ok]
  constructor
  · rintro ⟨v', ⟨_, ⟨-, rfl⟩, hread⟩, hsame⟩
    obtain rfl := validateAgentMessageDeliveryRejection_message hread
    have hoptions := congrArg (fun v => v.toDeliveryOptions) hsame
    exact hoptions.symm
  · intro hoptions
    refine ⟨_, ⟨_, ⟨le_of_assertUint hsequence, rfl⟩, hrejection⟩, ?_⟩
    rw [AgentMessageDeliveryRejection.Same, AgentMessageDeliveryRejection.normal,
      AgentMessageDeliveryRejection.normal, hoptions]
    rfl

end Coforge.Protocol
