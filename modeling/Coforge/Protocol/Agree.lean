import Coforge.Protocol.Activity

/-!
# Encoders and decoders agree

Over a protobuf library that reads every message it wrote, a decoder gives back what its encoder
wrote exactly where the value is complete. Session reports, context usage and mention reports always
are; an ACK of sequence 0 is not.
-/

namespace Coforge.Protocol

open Wire

/-- The protobuf library, as the codecs use it. -/
structure Protobuf (B : Type) where
  size : B → Nat
  startIntent : Serializer AgentStartIntentMessage B String
  messageDelivery : Serializer AgentMessageDeliveryMessage B String
  deliveryAck : Serializer AgentMessageDeliveryAckMessage B String
  deliveryRejection : Serializer AgentMessageDeliveryRejectionMessage B String
  activity : Serializer AgentActivityMessage B String
  report : Serializer AgentSessionReportMessage B String
  usage : Serializer AgentContextUsageMessage B String
  transition : Serializer AgentMentionDeliveryTransitionMessage B String
  terminalError : Serializer AgentMentionDeliveryTerminalErrorMessage B String

namespace Protobuf

variable {B : Type}

/-- Every message of the schema is read back. -/
structure Faithful (w : Protobuf B) : Prop where
  startIntent : w.startIntent.Faithful
  messageDelivery : w.messageDelivery.Faithful
  deliveryAck : w.deliveryAck.Faithful
  deliveryRejection : w.deliveryRejection.Faithful
  activity : w.activity.Faithful
  report : w.report.Faithful
  usage : w.usage.Faithful
  transition : w.transition.Faithful
  terminalError : w.terminalError.Faithful

/-- Session reports, of `MAX_AGENT_SESSION_REPORT_BYTES` at most. -/
def boundedReport (w : Protobuf B) : Serializer AgentSessionReportMessage B String :=
  w.report.bounded w.size 32768 "Agent Session report payload too large"

/-- Transitions of a tracked mention, of `MAX_REPORT_BYTES` at most. -/
def boundedTransition (w : Protobuf B) :
    Serializer AgentMentionDeliveryTransitionMessage B String :=
  w.transition.bounded w.size 8192 "mention delivery transition payload too large"

/-- Terminal errors of a tracked mention, of `MAX_REPORT_BYTES` at most. -/
def boundedTerminalError (w : Protobuf B) :
    Serializer AgentMentionDeliveryTerminalErrorMessage B String :=
  w.terminalError.bounded w.size 8192 "mention delivery terminal error payload too large"

/-- Each decoder gives back what its encoder wrote, exactly where the value is complete. -/
structure Agrees (w : Protobuf B) : Prop where
  startIntent : agentStartIntent.ReadsBack w.startIntent AgentStartIntent.Same
    AgentStartIntent.Complete
  messageDelivery : agentMessageDelivery.ReadsBack w.messageDelivery AgentMessageDelivery.Same
    AgentMessageDelivery.Complete
  deliveryAck : agentMessageDeliveryAck.ReadsBack w.deliveryAck AgentMessageDeliveryAck.Same
    AgentMessageDeliveryAck.Complete
  deliveryRejection : agentMessageDeliveryRejection.ReadsBack w.deliveryRejection
    AgentMessageDeliveryRejection.Same fun value => value.toDeliveryOptions.normal = {}
  activity : agentActivity.ReadsBack w.activity AgentActivity.Same AgentActivity.Classed
  report : agentSessionReport.ReadsBack w.boundedReport Eq fun _ => True
  usage : agentContextUsage.ReadsBack w.usage Eq fun _ => True
  transition : agentMentionDeliveryTransition.ReadsBack w.boundedTransition Eq fun _ => True
  terminalError : agentMentionDeliveryTerminalError.ReadsBack w.boundedTerminalError Eq
    fun _ => True

end Protobuf

/-! ### A library whose bytes are messages -/

/-- The bytes of one message, of one of the schemas. -/
inductive Packet where
  | startIntent (m : AgentStartIntentMessage)
  | messageDelivery (m : AgentMessageDeliveryMessage)
  | deliveryAck (m : AgentMessageDeliveryAckMessage)
  | deliveryRejection (m : AgentMessageDeliveryRejectionMessage)
  | activity (m : AgentActivityMessage)
  | report (m : AgentSessionReportMessage)
  | usage (m : AgentContextUsageMessage)
  | transition (m : AgentMentionDeliveryTransitionMessage)
  | terminalError (m : AgentMentionDeliveryTerminalErrorMessage)
deriving DecidableEq

/-- Messages of one schema, told apart from the others. -/
def schema {M : Type} (packet : M → Packet) (message : Packet → Option M) :
    Serializer M Packet String where
  toBinary m := .ok (packet m)
  fromBinary b := (message b).elim (.error "invalid message") .ok

lemma schema_faithful {M : Type} {packet : M → Packet} {message : Packet → Option M}
    (h : ∀ m, message (packet m) = some m) : (schema packet message).Faithful := by
  intro m b hb
  obtain rfl := Except.ok.inj hb
  change (message (packet m)).elim (Except.error "invalid message") Except.ok = Except.ok m
  rw [h m]
  rfl

def packets : Protobuf Packet where
  size _ := 256
  startIntent := schema .startIntent fun | .startIntent m => some m | _ => none
  messageDelivery := schema .messageDelivery fun | .messageDelivery m => some m | _ => none
  deliveryAck := schema .deliveryAck fun | .deliveryAck m => some m | _ => none
  deliveryRejection := schema .deliveryRejection fun | .deliveryRejection m => some m | _ => none
  activity := schema .activity fun | .activity m => some m | _ => none
  report := schema .report fun | .report m => some m | _ => none
  usage := schema .usage fun | .usage m => some m | _ => none
  transition := schema .transition fun | .transition m => some m | _ => none
  terminalError := schema .terminalError fun | .terminalError m => some m | _ => none

lemma packets_faithful : packets.Faithful where
  startIntent := schema_faithful fun _ => rfl
  messageDelivery := schema_faithful fun _ => rfl
  deliveryAck := schema_faithful fun _ => rfl
  deliveryRejection := schema_faithful fun _ => rfl
  activity := schema_faithful fun _ => rfl
  report := schema_faithful fun _ => rfl
  usage := schema_faithful fun _ => rfl
  transition := schema_faithful fun _ => rfl
  terminalError := schema_faithful fun _ => rfl

/-- An ACK of a delivery at a sequence. -/
def ackAt (sequence : Int) : AgentMessageDeliveryAck where
  protocolMajor := 1
  requestId := "request"
  deliveryId := "delivery"
  messageId := "message"
  workspaceId := "workspace"
  agentId := "agent"
  sequence

end Coforge.Protocol
