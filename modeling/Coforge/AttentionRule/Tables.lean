import Coforge.Lib.Join

/-!
# The tables of an Agent's attention

Conversations, their members, messages with their deliveries to Agents, the mentions of Agents from
outside, and the read boundaries of threads: the columns that an Agent's attention is read from,
and what the schema and the writers keep of them.
-/

namespace Coforge.AttentionRule

/-- A uuid, by its value. -/
abbrev Uuid := Nat

structure Conversation where
  id : Uuid
  workspaceId : Uuid
  channelName : Option String
  /-- `hiddenFromWorkspaceAt` is set. -/
  hiddenFromWorkspace : Bool
  deriving DecidableEq, Repr

structure ConversationMember where
  id : Uuid
  conversationId : Uuid
  workspaceId : Uuid
  userId : Option Uuid
  agentId : Option Uuid
  agentReadThroughSequence : Nat
  /-- `leftAt` is set. -/
  left : Bool
  deriving DecidableEq, Repr

structure Message where
  id : Uuid
  conversationId : Uuid
  workspaceId : Uuid
  senderMemberId : Option Uuid
  sequence : Nat
  threadRootId : Option Uuid
  deriving DecidableEq, Repr

structure AgentMessageDelivery where
  deliveryId : Uuid
  messageId : Uuid
  conversationId : Uuid
  agentId : Uuid
  sequence : Nat
  deriving DecidableEq, Repr

structure PendingMentionAction where
  id : Uuid
  messageId : Uuid
  conversationId : Uuid
  workspaceId : Uuid
  targetAgentId : Option Uuid
  /-- `notifiedAt` is set. -/
  notified : Bool
  /-- `targetReadAt` is set. -/
  targetRead : Bool
  deriving DecidableEq, Repr

structure ThreadRead where
  memberId : Uuid
  rootMessageId : Uuid
  readThroughSequence : Nat
  deriving DecidableEq, Repr

structure Tables where
  conversations : List Conversation := []
  members : List ConversationMember := []
  messages : List Message := []
  deliveries : List AgentMessageDelivery := []
  mentionActions : List PendingMentionAction := []
  threadReads : List ThreadRead := []

/-- The keys and the references of the schema; a delivery is written with its message's
conversation and sequence. -/
structure Tables.Constraints (t : Tables) : Prop where
  conversation_id : (t.conversations.map Conversation.id).Nodup
  member_id : (t.members.map ConversationMember.id).Nodup
  member_agent : ∀ a ∈ t.members, ∀ b ∈ t.members, a.conversationId = b.conversationId →
    a.agentId = b.agentId → a.agentId.isSome → a = b
  member_subject : ∀ a ∈ t.members, a.userId.isSome ≠ a.agentId.isSome
  member_conversation : ∀ a ∈ t.members, ∃ c ∈ t.conversations,
    c.id = a.conversationId ∧ c.workspaceId = a.workspaceId
  message_id : (t.messages.map Message.id).Nodup
  message_sequence : (t.messages.map fun m => (m.conversationId, m.sequence)).Nodup
  message_conversation : ∀ m ∈ t.messages, ∃ c ∈ t.conversations,
    c.id = m.conversationId ∧ c.workspaceId = m.workspaceId
  message_root : ∀ m ∈ t.messages, ∀ id, m.threadRootId = some id →
    ∃ root ∈ t.messages, root.id = id ∧ root.conversationId = m.conversationId
  delivery_id : (t.deliveries.map AgentMessageDelivery.deliveryId).Nodup
  delivery_agent : (t.deliveries.map fun d => (d.messageId, d.agentId)).Nodup
  delivery_message : ∀ d ∈ t.deliveries, ∃ m ∈ t.messages, m.id = d.messageId ∧
    m.conversationId = d.conversationId ∧ m.sequence = d.sequence
  mention_id : (t.mentionActions.map PendingMentionAction.id).Nodup
  mention_agent : ∀ a ∈ t.mentionActions, ∀ b ∈ t.mentionActions, a.messageId = b.messageId →
    a.targetAgentId = b.targetAgentId → a.targetAgentId.isSome → a = b
  mention_message : ∀ a ∈ t.mentionActions, ∃ m ∈ t.messages, m.id = a.messageId ∧
    m.conversationId = a.conversationId ∧ m.workspaceId = a.workspaceId
  thread_read : (t.threadReads.map fun r => (r.memberId, r.rootMessageId)).Nodup

/-- Tables that keep their constraints. -/
structure Database extends Tables where
  constraints : toTables.Constraints

/-! ### What is read of the tables -/

namespace Tables

variable (t : Tables)

def conversation (id : Uuid) : Option Conversation := t.conversations.find? fun c => c.id = id

/-- The Agent's membership, whether it left or not. -/
def agentMember (agentId conversationId : Uuid) : Option ConversationMember :=
  t.members.find? fun a => a.conversationId = conversationId ∧ a.agentId = some agentId

def threadRead (memberId rootId : Uuid) : Option ThreadRead :=
  t.threadReads.find? fun r => r.memberId = memberId ∧ r.rootMessageId = rootId

/-- A user sent the message. -/
def userSent (m : Message) : Bool :=
  t.members.any fun a => some a.id = m.senderMemberId ∧ a.userId.isSome

def delivered (agentId : Uuid) (m : Message) : Bool :=
  t.deliveries.any fun d => d.messageId = m.id ∧ d.agentId = agentId

/-- The Agent read the message as someone mentioned from outside. -/
def readAsNonMember (agentId : Uuid) (messageId : Uuid) : Bool :=
  t.mentionActions.any fun a =>
    a.messageId = messageId ∧ a.targetAgentId = some agentId ∧ a.targetRead

/-- The stored boundary of a member at a target. -/
def boundary (own : ConversationMember) : Option Uuid → Nat
  | none => own.agentReadThroughSequence
  | some rootId => ((t.threadRead own.id rootId).map ThreadRead.readThroughSequence).getD 0

end Tables

end Coforge.AttentionRule
