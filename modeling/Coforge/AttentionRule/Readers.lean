import Coforge.AttentionRule.Tables

/-!
# The two readers of what an Agent owes attention to

The scope that a send is checked against reads one target: its delivery rows for the top level of a
channel, its messages otherwise. The unread fragment, which drains and the recovery context share,
reads every conversation of the Agent in five narrowed branches and applies the rule to their rows.
-/

namespace Coforge.AttentionRule

/-! ### `agentAttentionSource` -/

structure AgentAttentionScope where
  agentId : Uuid
  conversationId : Uuid
  threadRootId : Option Uuid
  isChannel : Bool
  afterSequence : Option Nat := none
  excludeSequences : List Nat := []
  ownMemberId : Option Uuid := none
  deriving DecidableEq, Repr

/-- The sequences that are excluded: those at or below the lower bound are left out. -/
def AgentAttentionScope.excluded (scope : AgentAttentionScope) : List Nat :=
  scope.excludeSequences.filter fun value => scope.afterSequence.getD 0 < value

def AgentAttentionScope.bounds (scope : AgentAttentionScope) (sequence : Nat) (m : Message) : Bool :=
  (scope.afterSequence.all fun after => after < sequence) &&
    (scope.excluded.isEmpty || !scope.excluded.contains sequence) &&
    scope.ownMemberId.all fun own => m.senderMemberId ≠ some own

/-- The messages of one target that the Agent owes attention to. -/
def agentAttentionSource (t : Tables) (scope : AgentAttentionScope) : List Message :=
  if scope.isChannel ∧ scope.threadRootId = none then
    ((t.deliveries ×ˢ t.messages).filter fun (d, m) =>
      m.id = d.messageId ∧ m.threadRootId = none ∧ d.agentId = scope.agentId ∧
        d.conversationId = scope.conversationId ∧ scope.bounds d.sequence m).map Prod.snd
  else
    t.messages.filter fun m =>
      m.conversationId = scope.conversationId ∧ m.threadRootId = scope.threadRootId ∧
        scope.bounds m.sequence m ∧ (t.userSent m ∨ t.delivered scope.agentId m) ∧
        (scope.isChannel → t.delivered scope.agentId m)

/-! ### `agentTargetFreshness` -/

/-- The stored boundary of the Agent at a target. -/
def readThrough (t : Tables) (agentId conversationId : Uuid) (threadRootId : Option Uuid) : Nat :=
  match t.agentMember agentId conversationId with
  | none => 0
  | some own => t.boundary own threadRootId

/-- The Agent's own latest message in a target. -/
def latestOwn (t : Tables) (own : ConversationMember) (conversationId : Uuid)
    (threadRootId : Option Uuid) : Option Nat :=
  ((t.messages.filter fun m =>
    m.conversationId = conversationId ∧ m.threadRootId = threadRootId ∧
      m.senderMemberId = some own.id).map Message.sequence).max?

/-- A scope starts above the boundary the Agent reported, or, with none, above its own latest
message in the target. -/
def pendingScope (t : Tables) (agentId conversationId : Uuid) (threadRootId : Option Uuid)
    (isChannel : Bool) (afterSequence : Option Nat) : AgentAttentionScope :=
  let own := t.agentMember agentId conversationId
  let latest := if afterSequence = none then
    own.bind fun member => latestOwn t member conversationId threadRootId else none
  { agentId := agentId
    conversationId := conversationId
    threadRootId := threadRootId
    isChannel := isChannel
    ownMemberId := own.map ConversationMember.id
    afterSequence := some ((afterSequence.or latest).getD 0) }

/-! ### `unreadAgentMessagesFragment` -/

structure UnreadRow where
  message : Message
  rootSequence : Nat
  nonMemberMention : Bool
  deriving DecidableEq, Repr

section Fragment

variable (t : Tables) (workspaceId agentId : Uuid)

/-- An active membership of the Agent in the Workspace. -/
def isActiveMember (a : ConversationMember) : Bool :=
  a.workspaceId = workspaceId ∧ a.agentId = some agentId ∧ a.left = false

/-- The top level of the channels: the Agent's deliveries above its boundary. -/
def channelTopLevel : List Message :=
  ((t.members ×ˢ t.conversations ×ˢ t.deliveries ×ˢ t.messages).filter fun (cam, cc, cd, cm) =>
    cc.id = cam.conversationId ∧ cc.channelName.isSome ∧ cc.hiddenFromWorkspace = false ∧
      cam.agentId = some cd.agentId ∧ cd.conversationId = cam.conversationId ∧
      cam.agentReadThroughSequence < cd.sequence ∧ cm.id = cd.messageId ∧ cm.threadRootId = none ∧
      isActiveMember workspaceId agentId cam ∧
      t.readAsNonMember agentId cd.messageId = false).map fun (_, _, _, cm) => cm

/-- The row of a thread's boundary. -/
def isThreadRead (memberId : Uuid) (rootId : Option Uuid) (r : ThreadRead) : Bool :=
  r.memberId = memberId ∧ some r.rootMessageId = rootId

def threadSequence (r : Option ThreadRead) : Nat := (r.map ThreadRead.readThroughSequence).getD 0

/-- The thread replies of the channels, and their deliveries. -/
def channelThreads : List Message :=
  (t.members ×ˢ t.conversations ×ˢ t.messages ×ˢ t.deliveries).flatMap fun (cam, cc, cm, cd) =>
    ((Join.left t.threadReads (isThreadRead cam.id cm.threadRootId)).filter fun ctr =>
      cc.id = cam.conversationId ∧ cc.channelName.isSome ∧ cc.hiddenFromWorkspace = false ∧
        cm.conversationId = cam.conversationId ∧ cm.threadRootId.isSome ∧
        cd.messageId = cm.id ∧ cam.agentId = some cd.agentId ∧
        isActiveMember workspaceId agentId cam ∧ threadSequence ctr < cm.sequence ∧
        t.readAsNonMember agentId cd.messageId = false).map fun _ => cm

/-- The top level of the direct messages. -/
def directTopLevel : List Message :=
  ((t.members ×ˢ t.conversations ×ˢ t.messages).filter fun (dam, dc, dm) =>
    dc.id = dam.conversationId ∧ dc.channelName = none ∧ dm.conversationId = dam.conversationId ∧
      dm.threadRootId = none ∧ dam.agentReadThroughSequence < dm.sequence ∧
      isActiveMember workspaceId agentId dam).map fun (_, _, dm) => dm

/-- The thread replies of the direct messages. -/
def directThreads : List Message :=
  (t.members ×ˢ t.conversations ×ˢ t.messages).flatMap fun (dam, dc, dm) =>
    ((Join.left t.threadReads (isThreadRead dam.id dm.threadRootId)).filter fun dtr =>
      dc.id = dam.conversationId ∧ dc.channelName = none ∧
        dm.conversationId = dam.conversationId ∧ dm.threadRootId.isSome ∧
        isActiveMember workspaceId agentId dam ∧ threadSequence dtr < dm.sequence).map fun _ => dm

/-- The Agent has an active membership in the conversation, in any Workspace. -/
def isMemberOf (conversationId : Uuid) : Bool :=
  t.members.any fun nam =>
    nam.conversationId = conversationId ∧ nam.agentId = some agentId ∧ nam.left = false

/-- The channel messages that the Agent was notified of from outside and has not read. -/
def notifiedOutside : List Message :=
  ((t.mentionActions ×ˢ t.messages ×ˢ t.conversations).filter fun (pma, nm, nc) =>
    nm.id = pma.messageId ∧ nc.id = nm.conversationId ∧ nc.hiddenFromWorkspace = false ∧
      pma.workspaceId = workspaceId ∧ pma.targetAgentId = some agentId ∧ pma.notified ∧
      pma.targetRead = false ∧ isMemberOf t agentId nm.conversationId = false).map
    fun (_, nm, _) => nm

/-- The rows of the narrowed branches. -/
def narrowed : List Message :=
  channelTopLevel t workspaceId agentId ++ channelThreads t workspaceId agentId ++
    directTopLevel t workspaceId agentId ++ directThreads t workspaceId agentId ++
    notifiedOutside t workspaceId agentId

/-- The Agent's active membership in a message's conversation. -/
def isMembership (m : Message) (am : ConversationMember) : Bool :=
  am.conversationId = m.conversationId ∧ isActiveMember workspaceId agentId am

/-- The outer rule, on a row of the joins. -/
def outerRule (m : Message) (am : Option ConversationMember) (c : Conversation)
    (tr : Option ThreadRead) (sm : Option ConversationMember) (d : Option AgentMessageDelivery) :
    Bool :=
  (am.all fun own =>
      (if m.threadRootId = none then own.agentReadThroughSequence else threadSequence tr) <
        m.sequence) &&
    ((sm.any fun sender => sender.userId.isSome) || d.isSome) &&
    (c.channelName = none || d.isSome)

/-- The outer query over the rows of the branches. -/
def outer (rows : List Message) : List UnreadRow :=
  rows.flatMap fun m =>
    (Join.left t.members (isMembership workspaceId agentId m)).flatMap fun am =>
      (t.conversations.filter fun c => c.id = m.conversationId).flatMap fun c =>
        (Join.left t.messages fun r => some r.id = m.threadRootId).flatMap fun r =>
          (Join.left t.threadReads fun tr =>
            am.any fun own => isThreadRead own.id m.threadRootId tr).flatMap fun tr =>
              (Join.left t.members fun sm => some sm.id = m.senderMemberId).flatMap fun sm =>
                ((Join.left t.deliveries fun d =>
                  d.messageId = m.id ∧ d.agentId = agentId).filter fun d =>
                    outerRule m am c tr sm d).map fun _ =>
                      ⟨m, (r.map Message.sequence).getD 0, am.isNone⟩

/-- One target: a conversation's top level or one of its threads. -/
structure Target where
  conversationId : Uuid
  threadRootId : Option Uuid
  deriving DecidableEq, Repr

def Target.holds (target : Target) (m : Message) : Bool :=
  m.conversationId = target.conversationId ∧ m.threadRootId = target.threadRootId

def unreadAgentMessagesFragment (scope : Option Target) : List UnreadRow :=
  (outer t workspaceId agentId (narrowed t workspaceId agentId)).filter fun row =>
    scope.all fun target => target.holds row.message

end Fragment

end Coforge.AttentionRule
