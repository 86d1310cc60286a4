import Mathlib

/-!
# Tracked mentions in the database

A delivery that personally mentions its Agent is tracked on its delivery row: its outcome, the
launch and session of the envelope it last went out with, and the terminal code its daemon reported
last. Every statement that writes these columns is conditional on the row. It is given here as what
it makes of one row for an Agent, `none` where its condition does not hold; the table is written row
by row.
-/

namespace Coforge.MentionDeliveries

inductive MentionOutcome where
  | pending | delivered | lost | unknown
  deriving DecidableEq, Repr

inductive MentionReasonCategory where
  | quota | runtimeError | notLaunched | unclassified
  deriving DecidableEq, Repr

inductive MentionDeliveryStage where
  | daemonReceived | daemonPending | daemonDrained
  deriving DecidableEq, Repr

structure MentionDeliveryEnvelope where
  messageId : String
  launchId : String
  sessionId : String
  computerId : String
  deriving DecidableEq, Repr

/-- The launch and native session an envelope is issued for, on the Agent's Computer. -/
structure MentionIdentity where
  launchId : String
  sessionId : String
  computerId : String
  deriving DecidableEq, Repr

structure MentionAgentState.Launch where
  computerId : String
  launchId : Option String
  deriving DecidableEq, Repr

structure MentionAgentState.Session where
  computerId : String
  nativeSessionId : Option String
  deriving DecidableEq, Repr

structure MentionAgentState where
  computerId : Option String
  stoppedAt : Option Nat
  deletedAt : Option Nat
  launch : Option MentionAgentState.Launch
  session : Option MentionAgentState.Session
  deriving DecidableEq, Repr

/-- A row of `agent_message_deliveries`, less what no statement of this file reads. -/
structure Delivery where
  deliveryId : String
  messageId : String
  workspaceId : String
  agentId : String
  sequence : Nat
  receivedAt : Option Nat := none
  mentionOutcome : Option MentionOutcome := none
  mentionStage : Option MentionDeliveryStage := none
  mentionReasonCategory : Option MentionReasonCategory := none
  mentionTerminalCode : Option String := none
  mentionLaunchId : Option String := none
  mentionSessionId : Option String := none
  mentionSettledAt : Option Nat := none
  deriving DecidableEq, Repr

/-! ### The Agent -/

/-- Not stopped by a person, not deleted, and on a Computer. -/
def wakeable (agent : MentionAgentState) : Bool :=
  agent.stoppedAt.isNone && agent.deletedAt.isNone && agent.computerId.isSome

/-- What JavaScript takes for true: an id that is there and not empty. -/
def truthy (id : Option String) : Option String := id.filter fun s => s ≠ ""

/-- The running launch and native session, when the Agent has both on its current Computer. -/
def currentIdentity (agent : MentionAgentState) : Option MentionIdentity :=
  if wakeable agent then
    match truthy (agent.launch.bind (·.launchId)), truthy (agent.session.bind (·.nativeSessionId)),
      agent.computerId with
    | some launchId, some sessionId, some computerId =>
      if agent.launch.map (·.computerId) = some computerId ∧
          agent.session.map (·.computerId) = some computerId then
        some { launchId, sessionId, computerId }
      else none
    | _, _, _ => none
  else none

def envelopeFor (messageId : String) (identity : MentionIdentity) : MentionDeliveryEnvelope where
  messageId := messageId
  launchId := identity.launchId
  sessionId := identity.sessionId
  computerId := identity.computerId

lemma truthy_eq_some {id : Option String} {s : String} :
    truthy id = some s ↔ id = some s ∧ s ≠ "" := by
  simp [truthy, Option.filter_eq_some_iff]

/-- The identity of a running Agent names a launch and a session, on its own Computer. -/
lemma currentIdentity_spec {agent : MentionAgentState} {identity : MentionIdentity}
    (h : currentIdentity agent = some identity) :
    wakeable agent ∧ identity.launchId ≠ "" ∧ identity.sessionId ≠ "" ∧
      agent.computerId = some identity.computerId := by
  rw [currentIdentity] at h
  split_ifs at h with hwake
  split at h
  case h_1 launchId sessionId computerId hlaunch hsession hcomputer =>
    split_ifs at h
    cases h
    exact ⟨hwake, (truthy_eq_some.mp hlaunch).2, (truthy_eq_some.mp hsession).2, hcomputer⟩
  case h_2 => cases h

/-! ### Conditions -/

namespace Delivery

/-- `OPEN_WHERE`: a daemon report may still change the mention. -/
def IsOpen (d : Delivery) : Prop :=
  d.mentionOutcome = some .pending ∨ d.mentionOutcome = some .unknown

/-- `STOP_SETTLED_WHERE`. -/
def StopSettled (d : Delivery) : Prop :=
  d.mentionOutcome = some .lost ∧ d.mentionReasonCategory = some .notLaunched ∧
    d.mentionTerminalCode = none

/-- `ISSUABLE_WHERE`: not yet settled, which a send may issue. -/
def Issuable (d : Delivery) : Prop :=
  d.mentionOutcome = none ∨ d.mentionOutcome = some .pending

instance (d : Delivery) : Decidable d.IsOpen := inferInstanceAs (Decidable (_ ∨ _))
instance (d : Delivery) : Decidable d.StopSettled := inferInstanceAs (Decidable (_ ∧ _))
instance (d : Delivery) : Decidable d.Issuable := inferInstanceAs (Decidable (_ ∨ _))

end Delivery

/-- One tracked delivery a daemon report names, and the envelope the report answers. -/
structure MentionDeliveryReportKey where
  workspaceId : String
  computerId : String
  agentId : String
  deliveryId : String
  envelope : MentionDeliveryEnvelope
  deriving DecidableEq, Repr

/-- The report's delivery, still carrying the envelope's launch and session, for an Agent on the
reporting Computer. The condition on the outcome stands apart. -/
def reportedRowWhere (key : MentionDeliveryReportKey) (agent : MentionAgentState) (d : Delivery) :
    Prop :=
  d.deliveryId = key.deliveryId ∧ d.messageId = key.envelope.messageId ∧
    d.workspaceId = key.workspaceId ∧ d.agentId = key.agentId ∧
    agent.computerId = some key.computerId ∧
    d.mentionLaunchId = some key.envelope.launchId ∧
    d.mentionSessionId = some key.envelope.sessionId

instance (key : MentionDeliveryReportKey) (agent : MentionAgentState) (d : Delivery) :
    Decidable (reportedRowWhere key agent d) := inferInstanceAs (Decidable (_ ∧ _))

/-- A pending tracked mention and the envelope it last went out with (none: as a wake). -/
structure PendingMention where
  deliveryId : String
  messageId : String
  mentionLaunchId : Option String
  mentionSessionId : Option String
  deriving DecidableEq, Repr

def Delivery.pendingMention (d : Delivery) : PendingMention where
  deliveryId := d.deliveryId
  messageId := d.messageId
  mentionLaunchId := d.mentionLaunchId
  mentionSessionId := d.mentionSessionId

/-- One delivery's next envelope (none: a wake), and the one it must still carry, if checked. -/
structure EnvelopeWrite where
  deliveryId : String
  identity : Option MentionIdentity
  carried : Option PendingMention := none
  deriving DecidableEq, Repr

/-- `STILL_CARRIED_SQL`: pending, with the envelope it was read with. -/
def stillCarried (v : EnvelopeWrite) (d : Delivery) : Prop :=
  d.mentionOutcome = some .pending ∧
    d.mentionLaunchId = v.carried.bind (·.mentionLaunchId) ∧
    d.mentionSessionId = v.carried.bind (·.mentionSessionId)

instance (v : EnvelopeWrite) (d : Delivery) : Decidable (stillCarried v d) :=
  inferInstanceAs (Decidable (_ ∧ _))

structure AgentScope where
  workspaceId : String
  computerId : String
  agentId : String
  deriving DecidableEq, Repr

/-! ### Statements -/

/-- What the `SET` of `setEnvelopes` makes of a row: the stage always clears, the terminal code
only with `clearCode`. -/
def Delivery.issued (d : Delivery) (identity : Option MentionIdentity) (clearCode : Bool) :
    Delivery :=
  { d with
    mentionOutcome := some .pending
    mentionStage := none
    mentionTerminalCode := if clearCode then none else d.mentionTerminalCode
    mentionSettledAt := none
    mentionLaunchId := identity.map (·.launchId)
    mentionSessionId := identity.map (·.sessionId) }

/-- Issues a delivery pending with its next envelope while `condition` holds and its Agent may
still be woken. -/
def setEnvelopes (workspaceId : String) (writes : List EnvelopeWrite)
    (condition : EnvelopeWrite → Delivery → Prop) [∀ v d, Decidable (condition v d)]
    (clearCode : Bool) (agent : MentionAgentState) (d : Delivery) : Option Delivery :=
  (writes.find? fun v =>
    d.deliveryId = v.deliveryId ∧ d.workspaceId = workspaceId ∧ condition v d ∧ wakeable agent).map
    fun v => d.issued v.identity clearCode

section Envelopes

variable {workspaceId : String} {writes : List EnvelopeWrite}
  {condition : EnvelopeWrite → Delivery → Prop} [∀ v d, Decidable (condition v d)]
  {clearCode : Bool} {agent : MentionAgentState} {d d' : Delivery}

lemma setEnvelopes_spec (h : setEnvelopes workspaceId writes condition clearCode agent d = some d') :
    ∃ v ∈ writes, (d.deliveryId = v.deliveryId ∧ d.workspaceId = workspaceId ∧ condition v d ∧
      wakeable agent) ∧ d' = d.issued v.identity clearCode := by
  obtain ⟨v, hv, rfl⟩ := Option.map_eq_some_iff.mp h
  have hcond := List.find?_some hv
  exact ⟨v, List.mem_of_find?_eq_some hv, of_decide_eq_true hcond, rfl⟩

lemma setEnvelopes_eq {identity : Option MentionIdentity} {v : EnvelopeWrite}
    (hall : ∀ v ∈ writes, v.identity = identity) (hv : v ∈ writes)
    (hfor : d.deliveryId = v.deliveryId ∧ d.workspaceId = workspaceId ∧ condition v d ∧
      wakeable agent) : setEnvelopes workspaceId writes condition clearCode agent d =
      some (d.issued identity clearCode) := by
  have hfound := (List.find?_isSome (p := fun v => decide (d.deliveryId = v.deliveryId ∧
    d.workspaceId = workspaceId ∧ condition v d ∧ wakeable agent))).mpr
      ⟨v, hv, decide_eq_true hfor⟩
  obtain ⟨v', hv'⟩ := Option.isSome_iff_exists.mp hfound
  rw [setEnvelopes, hv', Option.map_some, hall v' (List.mem_of_find?_eq_some hv')]

end Envelopes

/-- How a send issues a mention it pushes. -/
inductive MentionIssuePlan where
  | enveloped (identity : MentionIdentity)
  | wake
  | notLaunched
  deriving DecidableEq, Repr

def Delivery.notLaunched (d : Delivery) (now : Nat) : Delivery :=
  { d with
    mentionOutcome := some .lost
    mentionReasonCategory := some .notLaunched
    mentionSettledAt := some now }

/-- The part of a send's transaction that is about one delivery. The Agent's row is held, so the
state `decide` plans from is the state the update sees. -/
def issue (workspaceId : String) (deliveryIds : List String)
    (decide : MentionAgentState → MentionIssuePlan) (now : Nat) (agent : MentionAgentState)
    (d : Delivery) : Option Delivery :=
  if d.Issuable ∧ d.workspaceId = workspaceId ∧ d.deliveryId ∈ deliveryIds then
    match decide agent with
    | .enveloped identity =>
      setEnvelopes workspaceId [{ deliveryId := d.deliveryId, identity := some identity }]
        (fun _ d => d.Issuable) true agent d
    | .wake =>
      setEnvelopes workspaceId [{ deliveryId := d.deliveryId, identity := none }]
        (fun _ d => d.Issuable) true agent d
    | .notLaunched =>
      some { d.notLaunched now with
        mentionStage := none
        mentionTerminalCode := none
        mentionLaunchId := none
        mentionSessionId := none }
  else none

/-- Issues pending mentions again, each while it still carries the envelope it was read with: for
`identity`, clearing the terminal code, or, with none, as wakes that keep it. -/
def reissuePending (scope : AgentScope) (mentions : List PendingMention)
    (identity : Option MentionIdentity) (agent : MentionAgentState) (d : Delivery) :
    Option Delivery :=
  setEnvelopes scope.workspaceId
    (mentions.map fun mention =>
      { deliveryId := mention.deliveryId, identity := identity, carried := some mention })
    (fun v d => d.agentId = scope.agentId ∧ stillCarried v d) identity.isSome agent d

/-- After a failed issue no pending row may still name an envelope. -/
def clearEnvelopes (workspaceId : String) (deliveryIds : List String) (d : Delivery) :
    Option Delivery :=
  if d.workspaceId = workspaceId ∧ d.deliveryId ∈ deliveryIds ∧
      d.mentionOutcome = some .pending ∧ d.mentionLaunchId.isSome then
    some { d with mentionLaunchId := none, mentionSessionId := none }
  else none

/-- A person stopped the Agent. -/
def settleStopped (workspaceId agentId : String) (stoppedAt : Nat) (d : Delivery) :
    Option Delivery :=
  if d.workspaceId = workspaceId ∧ d.agentId = agentId ∧ d.mentionOutcome = some .pending then
    some (d.notLaunched stoppedAt)
  else none

/-- An ACK that echoes the delivery's current envelope: delivered, even after a Stop settled it. -/
def settleDrained (key : MentionDeliveryReportKey) (now : Nat) (agent : MentionAgentState)
    (d : Delivery) : Option Delivery :=
  if (d.IsOpen ∨ d.StopSettled) ∧ reportedRowWhere key agent d then
    some { d with
      mentionOutcome := some .delivered
      mentionReasonCategory := none
      mentionSettledAt := some now }
  else none

/-- An ACK without an envelope for a delivery that was sent with one. -/
def settleUnechoed (scope : AgentScope) (deliveryId : String) (now : Nat)
    (agent : MentionAgentState) (d : Delivery) : Option Delivery :=
  if d.deliveryId = deliveryId ∧ d.workspaceId = scope.workspaceId ∧ d.agentId = scope.agentId ∧
      agent.computerId = some scope.computerId ∧ d.mentionOutcome = some .pending ∧
      d.mentionLaunchId.isSome then
    some { d with mentionOutcome := some .unknown, mentionSettledAt := some now }
  else none

def recordStage (key : MentionDeliveryReportKey) (stage : MentionDeliveryStage)
    (agent : MentionAgentState) (d : Delivery) : Option Delivery :=
  if d.IsOpen ∧ reportedRowWhere key agent d then some { d with mentionStage := some stage }
  else none

/-- How a daemon's terminal report settles a mention. -/
structure TerminalSettlement where
  outcome : { o : MentionOutcome // o = .lost ∨ o = .unknown }
  reason : Option MentionReasonCategory
  code : String

def Delivery.settled (d : Delivery) (result : TerminalSettlement) (now : Nat) : Delivery :=
  { d with
    mentionOutcome := some result.outcome.val
    mentionReasonCategory := result.reason
    mentionTerminalCode := some result.code
    mentionSettledAt := some now }

def settleTerminal (key : MentionDeliveryReportKey) (result : TerminalSettlement) (now : Nat)
    (agent : MentionAgentState) (d : Delivery) : Option Delivery :=
  if d.IsOpen ∧ reportedRowWhere key agent d then some (d.settled result now) else none

/-- An identity report's answer: settle the mention, or keep it pending for `reissue` (none:
without an envelope), recording the report's code. -/
inductive ReportAnswer where
  | settle (result : TerminalSettlement)
  | reissue (identity : Option MentionIdentity) (code : String)

/-- What `answerReported` reads of the row it answers for. -/
structure Reported where
  terminalCode : Option String
  agent : MentionAgentState
  deriving DecidableEq, Repr

/-- The read of `answerReported`. -/
def readReported (key : MentionDeliveryReportKey) (agent : MentionAgentState) (d : Delivery) :
    Option Reported :=
  if d.IsOpen ∧ reportedRowWhere key agent d then some ⟨d.mentionTerminalCode, agent⟩ else none

/-- The write of `answerReported`, which checks the row again. -/
def writeAnswer (key : MentionDeliveryReportKey) (answer : ReportAnswer) (now : Nat)
    (agent : MentionAgentState) (d : Delivery) : Option Delivery :=
  if d.IsOpen ∧ reportedRowWhere key agent d then
    match answer with
    | .settle result => some (d.settled result now)
    | .reissue identity code =>
      some { d with
        mentionOutcome := some .pending
        mentionStage := none
        mentionLaunchId := identity.map (·.launchId)
        mentionSessionId := identity.map (·.sessionId)
        mentionTerminalCode := some code
        mentionSettledAt := none }
  else none

/-- The ACK itself: where its delivery is not the Agent's on that Computer it is refused. -/
def recordReceived (scope : AgentScope) (deliveryId messageId : String) (sequence : Nat)
    (now : Nat) (agent : MentionAgentState) (d : Delivery) : Option Delivery :=
  if d.deliveryId = deliveryId ∧ d.workspaceId = scope.workspaceId ∧ d.agentId = scope.agentId ∧
      d.messageId = messageId ∧ d.sequence = sequence ∧ agent.computerId = some scope.computerId then
    some { d with receivedAt := some now }
  else none

end Coforge.MentionDeliveries
