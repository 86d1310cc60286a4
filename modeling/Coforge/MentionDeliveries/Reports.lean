import Coforge.MentionDeliveries.Record

/-!
# What the reports of a daemon are answered with

The decisions of the issuer and of the receiver of reports, each from what it is handed: the plan
of a send, how a terminal code settles, the two answers to identity reports, and whether an ACK can
still settle a mention. Where a decision is made from an earlier read, the read is an argument.
-/

namespace Coforge.MentionDeliveries

def identityUnknown : String := "IDENTITY_UNKNOWN"
def identityDrift : String := "IDENTITY_DRIFT"

/-! ### Decisions -/

/-- The plan of a send: pending with an envelope for a running Agent, pending without one for an
Agent that is woken, and not launched for an Agent nothing may wake. -/
def planIssue (agent : MentionAgentState) : MentionIssuePlan :=
  match currentIdentity agent with
  | some identity => .enveloped identity
  | none => if wakeable agent then .wake else .notLaunched

/-- How each terminal code settles a mention; `SETTLED_BY_CODE`, or `UNCLASSIFIED`. -/
def settledByCode (code : String) : TerminalSettlement :=
  match code with
  | "INSTRUMENT_FAILED" => ⟨⟨.unknown, .inr rfl⟩, none, code⟩
  | "DELIVERY_REJECTED" => ⟨⟨.lost, .inl rfl⟩, some .runtimeError, code⟩
  | "UNSUPPORTED_DELIVERY_PATH" => ⟨⟨.lost, .inl rfl⟩, some .runtimeError, code⟩
  | "QUOTA_LIMITED" => ⟨⟨.lost, .inl rfl⟩, some .quota, code⟩
  | _ => ⟨⟨.lost, .inl rfl⟩, some .unclassified, code⟩

def settledNotLaunched (code : String) : TerminalSettlement :=
  ⟨⟨.lost, .inl rfl⟩, some .notLaunched, code⟩

/-- `wakeWithoutEnvelope`: wake the Agent as an untracked mention does. -/
def answerUnknown (code : String) (reported : Reported) : ReportAnswer :=
  if wakeable reported.agent then .reissue none code else .settle (settledNotLaunched code)

def sameIdentity (identity : MentionIdentity) (envelope : MentionDeliveryEnvelope) : Prop :=
  identity.launchId = envelope.launchId ∧ identity.sessionId = envelope.sessionId ∧
    identity.computerId = envelope.computerId

instance (identity : MentionIdentity) (envelope : MentionDeliveryEnvelope) :
    Decidable (sameIdentity identity envelope) := inferInstanceAs (Decidable (_ ∧ _))

/-- The identity a drift re-issues for at once: one that is not the envelope's, while no drift is
counted against the mention. -/
def newerIdentity (envelope : MentionDeliveryEnvelope) (reported : Reported) :
    Option MentionIdentity :=
  (currentIdentity reported.agent).filter fun identity =>
    ¬sameIdentity identity envelope ∧ reported.terminalCode ≠ some identityDrift

/-- The answer of `answerDrift`. -/
def answerDrift (envelope : MentionDeliveryEnvelope) (reported : Reported) : ReportAnswer :=
  if wakeable reported.agent then .reissue (newerIdentity envelope reported) identityDrift
  else .settle (settledNotLaunched identityDrift)

/-- Whether an ACK can still settle this tracked mention: sent with an envelope, and open or
settled only by a person's Stop. -/
def settleableByAck (d : Delivery) : Prop :=
  (truthy d.mentionLaunchId).isSome ∧ (d.IsOpen ∨ d.StopSettled)

instance (d : Delivery) : Decidable (settleableByAck d) := inferInstanceAs (Decidable (_ ∧ _))

/-! ### Reports on one row -/

/-- A delivery ACK as the transport hands it over, scoped to the reporting Computer. -/
structure ReceivedDeliveryAck where
  scope : AgentScope
  deliveryId : String
  messageId : String
  sequence : Nat
  mentionDelivery : Option MentionDeliveryEnvelope
  deriving DecidableEq, Repr

def reportKey (scope : AgentScope) (deliveryId : String) (envelope : MentionDeliveryEnvelope) :
    MentionDeliveryReportKey where
  workspaceId := scope.workspaceId
  computerId := scope.computerId
  agentId := scope.agentId
  deliveryId := deliveryId
  envelope := envelope

/-- `settleAck`, after the gate. An envelope that names another Computer is a drift, answered from
what was read for it. -/
def settleAck (ack : ReceivedDeliveryAck) (reported : Reported) (now : Nat)
    (agent : MentionAgentState) (d : Delivery) : Option Delivery :=
  match ack.mentionDelivery with
  | none => settleUnechoed ack.scope ack.deliveryId now agent d
  | some envelope =>
    if envelope.messageId ≠ ack.messageId then none
    else if envelope.computerId ≠ ack.scope.computerId then
      writeAnswer (reportKey ack.scope ack.deliveryId envelope) (answerDrift envelope reported) now
        agent d
    else settleDrained (reportKey ack.scope ack.deliveryId envelope) now agent d

/-- A report on a tracked delivery, as its receiver decodes it for the reporting Computer. -/
structure MentionReport where
  scope : AgentScope
  deliveryId : String
  mentionDelivery : MentionDeliveryEnvelope
  deriving DecidableEq, Repr

def MentionReport.key (report : MentionReport) : MentionDeliveryReportKey :=
  reportKey report.scope report.deliveryId report.mentionDelivery

def receiveTransition (report : MentionReport) (stage : MentionDeliveryStage)
    (agent : MentionAgentState) (d : Delivery) : Option Delivery :=
  if report.mentionDelivery.computerId = report.scope.computerId then
    recordStage report.key stage agent d
  else none

/-- The write of `receiveTerminalError`; an identity report is answered from what was read for
it. -/
def receiveTerminalError (report : MentionReport) (code : String) (reported : Reported) (now : Nat)
    (agent : MentionAgentState) (d : Delivery) : Option Delivery :=
  if report.mentionDelivery.computerId ≠ report.scope.computerId then
    writeAnswer report.key (answerDrift report.mentionDelivery reported) now agent d
  else if code = identityUnknown then
    writeAnswer report.key (answerUnknown code reported) now agent d
  else if code = identityDrift then
    writeAnswer report.key (answerDrift report.mentionDelivery reported) now agent d
  else settleTerminal report.key (settledByCode code) now agent d

/-- Whether a mention went out as `identity` would issue it: with its envelope, or none without. -/
def issuedFor (mention : PendingMention) (identity : Option MentionIdentity) : Prop :=
  match identity with
  | some identity => mention.mentionLaunchId = some identity.launchId ∧
      mention.mentionSessionId = some identity.sessionId
  | none => mention.mentionLaunchId = none

instance (mention : PendingMention) (identity : Option MentionIdentity) :
    Decidable (issuedFor mention identity) :=
  match identity with
  | some _ => inferInstanceAs (Decidable (_ ∧ _))
  | none   => inferInstanceAs (Decidable (_ = _))

end Coforge.MentionDeliveries
