import Coforge.Lib.Run
import Coforge.MentionDeliveries.Reports

/-!
# Outcomes are final

The life of one delivery, statement by statement: sends, re-issues, the ACKs, the reports, a
person's Stop, and whatever changes the Agent. What an operation read before it writes is part of
the step, so that the statements of any number of operations interleave as they like.

A mention that a Stop settled can still be acknowledged, and is told from the other lost ones by the
terminal code it does not have. An answer to a drift records a code and keeps the mention pending,
so a Stop that comes after it leaves a mention that no ACK can settle. Nothing else stands in the
way of the outcomes being final.
-/

namespace Coforge.MentionDeliveries

open Transition

/-- What made a mention lost. -/
inductive Loss where
  | stop | unwakeable | report
  deriving DecidableEq, Repr

/-- One delivery, its Agent, the ACKs that were received and are to settle the mention, and what
the mention was lost to, if it was. -/
structure World where
  row : Delivery
  agent : MentionAgentState
  acks : List ReceivedDeliveryAck := []
  lostTo : Option Loss := none
  deriving DecidableEq, Repr

/-- A delivery as a send creates it, not tracked yet. -/
def World.start (deliveryId messageId workspaceId agentId : String) (sequence : Nat)
    (agent : MentionAgentState) : World where
  row := { deliveryId, messageId, workspaceId, agentId, sequence }
  agent := agent

/-- The row after a statement, with the loss noted if it is one. -/
def World.apply (w : World) (cause : Loss) (next : Option Delivery) : World :=
  match next with
  | none   => w
  | some d => { w with
      row := d
      lostTo := if d.mentionOutcome = some .lost ∧ w.row.mentionOutcome ≠ some .lost then
        some cause else w.lostTo }

inductive Step where
  | issue (workspaceId : String) (deliveryIds : List String) (now : Nat)
  | issueFailed (workspaceId : String) (deliveryIds : List String)
  /-- Pending mentions as a re-issue read them, and the Agent it read with them. -/
  | reissue (scope : AgentScope) (mentions : List PendingMention) (read : MentionAgentState)
  | stop (workspaceId agentId : String) (stoppedAt : Nat)
  | receiveAck (ack : ReceivedDeliveryAck) (now : Nat)
  | settleAck (ack : ReceivedDeliveryAck) (reported : Reported) (now : Nat)
  | transition (report : MentionReport) (stage : MentionDeliveryStage)
  | terminalError (report : MentionReport) (code : String) (reported : Reported) (now : Nat)
  | agentChanged (agent : MentionAgentState)
  deriving DecidableEq, Repr

/-- `receiveDeliveryAck` up to its gate. -/
def World.receiveAck (w : World) (ack : ReceivedDeliveryAck) (now : Nat) : World :=
  match recordReceived ack.scope ack.deliveryId ack.messageId ack.sequence now w.agent w.row with
  | none   => w
  | some d => { w with row := d, acks := if settleableByAck d then ack :: w.acks else w.acks }

def step (w : World) : Step → Option World
  | .issue workspaceId deliveryIds now =>
    some (w.apply .unwakeable
      (MentionDeliveries.issue workspaceId deliveryIds planIssue now w.agent w.row))
  | .issueFailed workspaceId deliveryIds =>
    some (w.apply .report (clearEnvelopes workspaceId deliveryIds w.row))
  | .reissue scope mentions read =>
    some (w.apply .report (reissuePending scope mentions (currentIdentity read) w.agent w.row))
  | .stop workspaceId agentId stoppedAt =>
    some (w.apply .stop (settleStopped workspaceId agentId stoppedAt w.row))
  | .receiveAck ack now => some (w.receiveAck ack now)
  | .settleAck ack reported now =>
    if ack ∈ w.acks then
      some { w.apply .report (MentionDeliveries.settleAck ack reported now w.agent w.row) with
        acks := w.acks.erase ack }
    else none
  | .transition report stage =>
    some (w.apply .report (receiveTransition report stage w.agent w.row))
  | .terminalError report code reported now =>
    some (w.apply .report (receiveTerminalError report code reported now w.agent w.row))
  | .agentChanged agent => some { w with agent := agent }

/-- An ACK for the delivery from the Computer its Agent is on, with the envelope the delivery
carries. -/
def Echoes (ack : ReceivedDeliveryAck) (agent : MentionAgentState) (d : Delivery) : Prop :=
  d.deliveryId = ack.deliveryId ∧ d.messageId = ack.messageId ∧
    d.workspaceId = ack.scope.workspaceId ∧ d.agentId = ack.scope.agentId ∧
    d.sequence = ack.sequence ∧ agent.computerId = some ack.scope.computerId ∧
    ∃ launchId sessionId, d.mentionLaunchId = some launchId ∧
      d.mentionSessionId = some sessionId ∧
      ack.mentionDelivery = some ⟨d.messageId, launchId, sessionId, ack.scope.computerId⟩

/-- What the outcomes being final says of a step. A lost mention that a Stop settled is made
delivered by an ACK that echoes its envelope: by each one, whatever the Agent's state is by then. -/
structure Finality (w : World) (l : Step) (w' : World) : Prop where
  delivered : w.row.mentionOutcome = some .delivered → w'.row.mentionOutcome = some .delivered
  lost : w.row.mentionOutcome = some .lost →
    w'.row.mentionOutcome = some .lost ∧ w'.lostTo = w.lostTo ∨
      w'.row.mentionOutcome = some .delivered ∧ w.lostTo = some .stop ∧
        ∃ ack reported now, l = .settleAck ack reported now ∧ Echoes ack w.agent w.row
  overridable : w'.row.mentionOutcome = some .lost → w'.lostTo = some .stop →
    ∀ ack agent, Echoes ack agent w'.row →
      settleableByAck w'.row ∧ ∀ reported now, ∃ d,
        MentionDeliveries.settleAck ack reported now agent w'.row = some d ∧
          d.mentionOutcome = some .delivered

/-- No Stop settles a mention that carries an envelope and a terminal code. -/
def Spares (w : World) (l : Step) : Prop :=
  ∀ workspaceId agentId stoppedAt, l = .stop workspaceId agentId stoppedAt →
    w.row.workspaceId = workspaceId → w.row.agentId = agentId →
    w.row.mentionOutcome = some .pending → w.row.mentionLaunchId.isSome →
    w.row.mentionTerminalCode = none

/-! ### What a statement changes -/

/-- An envelope to issue names a launch. -/
def Named (identity : Option MentionIdentity) : Prop :=
  ∀ i, identity = some i → i.launchId ≠ ""

/-- What the statements make of a row, less the one that makes a mention delivered. -/
inductive Change (d : Delivery) : Loss → Delivery → Prop where
  | issued {cause} (identity : Option MentionIdentity) (clearCode : Bool) (hopen : d.Issuable)
      (hnamed : Named identity) : Change d cause (d.issued identity clearCode)
  | cleared {cause} (hopen : d.mentionOutcome = some .pending) :
      Change d cause { d with mentionLaunchId := none, mentionSessionId := none }
  | stopped (now : Nat) (hopen : d.mentionOutcome = some .pending) :
      Change d .stop (d.notLaunched now)
  | notLaunched (now : Nat) (hopen : d.Issuable) :
      Change d .unwakeable { d.notLaunched now with
        mentionStage := none
        mentionTerminalCode := none
        mentionLaunchId := none
        mentionSessionId := none }
  | unechoed (now : Nat) (hopen : d.mentionOutcome = some .pending) :
      Change d .report { d with mentionOutcome := some .unknown, mentionSettledAt := some now }
  | staged (stage : MentionDeliveryStage) (hopen : d.IsOpen) :
      Change d .report { d with mentionStage := some stage }
  | settled (result : TerminalSettlement) (now : Nat) (hopen : d.IsOpen) :
      Change d .report (d.settled result now)
  | reissued (identity : Option MentionIdentity) (code : String) (hopen : d.IsOpen)
      (hnamed : Named identity) :
      Change d .report { d with
        mentionOutcome := some .pending
        mentionStage := none
        mentionLaunchId := identity.map (·.launchId)
        mentionSessionId := identity.map (·.sessionId)
        mentionTerminalCode := some code
        mentionSettledAt := none }

section Change

variable {d d' : Delivery} {cause : Loss}

lemma Change.open (h : Change d cause d') :
    d.mentionOutcome ≠ some .delivered ∧ d.mentionOutcome ≠ some .lost := by
  have hissuable : d.Issuable →
      d.mentionOutcome ≠ some .delivered ∧ d.mentionOutcome ≠ some .lost := by
    rintro (h | h) <;> simp [h]
  have hopen : d.IsOpen →
      d.mentionOutcome ≠ some .delivered ∧ d.mentionOutcome ≠ some .lost := by
    rintro (h | h) <;> simp [h]
  cases h with
  | issued _ _ h _ | notLaunched _ h => exact hissuable h
  | cleared h | stopped _ h | unechoed _ h => exact hopen (.inl h)
  | staged _ h | settled _ _ h | reissued _ _ h _ => exact hopen h

lemma Change.sequence (h : Change d cause d') : d'.sequence = d.sequence := by
  cases h <;> rfl

lemma named_map {identity : Option MentionIdentity} (h : Named identity) :
    ∀ l, identity.map (·.launchId) = some l → l ≠ "" := by
  intro l hl
  obtain ⟨i, hi, rfl⟩ := Option.map_eq_some_iff.mp hl
  exact h i hi

lemma Change.named (h : Change d cause d') (hd : ∀ l, d.mentionLaunchId = some l → l ≠ "") :
    ∀ l, d'.mentionLaunchId = some l → l ≠ "" := by
  cases h with
  | issued identity _ _ hnamed | reissued identity _ _ hnamed => exact named_map hnamed
  | cleared | notLaunched => exact nofun
  | stopped | unechoed | staged | settled => exact hd

lemma Change.paired (h : Change d cause d')
    (hd : d.mentionLaunchId.isSome ↔ d.mentionSessionId.isSome) :
    d'.mentionLaunchId.isSome ↔ d'.mentionSessionId.isSome := by
  cases h with
  | issued identity _ _ _ | reissued identity _ _ _ => simp [Delivery.issued]
  | cleared | notLaunched => simp
  | stopped | unechoed | staged | settled => exact hd

/-- A mention is lost to a Stop, to a report, which leaves a code, or to an Agent nothing may wake,
which leaves no envelope. -/
lemma Change.lost (h : Change d cause d') (hlost : d'.mentionOutcome = some .lost) :
    (cause = .stop ∧ d.mentionOutcome = some .pending ∧ ∃ now, d' = d.notLaunched now) ∨
      cause ≠ .stop ∧ (d'.mentionTerminalCode = none → d'.mentionLaunchId = none) := by
  cases h with
  | stopped now hopen => exact .inl ⟨rfl, hopen, now, rfl⟩
  | notLaunched now _ => exact .inr ⟨nofun, fun _ => rfl⟩
  | settled result now _ => exact .inr ⟨nofun, nofun⟩
  | issued | unechoed | reissued => cases hlost
  | cleared hopen => exact nomatch hopen.symm.trans hlost
  | staged _ hopen =>
    rcases hopen with hopen | hopen
    · exact nomatch hopen.symm.trans hlost
    · exact nomatch hopen.symm.trans hlost

end Change

/-! ### What each statement is -/

section Statements

variable {agent : MentionAgentState} {d d' : Delivery}

lemma named_currentIdentity : Named (currentIdentity agent) :=
  fun _ hi => (currentIdentity_spec hi).2.1

variable {workspaceId : String} {now : Nat}

lemma issue_change {deliveryIds : List String}
    (h : issue workspaceId deliveryIds planIssue now agent d = some d') :
    Change d .unwakeable d' := by
  rw [issue] at h
  split_ifs at h with hcond
  cases hplan : planIssue agent with
  | enveloped identity =>
    rw [hplan] at h
    obtain ⟨v, hv, -, rfl⟩ := setEnvelopes_spec h
    rw [List.mem_singleton] at hv
    subst hv
    refine .issued _ _ hcond.1 ?_
    rintro i ⟨⟩
    rw [planIssue] at hplan
    split at hplan
    case h_1 identity' hidentity =>
      cases hplan
      exact named_currentIdentity _ hidentity
    case h_2 => split_ifs at hplan
  | wake =>
    rw [hplan] at h
    obtain ⟨v, hv, -, rfl⟩ := setEnvelopes_spec h
    rw [List.mem_singleton] at hv
    subst hv
    exact .issued _ _ hcond.1 nofun
  | notLaunched =>
    rw [hplan] at h
    cases h
    exact .notLaunched now hcond.1

lemma reissuePending_change {scope : AgentScope} {mentions : List PendingMention}
    {read : MentionAgentState}
    (h : reissuePending scope mentions (currentIdentity read) agent d = some d') :
    Change d .report d' := by
  obtain ⟨v, hv, ⟨-, -, hcond, -⟩, rfl⟩ := setEnvelopes_spec h
  obtain ⟨mention, -, rfl⟩ := List.mem_map.mp hv
  exact .issued _ _ (.inr hcond.2.1) named_currentIdentity

lemma clearEnvelopes_change {deliveryIds : List String}
    (h : clearEnvelopes workspaceId deliveryIds d = some d') : Change d .report d' := by
  rw [clearEnvelopes] at h
  split_ifs at h with hcond
  cases h
  exact .cleared hcond.2.2.1

lemma settleStopped_spec {agentId : String} {stoppedAt : Nat}
    (h : settleStopped workspaceId agentId stoppedAt d = some d') :
    (d.workspaceId = workspaceId ∧ d.agentId = agentId ∧ d.mentionOutcome = some .pending) ∧
      d' = d.notLaunched stoppedAt := by
  rw [settleStopped] at h
  split_ifs at h with hcond
  cases h
  exact ⟨hcond, rfl⟩

lemma settleTerminal_change {key : MentionDeliveryReportKey} {result : TerminalSettlement} (h : settleTerminal key result now agent d = some d') : Change d .report d' := by
  rw [settleTerminal] at h
  split_ifs at h with hcond
  cases h
  exact .settled result now hcond.1

lemma writeAnswer_change {key : MentionDeliveryReportKey} {answer : ReportAnswer}
    (hnamed : ∀ identity code, answer = .reissue identity code → Named identity)
    (h : writeAnswer key answer now agent d = some d') : Change d .report d' := by
  unfold writeAnswer at h
  split_ifs at h with hcond
  cases answer with
  | settle result =>
    cases h
    exact .settled result now hcond.1
  | reissue identity code =>
    cases h
    exact .reissued identity code hcond.1 (hnamed identity code rfl)

variable {reported : Reported}

lemma named_newerIdentity {envelope : MentionDeliveryEnvelope} :
    Named (newerIdentity envelope reported) := by
  intro i hi
  rw [newerIdentity, Option.filter_eq_some_iff] at hi
  exact named_currentIdentity i hi.1

lemma answerDrift_named {envelope : MentionDeliveryEnvelope}
    (identity : Option MentionIdentity) (code : String)
    (h : answerDrift envelope reported = .reissue identity code) : Named identity := by
  rw [answerDrift] at h
  split_ifs at h
  cases h
  exact named_newerIdentity

lemma answerUnknown_named {code : String} (identity : Option MentionIdentity) (code' : String)
    (h : answerUnknown code reported = .reissue identity code') : Named identity := by
  rw [answerUnknown] at h
  split_ifs at h
  cases h
  exact nofun

lemma receiveTransition_change {report : MentionReport} {stage : MentionDeliveryStage}
    (h : receiveTransition report stage agent d = some d') : Change d .report d' := by
  rw [receiveTransition] at h
  split_ifs at h
  rw [recordStage] at h
  split_ifs at h with hcond
  cases h
  exact .staged stage hcond.1

lemma receiveTerminalError_change {report : MentionReport} {code : String} (h : receiveTerminalError report code reported now agent d = some d') :
    Change d .report d' := by
  rw [receiveTerminalError] at h
  split_ifs at h
  · exact writeAnswer_change answerDrift_named h
  · exact writeAnswer_change answerUnknown_named h
  · exact writeAnswer_change answerDrift_named h
  · exact settleTerminal_change h

/-- An ACK leaves the mention unknown, is answered as a drift, or is the one the delivery waits
for. -/
lemma settleAck_cases {ack : ReceivedDeliveryAck}
    (h : settleAck ack reported now agent d = some d') : Change d .report d' ∨
      (d.IsOpen ∨ d.StopSettled) ∧ (d.sequence = ack.sequence → Echoes ack agent d) ∧ d' = { d with
          mentionOutcome := some .delivered
          mentionReasonCategory := none
          mentionSettledAt := some now } := by
  rw [settleAck] at h
  cases henvelope : ack.mentionDelivery with
  | none =>
    rw [henvelope] at h
    simp only [settleUnechoed] at h
    split_ifs at h with hcond
    cases h
    exact .inl (.unechoed now hcond.2.2.2.2.1)
  | some envelope =>
    rw [henvelope] at h
    simp only at h
    split_ifs at h with hmessage hcomputer
    · exact .inl (writeAnswer_change answerDrift_named h)
    · rw [settleDrained] at h
      split_ifs at h with hcond
      cases h
      obtain ⟨hdelivery, hmessageId, hworkspace, hagent, hon, hlaunch, hsession⟩ := hcond.2
      have hack : d.messageId = ack.messageId := hmessageId.trans (not_not.mp hmessage)
      refine .inr ⟨hcond.1, fun hsequence => ⟨hdelivery, hack, hworkspace, hagent, hsequence, hon,
        envelope.launchId, envelope.sessionId, hlaunch, hsession, ?_⟩, rfl⟩
      rw [henvelope, hmessageId, ← not_not.mp hcomputer]
      rfl

lemma settleAck_of_echoes {ack : ReceivedDeliveryAck} (hechoes : Echoes ack agent d)
    (hopen : d.IsOpen ∨ d.StopSettled) (reported : Reported) (now : Nat) :
    ∃ d', settleAck ack reported now agent d = some d' ∧ d'.mentionOutcome = some .delivered := by
  obtain ⟨hdelivery, hmessage, hworkspace, hagent, -, hon, launchId, sessionId, hlaunch, hsession,
    henvelope⟩ := hechoes
  have hrow : reportedRowWhere (reportKey ack.scope ack.deliveryId
      ⟨d.messageId, launchId, sessionId, ack.scope.computerId⟩) agent d :=
    ⟨hdelivery, rfl, hworkspace, hagent, hon, hlaunch, hsession⟩
  refine ⟨{ d with
    mentionOutcome := some .delivered
    mentionReasonCategory := none
    mentionSettledAt := some now }, ?_, rfl⟩
  rw [settleAck, henvelope]
  simp only
  rw [if_neg (not_not.mpr hmessage), if_neg (not_not.mpr rfl), settleDrained, if_pos ⟨hopen, hrow⟩]

end Statements

/-! ### Steps -/

/-- What a step does to the delivery: at most note that it was received, one of the changes, or
the acknowledgement it waits for. -/
inductive Stepped (w : World) (l : Step) (w' : World) : Prop where
  | kept (receivedAt : Option Nat) (hrow : w'.row = { w.row with receivedAt := receivedAt })
      (hlost : w'.lostTo = w.lostTo)
  | changed (cause : Loss) (hchange : Change w.row cause w'.row)
      (hlost : w'.lostTo = if w'.row.mentionOutcome = some .lost then some cause else w.lostTo)
      (hstop : cause = .stop → ∃ stoppedAt, l = .stop w.row.workspaceId w.row.agentId stoppedAt)
  | drained (ack : ReceivedDeliveryAck) (reported : Reported) (now : Nat)
      (hlabel : l = .settleAck ack reported now) (hechoes : Echoes ack w.agent w.row)
      (hopen : w.row.IsOpen ∨ w.row.StopSettled)
      (hrow : w'.row = { w.row with
        mentionOutcome := some .delivered
        mentionReasonCategory := none
        mentionSettledAt := some now })

section Step

variable {w w' : World} {l : Step}

lemma stepped_apply {cause : Loss} {next : Option Delivery}
    (hchange : ∀ d, next = some d → Change w.row cause d) (hcause : cause ≠ .stop) :
    Stepped w l (w.apply cause next) := by
  cases next with
  | none => exact .kept w.row.receivedAt rfl rfl
  | some d =>
    have hd := hchange d rfl
    refine .changed cause hd ?_ fun h => absurd h hcause
    simp [World.apply, hd.open.2]

lemma step_acks (h : step w l = some w') :
    ∀ ack ∈ w'.acks, ack ∈ w.acks ∨ w'.row.sequence = ack.sequence := by
  have hkeep : ∀ cause next, ∀ ack ∈ (w.apply cause next).acks, ack ∈ w.acks := by
    intro cause next ack hack
    cases next with
    | none => exact hack
    | some d => exact hack
  cases l with
  | issue | issueFailed | reissue | stop | transition | terminalError =>
    cases h
    exact fun ack hack => .inl (hkeep _ _ ack hack)
  | settleAck ack' reported now =>
    simp only [step] at h
    split_ifs at h
    cases h
    exact fun ack hack => .inl (List.mem_of_mem_erase hack)
  | agentChanged agent =>
    cases h
    exact fun ack hack => .inl hack
  | receiveAck ack' now =>
    cases h
    intro ack hack
    simp only [World.receiveAck] at hack ⊢
    cases hreceived : recordReceived ack'.scope ack'.deliveryId ack'.messageId ack'.sequence now
        w.agent w.row with
    | none =>
      rw [hreceived] at hack
      exact .inl hack
    | some d =>
      rw [hreceived] at hack
      simp only at hack ⊢
      split_ifs at hack
      · rcases List.mem_cons.mp hack with rfl | hack
        · rw [recordReceived] at hreceived
          split_ifs at hreceived with hcond
          cases hreceived
          exact .inr hcond.2.2.2.2.1
        · exact .inl hack
      · exact .inl hack

theorem step_cases (hacks : ∀ ack ∈ w.acks, w.row.sequence = ack.sequence)
    (h : step w l = some w') : Stepped w l w' := by
  cases l with
  | issue workspaceId deliveryIds now =>
    cases h
    exact stepped_apply (fun d hd => issue_change hd) nofun
  | issueFailed workspaceId deliveryIds =>
    cases h
    exact stepped_apply (fun d hd => clearEnvelopes_change hd) nofun
  | reissue scope mentions read =>
    cases h
    exact stepped_apply (fun d hd => reissuePending_change hd) nofun
  | stop workspaceId agentId stoppedAt =>
    cases h
    cases hstop : settleStopped workspaceId agentId stoppedAt w.row with
    | none => exact .kept w.row.receivedAt rfl rfl
    | some d =>
      obtain ⟨⟨rfl, rfl, hpending⟩, rfl⟩ := settleStopped_spec hstop
      refine .changed .stop (.stopped stoppedAt hpending) ?_ fun _ => ⟨stoppedAt, rfl⟩
      simp [World.apply, hpending]
  | transition report stage =>
    cases h
    exact stepped_apply (fun d hd => receiveTransition_change hd) nofun
  | terminalError report code reported now =>
    cases h
    exact stepped_apply (fun d hd => receiveTerminalError_change hd) nofun
  | agentChanged agent =>
    cases h
    exact .kept w.row.receivedAt rfl rfl
  | receiveAck ack now =>
    cases h
    simp only [World.receiveAck]
    cases hreceived : recordReceived ack.scope ack.deliveryId ack.messageId ack.sequence now
        w.agent w.row with
    | none => exact .kept w.row.receivedAt rfl rfl
    | some d =>
      rw [recordReceived] at hreceived
      split_ifs at hreceived
      cases hreceived
      exact .kept (some now) rfl rfl
  | settleAck ack reported now =>
    simp only [step] at h
    split_ifs at h with hack
    cases h
    cases hsettle : MentionDeliveries.settleAck ack reported now w.agent w.row with
    | none => exact .kept w.row.receivedAt rfl rfl
    | some d =>
      rcases settleAck_cases hsettle with hchange | ⟨hopen, hechoes, rfl⟩
      · refine .changed .report hchange ?_ nofun
        simp [World.apply, hchange.open.2]
      · exact .drained ack reported now rfl (hechoes (hacks ack hack)) hopen rfl

end Step

/-! ### What is known of the delivery -/

structure Known (w : World) : Prop where
  named : ∀ l, w.row.mentionLaunchId = some l → l ≠ ""
  paired : w.row.mentionLaunchId.isSome ↔ w.row.mentionSessionId.isSome
  acks : ∀ ack ∈ w.acks, w.row.sequence = ack.sequence
  stopped : w.row.mentionOutcome = some .lost → w.lostTo = some .stop →
    w.row.mentionReasonCategory = some .notLaunched
  uncoded : w.row.mentionOutcome = some .lost → w.row.mentionTerminalCode = none →
    w.row.mentionLaunchId.isSome → w.lostTo = some .stop

lemma Known.start (deliveryId messageId workspaceId agentId : String) (sequence : Nat)
    (agent : MentionAgentState) :
    Known (World.start deliveryId messageId workspaceId agentId sequence agent) where
  named := nofun
  paired := Iff.rfl
  acks := nofun
  stopped := nofun
  uncoded := nofun

theorem Known.step {w w' : World} {l : Step} (hw : Known w) (h : step w l = some w') :
    Known w' := by
  have hacks : w'.row.sequence = w.row.sequence →
      ∀ ack ∈ w'.acks, w'.row.sequence = ack.sequence := by
    intro hsequence ack hack
    rcases step_acks h ack hack with hbefore | hnow
    · exact hsequence.trans (hw.acks ack hbefore)
    · exact hnow
  cases step_cases hw.acks h with
  | kept receivedAt hrow hlost =>
    have hsequence : w'.row.sequence = w.row.sequence := by rw [hrow]
    refine ⟨?_, ?_, hacks hsequence, ?_, ?_⟩
    · rw [hrow]
      exact hw.named
    · rw [hrow]
      exact hw.paired
    · rw [hrow, hlost]
      exact hw.stopped
    · rw [hrow, hlost]
      exact hw.uncoded
  | changed cause hchange hlost hstop =>
    refine ⟨hchange.named hw.named, hchange.paired hw.paired, hacks hchange.sequence, ?_, ?_⟩
    · intro hout hto
      rw [hlost, if_pos hout] at hto
      rcases hchange.lost hout with ⟨-, -, now, hd⟩ | ⟨hcause, -⟩
      · rw [hd]
        rfl
      · exact absurd (Option.some.inj hto) hcause
    · intro hout hcode hlaunch
      rw [hlost, if_pos hout]
      rcases hchange.lost hout with ⟨rfl, -⟩ | ⟨-, hnone⟩
      · rfl
      · rw [hnone hcode] at hlaunch
        cases hlaunch
  | drained ack reported now _ _ _ hrow =>
    have hsequence : w'.row.sequence = w.row.sequence := by rw [hrow]
    refine ⟨?_, ?_, hacks hsequence, ?_, ?_⟩
    · rw [hrow]
      exact hw.named
    · rw [hrow]
      exact hw.paired
    · rw [hrow]
      exact nofun
    · rw [hrow]
      exact nofun

/-- A mention that a Stop settled carries no code, if it carries an envelope. -/
def CodeFree (w : World) : Prop :=
  w.row.mentionOutcome = some .lost → w.lostTo = some .stop → w.row.mentionLaunchId.isSome →
    w.row.mentionTerminalCode = none

lemma CodeFree.step {w w' : World} {l : Step} (hw : Known w) (hfree : CodeFree w)
    (hspares : Spares w l) (h : MentionDeliveries.step w l = some w') : CodeFree w' := by
  intro hout hto hlaunch
  cases step_cases hw.acks h with
  | kept receivedAt hrow hlost =>
    rw [hrow] at hout hlaunch ⊢
    exact hfree hout (hlost ▸ hto) hlaunch
  | changed cause hchange hlost hstop =>
    rw [hlost, if_pos hout] at hto
    obtain rfl := Option.some.inj hto
    obtain ⟨stoppedAt, rfl⟩ := hstop rfl
    rcases hchange.lost hout with ⟨-, hpending, now, hd⟩ | ⟨hcause, -⟩
    · rw [hd] at hlaunch ⊢
      exact hspares _ _ stoppedAt rfl rfl rfl hpending hlaunch
    · exact absurd rfl hcause
  | drained ack reported now _ _ _ hrow =>
    rw [hrow] at hout
    cases hout

/-! ### Finality -/

lemma finality_of_codeFree {w w' : World} {l : Step} (hw : Known w)
    (h : step w l = some w') (hfree : CodeFree w') : Finality w l w' := by
  have hw' := hw.step h
  refine ⟨?_, ?_, ?_⟩
  · intro hdelivered
    cases step_cases hw.acks h with
    | kept receivedAt hrow _ => rw [hrow, ← hdelivered]
    | changed cause hchange _ _ => exact absurd hdelivered hchange.open.1
    | drained ack reported now _ _ _ hrow => rw [hrow]
  · intro hlost
    cases step_cases hw.acks h with
    | kept receivedAt hrow hto => exact .inl ⟨by rw [hrow, ← hlost], hto⟩
    | changed cause hchange _ _ => exact absurd hlost hchange.open.2
    | drained ack reported now hlabel hechoes hopen hrow =>
      have hstop : w.row.StopSettled := by
        rcases hopen with (hopen | hopen) | hopen
        · exact nomatch hopen.symm.trans hlost
        · exact nomatch hopen.symm.trans hlost
        · exact hopen
      have hlaunch : w.row.mentionLaunchId.isSome := by
        obtain ⟨-, -, -, -, -, -, launchId, sessionId, hlaunch, -⟩ := hechoes
        rw [hlaunch]
        rfl
      exact .inr ⟨by rw [hrow], hw.uncoded hlost hstop.2.2 hlaunch, ack, reported, now, hlabel,
        hechoes⟩
  · intro hlost hto ack agent hechoes
    obtain ⟨-, -, -, -, -, -, launchId, sessionId, hlaunch, -⟩ := id hechoes
    have hsettled : w'.row.StopSettled := by
      refine ⟨hlost, hw'.stopped hlost hto, hfree hlost hto ?_⟩
      rw [hlaunch]
      rfl
    refine ⟨⟨?_, .inr hsettled⟩, settleAck_of_echoes hechoes (.inr hsettled)⟩
    rw [truthy_eq_some.mpr ⟨hlaunch, hw'.named launchId hlaunch⟩]
    rfl

/-- The ACK that a delivery waits for, from a Computer. -/
def Delivery.echo (d : Delivery) (computerId launchId sessionId : String) :
    ReceivedDeliveryAck where
  scope := ⟨d.workspaceId, computerId, d.agentId⟩
  deliveryId := d.deliveryId
  messageId := d.messageId
  sequence := d.sequence
  mentionDelivery := some ⟨d.messageId, launchId, sessionId, computerId⟩

lemma spares_of_finality {w : World} {l : Step} (hw : Known w)
    (h : ∀ w', step w l = some w' → Finality w l w') : Spares w l := by
  rintro workspaceId agentId stoppedAt rfl rfl rfl hpending hlaunch
  obtain ⟨launchId, hlaunchId⟩ := Option.isSome_iff_exists.mp hlaunch
  obtain ⟨sessionId, hsessionId⟩ := Option.isSome_iff_exists.mp (hw.paired.mp hlaunch)
  have hstep : settleStopped w.row.workspaceId w.row.agentId stoppedAt w.row =
      some (w.row.notLaunched stoppedAt) := if_pos ⟨rfl, rfl, hpending⟩
  have hfinal := (h _ rfl).overridable
  simp only [hstep, World.apply] at hfinal
  have hto : (if (w.row.notLaunched stoppedAt).mentionOutcome = some .lost ∧
      w.row.mentionOutcome ≠ some .lost then some Loss.stop else w.lostTo) = some .stop :=
    if_pos ⟨rfl, by simp [hpending]⟩
  have hechoes : Echoes (w.row.echo "" launchId sessionId) { w.agent with computerId := some "" }
      (w.row.notLaunched stoppedAt) :=
    ⟨rfl, rfl, rfl, rfl, rfl, rfl, launchId, sessionId, hlaunchId, hsessionId, rfl⟩
  obtain ⟨hsettleable, -⟩ := hfinal rfl hto _ _ hechoes
  rcases hsettleable.2 with (hopen | hopen) | hstopped
  · cases hopen
  · cases hopen
  · exact hstopped.2.2

/-- The outcomes are final along a run. -/
def Final (w : World) (ls : List Step) : Prop :=
  Permitted step (fun w l => ∀ w', step w l = some w' → Finality w l w') w ls

/-- The outcome of a delivery is final, along a run from its creation, exactly if no Stop settles
it while it carries an envelope and a terminal code. -/
theorem final_iff_spared (deliveryId messageId workspaceId agentId : String) (sequence : Nat)
    (agent : MentionAgentState) (ls : List Step) :
    Final (World.start deliveryId messageId workspaceId agentId sequence agent) ls ↔
      Permitted step Spares
        (World.start deliveryId messageId workspaceId agentId sequence agent) ls := by
  have hstart := Known.start deliveryId messageId workspaceId agentId sequence agent
  have hkept : ∀ w l w', Known w ∧ CodeFree w → Spares w l → step w l = some w' →
      Known w' ∧ CodeFree w' :=
    fun w l w' hw hspares h => ⟨hw.1.step h, hw.2.step hw.1 hspares h⟩
  constructor
  · exact Permitted.imp (fun w l w' (hw : Known w) _ h => hw.step h)
      (fun w l hw h => spares_of_finality hw h) hstart
  · exact Permitted.imp hkept (fun w l hw hspares w' h =>
      finality_of_codeFree hw.1 h (hkept w l w' hw hspares h).2) ⟨hstart, nofun⟩

/-! ### A Stop after a drift -/

section Drifted

def agentB : MentionAgentState where
  computerId := some "computer"
  stoppedAt := none
  deletedAt := none
  launch := some ⟨"computer", some "launch-b"⟩
  session := some ⟨"computer", some "session-b"⟩

def agentA : MentionAgentState :=
  { agentB with
    launch := some ⟨"computer", some "launch-a"⟩
    session := some ⟨"computer", some "session-a"⟩ }

/-- The mention is issued for the first launch, the drift its daemon reports is answered with an
envelope for the second, and a person stops the Agent. -/
def driftThenStop : List Step :=
  [.issue "workspace" ["delivery"] 0,
    .agentChanged agentB,
    .terminalError ⟨⟨"workspace", "computer", "agent"⟩, "delivery",
      ⟨"message", "launch-a", "session-a", "computer"⟩⟩ "IDENTITY_DRIFT" ⟨none, agentB⟩ 1,
    .stop "workspace" "agent" 2]

/-- The ACK that echoes the second envelope does not make the mention delivered. -/
theorem stop_after_drift_not_final :
    ¬ Final (World.start "delivery" "message" "workspace" "agent" 1 agentA) driftThenStop := by
  intro h
  obtain ⟨-, h⟩ := h
  obtain ⟨-, h⟩ := h _ rfl
  obtain ⟨-, h⟩ := h _ rfl
  have hfinal := (h _ rfl).1 _ rfl
  have hechoes := hfinal.overridable (by decide) (by decide)
    ⟨⟨"workspace", "computer", "agent"⟩, "delivery", "message", 1,
      some ⟨"message", "launch-b", "session-b", "computer"⟩⟩ agentB
    ⟨by decide, by decide, by decide, by decide, by decide, by decide, "launch-b", "session-b",
      by decide, by decide, by decide⟩
  exact absurd hechoes.1 (by decide)

end Drifted

end Coforge.MentionDeliveries
