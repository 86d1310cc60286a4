import Coforge.Lib.Run
import Coforge.MentionDeliveries.Reports

/-!
# A drift report meets a new session

A daemon reports that an envelope is no longer the Agent's, and a newer session is accepted and its
pending mentions are issued for it. The answer to the report and the re-issue both write the
mention, each only while it carries the envelope it was read with, and each leaves the mention to
the other when it comes second. An answer that counts a second drift writes no envelope, though. If
it is the one that wins, between the reading and the writing of the re-issue, the mention is left to
nobody.
-/

namespace Coforge.MentionDeliveries

open Transition

/-- A pending mention, a drift report for the envelope it carries, and a session that is about to
be accepted for its Agent, which may be woken and is on the session's Computer. -/
structure Encounter where
  row : Delivery
  agent : MentionAgentState
  report : MentionDeliveryReportKey
  next : MentionIdentity
  pending : row.mentionOutcome = some .pending
  carried : row.mentionLaunchId = some report.envelope.launchId ∧
    row.mentionSessionId = some report.envelope.sessionId
  awake : wakeable agent
  onComputer : agent.computerId = some next.computerId
  running : next.launchId ≠ "" ∧ next.sessionId ≠ ""
  newer : ¬(next.launchId = report.envelope.launchId ∧ next.sessionId = report.envelope.sessionId)

/-- How far the acceptance has come. -/
inductive Phase where
  | waiting
  | accepted
  | read (agent : MentionAgentState) (mention : PendingMention)
  | resent
  deriving DecidableEq, Repr

structure Meeting where
  row : Delivery
  agent : MentionAgentState
  /-- What the answers that hold the Agent's row have read. -/
  answers : List Reported := []
  phase : Phase := .waiting
  pushed : List MentionDeliveryEnvelope := []
  deriving DecidableEq, Repr

inductive Act where
  | readReport
  | writeAnswer (reported : Reported) (now : Nat)
  | accept
  | readPending
  | reissue
  deriving DecidableEq, Repr

namespace Encounter

open Encounter

variable (e : Encounter)

def start : Meeting where
  row := e.row
  agent := e.agent

/-- The session is recorded as the current one of the Agent. -/
def accepted (agent : MentionAgentState) : MentionAgentState :=
  { agent with
    launch := some ⟨e.next.computerId, some e.next.launchId⟩
    session := some ⟨e.next.computerId, some e.next.sessionId⟩ }

def scope : AgentScope where
  workspaceId := e.row.workspaceId
  computerId := e.next.computerId
  agentId := e.row.agentId

/-- The second half of `answerDrift`: its write, and the push of what it issued again. -/
def writeAnswer (w : Meeting) (reported : Reported) (now : Nat) : Meeting :=
  let answer := answerDrift e.report.envelope reported
  match MentionDeliveries.writeAnswer e.report answer now w.agent w.row with
  | none => w
  | some row =>
    match answer with
    | .reissue (some identity) _ =>
      { w with row := row, pushed := envelopeFor e.report.envelope.messageId identity :: w.pushed }
    | .reissue none _ | .settle _ => { w with row := row }

/-- The write of `resendForCurrentSession`, and the push of what it issued. -/
def reissue (w : Meeting) (agent : MentionAgentState) (mention : PendingMention) : Meeting :=
  let identity := currentIdentity agent
  if agent.computerId ≠ some e.scope.computerId ∨ ¬wakeable agent ∨ issuedFor mention identity then
    { w with phase := .resent }
  else
    match reissuePending e.scope [mention] identity w.agent w.row with
    | none => { w with phase := .resent }
    | some row => { w with
        row := row
        phase := .resent
        pushed := (identity.map (envelopeFor mention.messageId)).toList ++ w.pushed }

/-- An answer holds the Agent's row from its read to its write, so no session is accepted in
between. Publishing and reading back succeed. -/
def step (w : Meeting) : Act → Option Meeting
  | .readReport =>
    match readReported e.report w.agent w.row with
    | none => some w
    | some reported => some { w with answers := reported :: w.answers }
  | .writeAnswer reported now =>
    if reported ∈ w.answers then
      some { e.writeAnswer w reported now with answers := w.answers.erase reported }
    else none
  | .accept =>
    if w.phase = .waiting ∧ w.answers = [] then
      some { w with agent := e.accepted w.agent, phase := .accepted }
    else none
  | .readPending =>
    if w.phase = .accepted then
      if w.row.mentionOutcome = some .pending then
        some { w with phase := .read w.agent w.row.pendingMention }
      else some { w with phase := .resent }
    else none
  | .reissue =>
    match w.phase with
    | .read agent mention => some (e.reissue w agent mention)
    | .waiting | .accepted | .resent => none

/-- The mention carries the session's envelope. -/
def Carried (d : Delivery) : Prop :=
  d.mentionLaunchId = some e.next.launchId ∧ d.mentionSessionId = some e.next.sessionId

instance (d : Delivery) : Decidable (e.Carried d) := inferInstanceAs (Decidable (_ ∧ _))

def envelope : MentionDeliveryEnvelope := envelopeFor e.row.messageId e.next

/-- The mention is pending with the session's envelope, and was pushed with it once. -/
def Met (w : Meeting) : Prop :=
  w.row.mentionOutcome = some .pending ∧ e.Carried w.row ∧ w.pushed.count e.envelope = 1

/-- An answer that counts a second drift against the mention, and finds it with the envelope of the
report, between the read of the re-issue and its write. -/
def Strands (w : Meeting) : Act → Prop
  | .writeAnswer reported _ =>
    (∃ agent mention, w.phase = .read agent mention) ∧
      reported.terminalCode = some identityDrift ∧ w.row.IsOpen ∧
      reportedRowWhere e.report w.agent w.row
  | _ => False

/-! ### What holds while no answer strands the mention -/

structure SameDelivery (d d' : Delivery) : Prop where
  deliveryId : d.deliveryId = d'.deliveryId
  messageId : d.messageId = d'.messageId
  workspaceId : d.workspaceId = d'.workspaceId
  agentId : d.agentId = d'.agentId

structure Good (w : Meeting) : Prop where
  same : SameDelivery w.row e.row
  pending : w.row.mentionOutcome = some .pending
  counted : w.pushed.count e.envelope = if e.Carried w.row then 1 else 0
  awake : wakeable w.agent
  onComputer : w.agent.computerId = some e.next.computerId
  current : w.phase ≠ .waiting → currentIdentity w.agent = some e.next
  answers : ∀ r ∈ w.answers, r.agent = w.agent
  read : ∀ agent mention, w.phase = .read agent mention → agent = w.agent ∧
    mention.deliveryId = e.row.deliveryId ∧ mention.messageId = e.row.messageId ∧
    (e.Carried w.row ∨ (w.row.mentionLaunchId = mention.mentionLaunchId ∧
      w.row.mentionSessionId = mention.mentionSessionId))
  resent : w.phase = .resent → e.Carried w.row

/-- The mention carries no envelope, and the re-issue looks for the one it does not carry, or is
over. -/
structure Stranded (w : Meeting) : Prop where
  unnamed : w.row.mentionLaunchId = none
  phase : (∃ agent mention, w.phase = .read agent mention ∧ mention.mentionLaunchId.isSome) ∨
    w.phase = .resent

lemma good_start : e.Good e.start where
  same := ⟨rfl, rfl, rfl, rfl⟩
  pending := e.pending
  counted := by
    have hold : ¬e.Carried e.start.row := by
      rintro ⟨hlaunch, hsession⟩
      have hlaunch' := Option.some.inj (hlaunch.symm.trans e.carried.1)
      have hsession' := Option.some.inj (hsession.symm.trans e.carried.2)
      exact e.newer ⟨hlaunch', hsession'⟩
    rw [if_neg hold]
    rfl
  awake := e.awake
  onComputer := e.onComputer
  current h := absurd rfl h
  answers _ hmem := nomatch hmem
  read _ _ hread := nomatch hread
  resent hresent := nomatch hresent

/-! ### Steps -/

variable {e} {w w' : Meeting}

lemma currentIdentity_accepted (h : e.Good w) :
    currentIdentity (e.accepted w.agent) = some e.next := by
  have hawake : wakeable (e.accepted w.agent) := h.awake
  have hlaunch : truthy (some e.next.launchId) = some e.next.launchId :=
    truthy_eq_some.mpr ⟨rfl, e.running.1⟩
  have hsession : truthy (some e.next.sessionId) = some e.next.sessionId :=
    truthy_eq_some.mpr ⟨rfl, e.running.2⟩
  rw [currentIdentity, if_pos hawake]
  simp [accepted, hlaunch, hsession, h.onComputer]

variable {d : Delivery}

lemma not_carried_of_reported (h : reportedRowWhere e.report w.agent d) : ¬e.Carried d := by
  rintro ⟨hlaunch, hsession⟩
  obtain ⟨-, -, -, -, -, hlaunch', hsession'⟩ := h
  exact e.newer ⟨Option.some.inj (hlaunch.symm.trans hlaunch'),
    Option.some.inj (hsession.symm.trans hsession')⟩

/-- An identity of the Agent that names the session's launch and session is the session's. -/
lemma eq_next_iff (h : e.Good w) {identity : MentionIdentity}
    (hidentity : currentIdentity w.agent = some identity) : identity = e.next ↔
      identity.launchId = e.next.launchId ∧ identity.sessionId = e.next.sessionId := by
  have hcomputer : identity.computerId = e.next.computerId := by
    have hon := (currentIdentity_spec hidentity).2.2.2
    exact Option.some.inj (hon.symm.trans h.onComputer)
  constructor
  · rintro rfl
    exact ⟨rfl, rfl⟩
  · rintro ⟨hlaunch, hsession⟩
    cases identity
    cases hn : e.next
    rw [hn] at hlaunch hsession hcomputer
    simp_all

variable {reported : Reported}

lemma answer_reissues (h : e.Good w) (hmem : reported ∈ w.answers) :
    answerDrift e.report.envelope reported =
      .reissue (newerIdentity e.report.envelope reported) identityDrift := by
  rw [answerDrift, if_pos]
  rw [h.answers reported hmem]
  exact h.awake

/-- The row as an answer leaves it. -/
def answered (d : Delivery) (identity : Option MentionIdentity) : Delivery :=
  { d with
    mentionOutcome := some .pending
    mentionStage := none
    mentionLaunchId := identity.map (·.launchId)
    mentionSessionId := identity.map (·.sessionId)
    mentionTerminalCode := some identityDrift
    mentionSettledAt := none }

lemma writeAnswer_eq (h : e.Good w) (hmem : reported ∈ w.answers) (now : Nat) :
    e.writeAnswer w reported now = if w.row.IsOpen ∧ reportedRowWhere e.report w.agent w.row then
        { w with
          row := answered w.row (newerIdentity e.report.envelope reported)
          pushed := ((newerIdentity e.report.envelope reported).map
            (envelopeFor e.report.envelope.messageId)).toList ++ w.pushed }
      else w := by
  simp only [writeAnswer, answer_reissues h hmem]
  unfold MentionDeliveries.writeAnswer
  split_ifs with hrow
  · cases newerIdentity e.report.envelope reported <;> rfl
  · rfl

variable {identity : Option MentionIdentity}

lemma carried_answered : e.Carried (answered d identity) ↔ ∃ i, identity = some i ∧
      i.launchId = e.next.launchId ∧ i.sessionId = e.next.sessionId := by
  cases identity with
  | none => simp [Carried, answered]
  | some i => simp [Carried, answered]

lemma count_answered (h : e.Good w) (hmessage : d.messageId = e.row.messageId)
    (hidentity : ∀ i, identity = some i → currentIdentity w.agent = some i) (hnot : ¬e.Carried w.row) :
    ((identity.map (envelopeFor d.messageId)).toList ++ w.pushed).count e.envelope =
      if e.Carried (answered d identity) then 1 else 0 := by
  have hzero : w.pushed.count e.envelope = 0 := by rw [h.counted, if_neg hnot]
  rw [List.count_append, hzero]
  cases identity with
  | none =>
    rw [if_neg (by rw [carried_answered]; exact nofun)]
    rfl
  | some i =>
    have hnext := eq_next_iff h (hidentity i rfl)
    by_cases hi : i = e.next
    · rw [if_pos (carried_answered.mpr ⟨i, rfl, hnext.mp hi⟩), hi, hmessage]
      simp [envelope]
    · have hne : envelopeFor d.messageId i ≠ e.envelope := by
        intro heq
        refine hi (hnext.mpr ⟨?_, ?_⟩)
        · exact congrArg MentionDeliveryEnvelope.launchId heq
        · exact congrArg MentionDeliveryEnvelope.sessionId heq
      rw [if_neg]
      · simp [hne]
      · rintro hcarried
        obtain ⟨j, hj, hids⟩ := carried_answered.mp hcarried
        cases hj
        exact hi (hnext.mpr hids)

lemma Good.answered (h : e.Good w) (hrow : reportedRowWhere e.report w.agent w.row)
    (hidentity : ∀ i, identity = some i → currentIdentity w.agent = some i)
    (hphase : ∀ agent mention, w.phase = .read agent mention → identity = some e.next) :
    e.Good { w with
      row := answered w.row identity
      pushed := (identity.map (envelopeFor e.report.envelope.messageId)).toList ++ w.pushed } where
  same := ⟨h.same.deliveryId, h.same.messageId, h.same.workspaceId, h.same.agentId⟩
  pending := rfl
  counted := by
    rw [← hrow.2.1]
    exact count_answered h h.same.messageId hidentity (not_carried_of_reported hrow)
  awake := h.awake
  onComputer := h.onComputer
  current := h.current
  answers := h.answers
  read agent mention hread := by
    obtain ⟨hagent, hdelivery, hmessage, -⟩ := h.read agent mention hread
    refine ⟨hagent, hdelivery, hmessage, .inl ?_⟩
    exact carried_answered.mpr ⟨e.next, hphase agent mention hread, rfl, rfl⟩
  resent hresent := absurd (h.resent hresent) (not_carried_of_reported hrow)

lemma Good.setAnswers (h : e.Good w) {answers : List Reported}
    (hanswers : ∀ r ∈ answers, r.agent = w.agent) : e.Good { w with answers := answers } :=
  ⟨h.same, h.pending, h.counted, h.awake, h.onComputer, h.current, hanswers, h.read, h.resent⟩

lemma good_writeAnswer (h : e.Good w) (hmem : reported ∈ w.answers) (now : Nat) :
    ¬e.Strands w (.writeAnswer reported now) ∧ e.Good (e.writeAnswer w reported now) ∨
      e.Strands w (.writeAnswer reported now) ∧ Stranded (e.writeAnswer w reported now) := by
  have hagent := h.answers reported hmem
  rw [writeAnswer_eq h hmem]
  by_cases hrow : w.row.IsOpen ∧ reportedRowWhere e.report w.agent w.row
  · rw [if_pos hrow]
    have hidentity : ∀ i, newerIdentity e.report.envelope reported = some i →
        currentIdentity w.agent = some i := by
      intro i hi
      rw [newerIdentity, hagent] at hi
      exact (Option.filter_eq_some_iff.mp hi).1
    by_cases hreading : ∃ agent mention, w.phase = .read agent mention
    · obtain ⟨agent, mention, hphase⟩ := hreading
      have hcurrent := h.current (by rw [hphase]; exact nofun)
      by_cases hcode : reported.terminalCode = some identityDrift
      · right
        have hnone : newerIdentity e.report.envelope reported = none := by
          simp [newerIdentity, hcode]
        refine ⟨⟨⟨agent, mention, hphase⟩, hcode, hrow⟩, ?_, .inl ⟨agent, mention, hphase, ?_⟩⟩
        · simp only [hnone]
          rfl
        · obtain ⟨-, -, -, hcarried | ⟨hlaunch, -⟩⟩ := h.read agent mention hphase
          · exact absurd hcarried (not_carried_of_reported hrow.2)
          · rw [← hlaunch, hrow.2.2.2.2.2.2.1]
            rfl
      · left
        have hsome : newerIdentity e.report.envelope reported = some e.next := by
          rw [newerIdentity, hagent, hcurrent]
          have hnew : ¬sameIdentity e.next e.report.envelope :=
            fun hsame => e.newer ⟨hsame.1, hsame.2.1⟩
          simp [hnew, hcode]
        refine ⟨fun hstrands => hcode hstrands.2.1, ?_⟩
        exact h.answered hrow.2 hidentity fun _ _ _ => hsome
    · left
      refine ⟨fun hstrands => hreading hstrands.1, ?_⟩
      exact h.answered hrow.2 hidentity fun a m hphase => absurd ⟨a, m, hphase⟩ hreading
  · rw [if_neg hrow]
    exact .inl ⟨fun hstrands => hrow hstrands.2.2, h⟩

lemma reissuePending_one (scope : AgentScope) (mention : PendingMention)
    (identity : Option MentionIdentity) (agent : MentionAgentState) (d : Delivery) :
    reissuePending scope [mention] identity agent d =
      if d.deliveryId = mention.deliveryId ∧ d.workspaceId = scope.workspaceId ∧
          (d.agentId = scope.agentId ∧ d.mentionOutcome = some .pending ∧
            d.mentionLaunchId = mention.mentionLaunchId ∧
            d.mentionSessionId = mention.mentionSessionId) ∧ wakeable agent then
        some (d.issued identity identity.isSome) else none := by
  split_ifs with hfor
  · obtain ⟨hid, hworkspace, ⟨hagent, hstill⟩, hwake⟩ := hfor
    refine setEnvelopes_eq ?_ List.mem_cons_self ⟨hid, hworkspace, ⟨hagent, hstill⟩, hwake⟩
    exact fun v hv => by rw [List.mem_singleton.mp hv]
  · cases hset : reissuePending scope [mention] identity agent d with
    | none => rfl
    | some d' =>
      obtain ⟨v, hv, hcond, -⟩ := setEnvelopes_spec hset
      obtain rfl := List.mem_singleton.mp hv
      exact absurd hcond hfor

lemma good_reissue (h : e.Good w) {agent : MentionAgentState} {mention : PendingMention}
    (hphase : w.phase = .read agent mention) : e.Good (e.reissue w agent mention) := by
  obtain ⟨rfl, hdelivery, hmessage, hcarries⟩ := h.read agent mention hphase
  have hcurrent := h.current (by rw [hphase]; exact nofun)
  have hover : e.Carried w.row → e.Good { w with phase := .resent } := fun hcarried =>
    ⟨h.same, h.pending, h.counted, h.awake, h.onComputer, fun _ => hcurrent, h.answers,
      (fun _ _ hread => nomatch hread), fun _ => hcarried⟩
  simp only [reissue]
  split_ifs with hskip
  · refine hover ?_
    rcases hskip with haway | hasleep | hissued
    · exact absurd h.onComputer haway
    · exact absurd h.awake hasleep
    · rw [hcurrent] at hissued
      rcases hcarries with hcarried | ⟨hlaunch, hsession⟩
      · exact hcarried
      · exact ⟨hlaunch.trans hissued.1, hsession.trans hissued.2⟩
  · obtain ⟨-, -, hstale⟩ : _ ∧ _ ∧ ¬issuedFor mention (currentIdentity w.agent) := by
      simpa only [not_or] using hskip
    rw [hcurrent] at hstale ⊢
    rw [reissuePending_one]
    by_cases hstill : w.row.mentionLaunchId = mention.mentionLaunchId ∧
        w.row.mentionSessionId = mention.mentionSessionId
    · have hnot : ¬e.Carried w.row := fun hcarried =>
        hstale ⟨hstill.1.symm.trans hcarried.1, hstill.2.symm.trans hcarried.2⟩
      have hzero : w.pushed.count e.envelope = 0 := by rw [h.counted, if_neg hnot]
      rw [if_pos ⟨h.same.deliveryId.trans hdelivery.symm, h.same.workspaceId,
        ⟨h.same.agentId, h.pending, hstill⟩, h.awake⟩]
      refine ⟨⟨h.same.deliveryId, h.same.messageId, h.same.workspaceId, h.same.agentId⟩, rfl, ?_,
        h.awake, h.onComputer, fun _ => hcurrent, h.answers, (fun _ _ hread => nomatch hread),
        fun _ => ⟨rfl, rfl⟩⟩
      rw [if_pos ⟨rfl, rfl⟩, List.count_append, hzero, hmessage]
      simp [envelope]
    · rw [if_neg fun hcond => hstill hcond.2.2.1.2.2]
      rcases hcarries with hcarried | hsame
      · exact hover hcarried
      · exact absurd hsame hstill

lemma good_step {act : Act} (h : e.Good w) (hstep : e.step w act = some w') :
    ¬e.Strands w act ∧ e.Good w' ∨ ¬¬e.Strands w act ∧ Stranded w' := by
  cases act with
  | readReport =>
    refine .inl ⟨id, ?_⟩
    simp only [step] at hstep
    cases hread : readReported e.report w.agent w.row with
    | none =>
      rw [hread] at hstep
      cases hstep
      exact h
    | some reported =>
      rw [hread] at hstep
      cases hstep
      rw [readReported] at hread
      split_ifs at hread
      cases hread
      refine h.setAnswers fun r hr => ?_
      rcases List.mem_cons.mp hr with rfl | hr
      · rfl
      · exact h.answers r hr
  | writeAnswer reported now =>
    simp only [step] at hstep
    split_ifs at hstep with hmem
    cases hstep
    rcases good_writeAnswer h hmem now with ⟨hgentle, hgood⟩ | ⟨hstrands, hstranded⟩
    · refine .inl ⟨hgentle, hgood.setAnswers fun r hr => ?_⟩
      have hagent : (e.writeAnswer w reported now).agent = w.agent := by
        rw [writeAnswer_eq h hmem]
        split_ifs <;> rfl
      rw [hagent]
      exact h.answers r (List.mem_of_mem_erase hr)
    · exact .inr ⟨not_not.mpr hstrands, hstranded.unnamed, hstranded.phase⟩
  | accept =>
    refine .inl ⟨id, ?_⟩
    simp only [step] at hstep
    split_ifs at hstep with hwaiting
    cases hstep
    refine ⟨h.same, h.pending, h.counted, h.awake, h.onComputer,
      fun _ => currentIdentity_accepted h, ?_, (fun _ _ hread => nomatch hread),
      fun hresent => nomatch hresent⟩
    rw [hwaiting.2]
    exact fun _ hmem => nomatch hmem
  | readPending =>
    refine .inl ⟨id, ?_⟩
    simp only [step] at hstep
    split_ifs at hstep with haccepted hpending
    · cases hstep
      have hcurrent := h.current (by rw [haccepted]; exact nofun)
      refine ⟨h.same, h.pending, h.counted, h.awake, h.onComputer, fun _ => hcurrent, h.answers,
        fun agent mention hread => ?_, fun hresent => nomatch hresent⟩
      cases hread
      exact ⟨rfl, h.same.deliveryId, h.same.messageId, .inr ⟨rfl, rfl⟩⟩
    · exact absurd h.pending hpending
  | reissue =>
    refine .inl ⟨id, ?_⟩
    simp only [step] at hstep
    split at hstep
    case h_1 agent mention hphase =>
      cases hstep
      exact good_reissue h hphase
    all_goals cases hstep

lemma stranded_step {act : Act} (h : Stranded w) (hstep : e.step w act = some w') :
    Stranded w' := by
  have hunreported : ¬reportedRowWhere e.report w.agent w.row := by
    rintro ⟨-, -, -, -, -, hlaunch, -⟩
    exact nomatch h.unnamed.symm.trans hlaunch
  have hlate : w.phase ≠ .waiting ∧ w.phase ≠ .accepted := by
    rcases h.phase with ⟨agent, mention, hphase, -⟩ | hphase
    · rw [hphase]
      exact ⟨nofun, nofun⟩
    · rw [hphase]
      exact ⟨nofun, nofun⟩
  cases act with
  | readReport =>
    simp only [step] at hstep
    rw [readReported, if_neg fun hrow => hunreported hrow.2] at hstep
    cases hstep
    exact h
  | writeAnswer reported now =>
    simp only [step] at hstep
    split_ifs at hstep
    cases hstep
    have hsame : e.writeAnswer w reported now = w := by
      simp only [writeAnswer]
      unfold MentionDeliveries.writeAnswer
      rw [if_neg fun hrow => hunreported hrow.2]
    rw [hsame]
    exact ⟨h.unnamed, h.phase⟩
  | accept =>
    simp only [step] at hstep
    rw [if_neg fun hwaiting => hlate.1 hwaiting.1] at hstep
    cases hstep
  | readPending =>
    simp only [step] at hstep
    rw [if_neg hlate.2] at hstep
    cases hstep
  | reissue =>
    simp only [step] at hstep
    rcases h.phase with ⟨agent, mention, hphase, hlaunch⟩ | hphase
    · rw [hphase] at hstep
      cases hstep
      simp only [reissue, reissuePending_one]
      split_ifs with hskip hrow
      · exact ⟨h.unnamed, .inr rfl⟩
      · rw [← hrow.2.2.1.2.2.1, h.unnamed] at hlaunch
        cases hlaunch
      · exact ⟨h.unnamed, .inr rfl⟩
    · rw [hphase] at hstep
      cases hstep

/-- When the report and the acceptance are over, the mention carries the session's envelope and was
pushed with it once, exactly if no answer that counted a second drift came between the reading and
the writing of the re-issue. -/
theorem met_iff_not_stranded (e : Encounter) {acts : List Act} {w : Meeting}
    (hrun : run e.step e.start acts = some w) (hover : w.phase = .resent) :
    e.Met w ↔ Permitted e.step (fun w act => ¬e.Strands w act) e.start acts := by
  have hgood : ∀ s act t, e.Good s → e.step s act = some t →
      ¬e.Strands s act ∧ e.Good t ∨ ¬¬e.Strands s act ∧ Stranded t := fun _ _ _ h => good_step h
  have hruined : ∀ s act t, Stranded s → e.step s act = some t → Stranded t :=
    fun _ _ _ h => stranded_step h
  rcases permitted_or_ruined hgood hruined e.good_start hrun with ⟨hpermitted, h⟩ | ⟨hnot, h⟩
  · have hcarried := h.resent hover
    refine iff_of_true ⟨h.pending, hcarried, ?_⟩ hpermitted
    rw [h.counted, if_pos hcarried]
  · refine iff_of_false (fun hmet => ?_) hnot
    exact nomatch h.unnamed.symm.trans hmet.2.1.1

/-! ### Two encounters -/

/-- A mention with the envelope of a launch that is over, and its Agent starting another one. -/
def relaunching (code : Option String) : Encounter where
  row := {
    deliveryId := "delivery"
    messageId := "message"
    workspaceId := "workspace"
    agentId := "agent"
    sequence := 1
    mentionOutcome := some .pending
    mentionTerminalCode := code
    mentionLaunchId := some "launch-a"
    mentionSessionId := some "session-a" }
  agent := {
    computerId := some "computer"
    stoppedAt := none
    deletedAt := none
    launch := some ⟨"computer", some "launch-b"⟩
    session := none }
  report := ⟨"workspace", "computer", "agent", "delivery",
    ⟨"message", "launch-a", "session-a", "computer"⟩⟩
  next := ⟨"launch-b", "session-b", "computer"⟩
  pending := rfl
  carried := ⟨rfl, rfl⟩
  awake := rfl
  onComputer := rfl
  running := ⟨by decide, by decide⟩
  newer := by decide

/-- The first drift of the mention comes between the reading and the writing. -/
theorem first_drift_met : ∃ w, run (relaunching none).step (relaunching none).start
        [.accept, .readPending, .readReport, .writeAnswer ⟨none, (relaunching none).accepted
          (relaunching none).agent⟩ 0, .reissue] = some w ∧
      ((relaunching none).Met w ↔ Permitted (relaunching none).step
        (fun w act => ¬(relaunching none).Strands w act) (relaunching none).start
        [.accept, .readPending, .readReport, .writeAnswer ⟨none, (relaunching none).accepted
          (relaunching none).agent⟩ 0, .reissue]) :=
  ⟨_, rfl, met_iff_not_stranded (relaunching none) rfl rfl⟩

/-- The second drift does, and the mention ends without an envelope, sent to nobody. -/
theorem second_drift_not_met :
    ∃ w, run (relaunching (some identityDrift)).step (relaunching (some identityDrift)).start
        [.accept, .readPending, .readReport, .writeAnswer ⟨some identityDrift,
          (relaunching none).accepted (relaunching none).agent⟩ 0, .reissue] = some w ∧
      w.phase = .resent ∧ w.row.mentionLaunchId = none ∧ w.pushed = [] ∧
      ¬(relaunching (some identityDrift)).Met w := by
  refine ⟨_, rfl, rfl, rfl, rfl, ?_⟩
  rintro ⟨-, hcarried, -⟩
  exact nomatch hcarried.1

end Encounter

end Coforge.MentionDeliveries
