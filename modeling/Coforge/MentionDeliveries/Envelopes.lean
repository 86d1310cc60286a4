import Coforge.MentionDeliveries.Resends
import Mathlib

/-!
# No envelope is left that did not go out

An operation that issues mentions again writes their envelopes before it sends them, and takes back
those that did not go out: of deliveries that were not read back, and of pushes that fail. Two exits
are before that: the reading itself, and a push that throws before there is a promise to wait for.
Through these, and only these, a pending mention keeps naming an envelope that was never sent.
-/

namespace Coforge.MentionDeliveries

open List Database

/-- The operations that issue pending mentions with an envelope again. -/
inductive Reissue where
  | drift (key : MentionDeliveryReportKey) (now : Nat)
  | session (scope : AgentScope)
  | ready (scope : AgentScope)
  deriving DecidableEq, Repr

def Reissue.run (db : Database) (env : Environment) : Reissue → Resend
  | .drift key now   => resendForDrift db env key now
  | .session scope   => resendForCurrentSession db env scope
  | .ready scope     => resendPending db env scope

/-- A pending mention without an envelope: whatever launch and session the Agent has next, it is
issued for them, and an ACK without an envelope does not settle it. -/
structure Delivery.Waits (d : Delivery) : Prop where
  pending : d.mentionOutcome = some .pending
  unnamed : d.mentionLaunchId = none
  reissued : ∀ identity, ¬issuedFor d.pendingMention (some identity)
  unechoed : ∀ scope now agent, settleUnechoed scope d.deliveryId now agent d = none

/-- Each delivery that was issued with an envelope was pushed with it, or waits without one. -/
def Honest (r : Resend) : Prop :=
  ∀ id envelope, (id, envelope) ∈ r.issued →
    (id, some envelope) ∈ r.pushed ∨ ∀ d ∈ r.db.deliveries, d.deliveryId = id → d.Waits

/-- The deliveries an operation is to issue with an envelope. -/
def Reissue.due (db : Database) : Reissue → List String
  | .drift key _ =>
    match db.deliveries.findSome? fun d => readReported key (db.agents d.agentId) d with
    | some reported => if (newerIdentity key.envelope reported).isSome then [key.deliveryId] else []
    | none => []
  | .session scope | .ready scope =>
    if (db.agents scope.agentId).computerId = some scope.computerId ∧
        (currentIdentity (db.agents scope.agentId)).isSome then
      (staleMentions db scope (currentIdentity (db.agents scope.agentId))).map (·.deliveryId)
    else []

/-- The deliveries are read back, and if a push throws at the call, the pushes of all that are to
be issued were begun before it and succeed; or there is nothing to issue. -/
def GoesThrough (due : List String) (env : Environment) : Prop :=
  match env.readBack with
  | none => due = []
  | some read => (∃ id ∈ read, env.publish id = .thrown) →
      ∀ id ∈ due, id ∈ begun env read ∧ env.publish id = .sent

/-! ### Rows of the table -/

section Table

variable {db : Database} {s : Statement} {d d' : Delivery}

lemma Database.eq_of_id (hd : d ∈ db.deliveries) (hd' : d' ∈ db.deliveries)
    (h : d.deliveryId = d'.deliveryId) : d = d' :=
  inj_on_of_nodup_map db.unique hd hd' h

lemma Database.mem_update :
    d' ∈ (db.update s).deliveries ↔ ∃ d ∈ db.deliveries, s.row db.agents d = d' :=
  mem_map

lemma Database.row_of_id (hd : d ∈ db.deliveries) (hd' : d' ∈ (db.update s).deliveries)
    (h : d'.deliveryId = d.deliveryId) : d' = s.row db.agents d := by
  obtain ⟨d₀, hd₀, rfl⟩ := mem_update.mp hd'
  rw [s.row_deliveryId] at h
  rw [db.eq_of_id hd₀ hd h]

lemma Statement.row_eq (h : s.run (db.agents d.agentId) d = some d') : s.row db.agents d = d' := by
  rw [row, h]
  rfl

lemma Database.mem_returning {id : String} : id ∈ db.returning s ↔
      ∃ d ∈ db.deliveries, d.deliveryId = id ∧ (s.run (db.agents d.agentId) d).isSome := by
  simp only [returning, mem_filterMap, Option.map_eq_some_iff]
  constructor
  · rintro ⟨d, hd, d', hrun, rfl⟩
    exact ⟨d, hd, (s.keeps _ _ _ hrun).symm, by rw [hrun]; rfl⟩
  · rintro ⟨d, hd, rfl, hrun⟩
    obtain ⟨d', hd'⟩ := Option.isSome_iff_exists.mp hrun
    exact ⟨d, hd, d', hd', s.keeps _ _ _ hd'⟩

lemma Database.returning_length (hd : d ∈ db.deliveries)
    (hrun : (s.run (db.agents d.agentId) d).isSome)
    (honly : ∀ d' ∈ db.deliveries, (s.run (db.agents d'.agentId) d').isSome →
      d'.deliveryId = d.deliveryId) : (db.returning s).length = 1 := by
  have hids : ∀ id ∈ db.returning s, id = d.deliveryId := by
    intro id hid
    obtain ⟨d', hd', rfl, hrun'⟩ := mem_returning.mp hid
    exact honly d' hd' hrun'
  have hsub : (db.returning s).Sublist (db.deliveries.map (·.deliveryId)) := by
    rw [returning]
    have heq : ∀ xs : List Delivery,
        (xs.filterMap fun d => (s.run (db.agents d.agentId) d).map (·.deliveryId)).Sublist
          (xs.map (·.deliveryId)) := by
      intro xs
      induction xs with
      | nil => exact .slnil
      | cons x xs ih =>
        rw [filterMap_cons, map_cons]
        cases hx : s.run (db.agents x.agentId) x with
        | none => exact ih.cons _
        | some x' =>
          have hid := s.keeps _ _ _ hx
          simp only [Option.map_some, hid]
          exact ih.cons_cons _
    exact heq db.deliveries
  have hreplicate := eq_replicate_of_mem hids
  have hnodup := db.unique.sublist hsub
  rw [hreplicate, nodup_replicate] at hnodup
  have hmem : d.deliveryId ∈ db.returning s := mem_returning.mpr ⟨d, hd, rfl, hrun⟩
  have hpos := length_pos_of_mem hmem
  omega

end Table

/-! ### A send -/

/-- A row that carries an envelope just issued to an Agent. -/
structure Delivery.Carries (d : Delivery) (db : Database) (scope : AgentScope)
    (envelope : MentionDeliveryEnvelope) : Prop where
  mem : d ∈ db.deliveries
  pending : d.mentionOutcome = some .pending
  workspace : d.workspaceId = scope.workspaceId
  agent : d.agentId = scope.agentId
  wakeable : wakeable (db.agents d.agentId)
  launch : d.mentionLaunchId = some envelope.launchId
  session : d.mentionSessionId = some envelope.sessionId

/-- What is handed to a send as issued. -/
def Tracks (db : Database) (scope : AgentScope) (select : List String) (tracked : TrackedPushes)
    (issued : List (String × MentionDeliveryEnvelope)) : Prop :=
  ∀ id envelope, (id, envelope) ∈ issued → id ∈ select ∧ tracked.envelope id = some envelope ∧
    ∃ d : Delivery, d.deliveryId = id ∧ d.Carries db scope envelope

lemma waits_issued (d : Delivery) : (d.issued none false).Waits where
  pending := rfl
  unnamed := rfl
  reissued identity h := nomatch h.1
  unechoed scope now agent := by
    rw [settleUnechoed, if_neg]
    rintro ⟨-, -, -, -, -, hlaunch⟩
    cases hlaunch

section Send

variable {db : Database} {scope : AgentScope} {select : List String} {tracked : TrackedPushes}
  {issued : List (String × MentionDeliveryEnvelope)} {env : Environment} {id : String}
  {envelope : MentionDeliveryEnvelope}

lemma Tracks.not_waits (h : Tracks db scope select tracked issued)
    (hmem : (id, envelope) ∈ issued) : ¬∀ d ∈ db.deliveries, d.deliveryId = id → d.Waits := by
  intro hwaits
  obtain ⟨-, -, d, hid, hcarries⟩ := h id envelope hmem
  exact nomatch (hwaits d hcarries.mem hid).unnamed.symm.trans hcarries.launch

lemma Delivery.Carries.takenBack {d : Delivery} {unsent : List PendingMention}
    (hcarries : d.Carries db scope envelope)
    (hunsent : PendingMention.mk d.deliveryId envelope.messageId (some envelope.launchId)
      (some envelope.sessionId) ∈ unsent) :
    ∀ d' ∈ (db.update (.reissuePending scope unsent none)).deliveries,
      d'.deliveryId = d.deliveryId → d'.Waits := by
  intro d' hd' hid
  rw [row_of_id hcarries.mem hd' hid]
  have hrun : (Statement.reissuePending scope unsent none).run (db.agents d.agentId) d =
      some (d.issued none false) := by
    have hwrite := mem_map_of_mem
      (f := fun mention : PendingMention =>
        EnvelopeWrite.mk mention.deliveryId none (some mention)) hunsent
    have hstill : stillCarried (EnvelopeWrite.mk d.deliveryId none (some (PendingMention.mk
        d.deliveryId envelope.messageId (some envelope.launchId) (some envelope.sessionId)))) d :=
      ⟨hcarries.pending, hcarries.launch, hcarries.session⟩
    simp only [Statement.reissuePending, reissuePending]
    refine setEnvelopes_eq ?_ hwrite
      ⟨rfl, hcarries.workspace, ⟨hcarries.agent, hstill⟩, hcarries.wakeable⟩
    intro v hv
    obtain ⟨mention, -, rfl⟩ := mem_map.mp hv
    rfl
  rw [Statement.row_eq hrun]
  exact waits_issued d

/-- A send is honest about what it was handed exactly if it goes through. -/
theorem honest_sendTracked_iff (h : Tracks db scope select tracked issued) :
    Honest ((sendTracked db env scope select tracked []).resend issued) ↔
      GoesThrough (issued.map Prod.fst) env := by
  cases hread : env.readBack with
  | none =>
    simp only [GoesThrough, sendTracked, hread]
    constructor
    · intro hhonest
      rw [map_eq_nil_iff, eq_nil_iff_forall_not_mem]
      rintro ⟨id, envelope⟩ hmem
      rcases hhonest id envelope hmem with hpushed | hwaits
      · cases hpushed
      · exact h.not_waits hmem hwaits
    · intro hnil id envelope hmem
      rw [Sending.resend, map_eq_nil_iff.mp hnil] at hmem
      cases hmem
  | some read =>
    have hskip : (read.filter fun id => id ∉ ([] : List String)) = read := by simp
    simp only [GoesThrough, sendTracked, hread, hskip]
    by_cases hthrown : ∃ id ∈ read, env.publish id = .thrown
    · rw [if_pos (by simpa using hthrown)]
      have hpushed : ∀ id envelope, (id, envelope) ∈ issued →
          ((id, some envelope) ∈ (((begun env read).filter fun id => env.publish id = .sent).map
            fun id => (id, tracked.envelope id)) ↔
            id ∈ begun env read ∧ env.publish id = .sent) := by
        intro id envelope hmem
        obtain ⟨-, htracked, -⟩ := h id envelope hmem
        simp [htracked]
      constructor
      · intro hhonest _ id hid
        obtain ⟨⟨id', envelope⟩, hmem, rfl⟩ := mem_map.mp hid
        rcases hhonest _ _ hmem with hsent | hwaits
        · exact (hpushed _ _ hmem).mp hsent
        · exact absurd hwaits (h.not_waits hmem)
      · intro hthrough id envelope hmem
        have hsent := hthrough hthrown id (mem_map.mpr ⟨_, hmem, rfl⟩)
        exact .inl ((hpushed id envelope hmem).mpr hsent)
    · rw [if_neg (by simpa using hthrown)]
      refine ⟨fun _ h => absurd h hthrown, fun _ id envelope hmem => ?_⟩
      obtain ⟨hselect, htracked, d, rfl, hcarries⟩ := h id envelope hmem
      by_cases hsent : d.deliveryId ∈ (begun env read).filter fun id => env.publish id = .sent
      · refine .inl (mem_map.mpr ⟨d.deliveryId, hsent, ?_⟩)
        rw [htracked]
      · right
        have hunsent : PendingMention.mk d.deliveryId envelope.messageId (some envelope.launchId)
            (some envelope.sessionId) ∈ unsentMentions tracked
              ((begun env read).filter fun id => env.publish id = .sent) (select ++ read).dedup := by
          refine mem_filterMap.mpr ⟨d.deliveryId, ?_, ?_⟩
          · exact mem_dedup.mpr (mem_append_left _ hselect)
          · rw [htracked]
            exact if_neg hsent
        simp only [Sending.resend]
        rw [if_neg (ne_nil_of_mem hunsent)]
        exact hcarries.takenBack hunsent

end Send

/-! ### The answer to a drift -/

lemma readReported_eq_some {key : MentionDeliveryReportKey} {agent : MentionAgentState}
    {d : Delivery} {reported : Reported} : readReported key agent d = some reported ↔
      (d.IsOpen ∧ reportedRowWhere key agent d) ∧ reported = ⟨d.mentionTerminalCode, agent⟩ := by
  rw [readReported]
  split_ifs with h
  · simp [h, eq_comm]
  · simp [h]

lemma answerReported_eq {db : Database} {key : MentionDeliveryReportKey} {d : Delivery}
    (hd : d ∈ db.deliveries) (hrow : d.IsOpen ∧ reportedRowWhere key (db.agents d.agentId) d)
    (decide : Reported → ReportAnswer) (now : Nat)
    (hread : (db.deliveries.findSome? fun d => readReported key (db.agents d.agentId) d) =
      some ⟨d.mentionTerminalCode, db.agents d.agentId⟩) : db.answerReported key decide now =
      (db.update (.writeAnswer key (decide ⟨d.mentionTerminalCode, db.agents d.agentId⟩) now),
        some (decide ⟨d.mentionTerminalCode, db.agents d.agentId⟩)) := by
  simp only [answerReported, hread]
  rw [if_pos]
  refine db.returning_length hd ?_ fun d' _ hrun => ?_
  · simp only [Statement.writeAnswer]
    unfold writeAnswer
    rw [if_pos hrow]
    split <;> rfl
  · simp only [Statement.writeAnswer] at hrun
    unfold writeAnswer at hrun
    split_ifs at hrun with hrow'
    · exact hrow'.2.1.trans hrow.2.1.symm
    · cases hrun

lemma goesThrough_nil (env : Environment) : GoesThrough [] env := by
  rw [GoesThrough]
  split
  · rfl
  · exact fun _ _ h => nomatch h

lemma honest_nothing (db : Database) : Honest db.nothing := fun _ _ h => nomatch h

theorem honest_drift_iff (db : Database) (env : Environment) (key : MentionDeliveryReportKey)
    (now : Nat) : Honest (resendForDrift db env key now) ↔
      GoesThrough ((Reissue.drift key now).due db) env := by
  simp only [resendForDrift, Reissue.due]
  cases hread : db.deliveries.findSome? fun d => readReported key (db.agents d.agentId) d with
  | none =>
    simp only [answerReported, hread]
    exact iff_of_true (honest_nothing db) (goesThrough_nil env)
  | some reported =>
    obtain ⟨d, hd, hreported⟩ := exists_of_findSome?_eq_some hread
    obtain ⟨hrow, rfl⟩ := readReported_eq_some.mp hreported
    rw [answerReported_eq hd hrow _ now hread]
    cases hnewer : newerIdentity key.envelope ⟨d.mentionTerminalCode, db.agents d.agentId⟩ with
    | none =>
      simp only [hnewer]
      refine iff_of_true ?_ (goesThrough_nil env)
      cases hanswer : answerDrift key.envelope ⟨d.mentionTerminalCode, db.agents d.agentId⟩ with
      | settle result => exact honest_nothing _
      | reissue identity code =>
        rw [answerDrift, hnewer] at hanswer
        split_ifs at hanswer
        cases hanswer
        exact honest_nothing _
    | some identity =>
      have hrunning := (Option.filter_eq_some_iff.mp hnewer).1
      have hwake := (currentIdentity_spec hrunning).1
      have hanswer : answerDrift key.envelope ⟨d.mentionTerminalCode, db.agents d.agentId⟩ =
          .reissue (some identity) identityDrift := by
        rw [answerDrift, if_pos hwake, hnewer]
      simp only [hanswer, hnewer, Option.isSome_some, if_true, sendAnswer]
      have hrun : (Statement.writeAnswer key (.reissue (some identity) identityDrift) now).run
          (db.agents d.agentId) d = some { d with
            mentionOutcome := some .pending
            mentionStage := none
            mentionLaunchId := some identity.launchId
            mentionSessionId := some identity.sessionId
            mentionTerminalCode := some identityDrift
            mentionSettledAt := none } := if_pos hrow
      obtain ⟨-, hdelivery, -, hworkspace, hagent, -⟩ := hrow
      refine honest_sendTracked_iff fun id envelope hmem => ?_
      obtain ⟨rfl, rfl⟩ := Prod.mk.inj (mem_singleton.mp hmem)
      have hwritten := mem_update.mpr ⟨d, hd, Statement.row_eq hrun⟩
      refine ⟨mem_singleton_self _, by simp [TrackedPushes.envelope], _, ?_, hwritten, rfl,
        hworkspace, hagent, hwake, rfl, rfl⟩
      exact hdelivery

/-! ### An accepted session, and a daemon's ready -/

lemma lookup_map {α : Type} (f : PendingMention → α) {mentions : List PendingMention}
    {mention : PendingMention} (hmem : mention ∈ mentions)
    (hunique : ∀ m ∈ mentions, m.deliveryId = mention.deliveryId → m = mention) :
    (mentions.map fun m => (m.deliveryId, f m)).lookup mention.deliveryId = some (f mention) := by
  induction mentions with
  | nil => cases hmem
  | cons m ms ih =>
    rw [map_cons, lookup_cons]
    by_cases hm : m.deliveryId = mention.deliveryId
    · rw [hunique m mem_cons_self hm]
      simp
    · have hne : (mention.deliveryId == m.deliveryId) = false := by
        simpa using fun h : mention.deliveryId = m.deliveryId => hm h.symm
      rw [hne]
      rcases mem_cons.mp hmem with rfl | hmem
      · exact absurd rfl hm
      · exact ih hmem fun m' hm' => hunique m' (mem_cons_of_mem m hm')

section Reissue

variable {db : Database} {scope : AgentScope}

lemma Database.mem_pending {workspaceId agentId : String} {mention : PendingMention} :
    mention ∈ db.pending workspaceId agentId ↔
      ∃ d ∈ db.deliveries, (d.workspaceId = workspaceId ∧ d.agentId = agentId ∧
        d.mentionOutcome = some .pending) ∧ d.pendingMention = mention := by
  simp [pending, and_assoc]

lemma Database.pending_unique {workspaceId agentId : String} {m m' : PendingMention}
    (hm : m ∈ db.pending workspaceId agentId) (hm' : m' ∈ db.pending workspaceId agentId)
    (h : m.deliveryId = m'.deliveryId) : m = m' := by
  obtain ⟨d, hd, -, rfl⟩ := mem_pending.mp hm
  obtain ⟨d', hd', -, rfl⟩ := mem_pending.mp hm'
  rw [db.eq_of_id hd hd' h]

variable {identity : Option MentionIdentity}

lemma mem_staleMentions {d : Delivery} (hd : d ∈ db.deliveries)
    (hstale : d.pendingMention ∈ staleMentions db scope identity) :
    d.workspaceId = scope.workspaceId ∧ d.agentId = scope.agentId ∧
      d.mentionOutcome = some .pending := by
  obtain ⟨d', hd', hpending, heq⟩ := mem_pending.mp (mem_filter.mp hstale).1
  have hsame : d' = d := db.eq_of_id hd' hd (congrArg PendingMention.deliveryId heq)
  exact hsame ▸ hpending

lemma reissue_stale {d : Delivery} (hd : d ∈ db.deliveries)
    (hwake : wakeable (db.agents scope.agentId))
    (hstale : d.pendingMention ∈ staleMentions db scope identity) :
    (Statement.reissuePending scope (staleMentions db scope identity) identity).run
      (db.agents d.agentId) d = some (d.issued identity identity.isSome) := by
  obtain ⟨hworkspace, hagent, hpending⟩ := mem_staleMentions hd hstale
  have hwrite := mem_map_of_mem
    (f := fun mention : PendingMention =>
      EnvelopeWrite.mk mention.deliveryId identity (some mention)) hstale
  have hstill : stillCarried (EnvelopeWrite.mk d.deliveryId identity (some d.pendingMention)) d :=
    ⟨hpending, rfl, rfl⟩
  simp only [Statement.reissuePending, reissuePending]
  refine setEnvelopes_eq ?_ hwrite ⟨rfl, hworkspace, ⟨hagent, hstill⟩, hagent ▸ hwake⟩
  intro v hv
  obtain ⟨mention, -, rfl⟩ := mem_map.mp hv
  rfl

lemma mem_returning_reissue (hwake : wakeable (db.agents scope.agentId)) {id : String} :
    id ∈ db.returning (.reissuePending scope (staleMentions db scope identity) identity) ↔
      ∃ d ∈ db.deliveries, d.deliveryId = id ∧
        d.pendingMention ∈ staleMentions db scope identity := by
  rw [mem_returning]
  refine exists_congr fun d => and_congr_right fun hd => and_congr_right fun _ => ⟨?_, ?_⟩
  · intro hrun
    obtain ⟨d', hd'⟩ := Option.isSome_iff_exists.mp hrun
    simp only [Statement.reissuePending, reissuePending] at hd'
    obtain ⟨v, hv, ⟨hid, -⟩, -⟩ := setEnvelopes_spec hd'
    obtain ⟨mention, hmention, rfl⟩ := mem_map.mp hv
    obtain ⟨d₀, hd₀, -, rfl⟩ := mem_pending.mp (mem_filter.mp hmention).1
    rw [db.eq_of_id hd hd₀ hid]
    exact hmention
  · intro hstale
    rw [reissue_stale hd hwake hstale]
    rfl

lemma mem_returning_of_stale (hwake : wakeable (db.agents scope.agentId)) {m : PendingMention}
    (hm : m ∈ staleMentions db scope identity) : m.deliveryId ∈
      db.returning (.reissuePending scope (staleMentions db scope identity) identity) := by
  obtain ⟨d, hd, -, rfl⟩ := mem_pending.mp (mem_filter.mp hm).1
  exact (mem_returning_reissue hwake).mpr ⟨d, hd, rfl, hm⟩

lemma issueStale_went (hwake : wakeable (db.agents scope.agentId)) {m : PendingMention}
    (hm : m ∈ db.pending scope.workspaceId scope.agentId) : issuedFor m identity ∨ m.deliveryId ∈
      db.returning (.reissuePending scope (staleMentions db scope identity) identity) := by
  by_cases hissued : issuedFor m identity
  · exact .inl hissued
  · have hstale : m ∈ staleMentions db scope identity :=
      mem_filter.mpr ⟨hm, by simpa using hissued⟩
    exact .inr (mem_returning_of_stale hwake hstale)

lemma issueStale_taken (hwake : wakeable (db.agents scope.agentId)) :
    (db.issueStale scope identity).2.taken = [] := by
  simp only [issueStale, map_eq_nil_iff, filter_eq_nil_iff, decide_eq_true_eq, not_not]
  exact fun m hm => issueStale_went hwake hm

lemma issueStale_envelope (identity : Option MentionIdentity)
    (hwake : wakeable (db.agents scope.agentId)) {m : PendingMention}
    (hm : m ∈ db.pending scope.workspaceId scope.agentId) :
    (db.issueStale scope identity).2.tracked.envelope m.deliveryId =
      identity.map (envelopeFor m.messageId) := by
  simp only [issueStale, TrackedPushes.envelope]
  rw [lookup_map (fun m => identity.map (envelopeFor m.messageId)) ?_ ?_]
  · rfl
  · exact mem_filter.mpr ⟨hm, decide_eq_true (issueStale_went hwake hm)⟩
  · exact fun m' hm' hid => pending_unique (mem_filter.mp hm').1 hm hid

/-- The deliveries issued with an envelope are the stale ones, if there is an identity to issue
them for. -/
lemma mem_issueStale_issued (hwake : wakeable (db.agents scope.agentId)) {id : String}
    {envelope : MentionDeliveryEnvelope} :
    (id, envelope) ∈ (db.issueStale scope identity).2.issued ↔
      ∃ i, identity = some i ∧ ∃ d ∈ db.deliveries, d.deliveryId = id ∧
        d.pendingMention ∈ staleMentions db scope identity ∧
        envelope = envelopeFor d.messageId i := by
  simp only [ReissuedMentions.issued, mem_filterMap, Option.map_eq_some_iff, Prod.mk.injEq]
  constructor
  · rintro ⟨id, hid, envelope, henvelope, rfl, rfl⟩
    cases identity with
    | none => cases hid
    | some i =>
      obtain ⟨d, hd, rfl, hstale⟩ := (mem_returning_reissue hwake).mp hid
      have hpending := issueStale_envelope (some i) hwake (mem_filter.mp hstale).1
      exact ⟨i, rfl, d, hd, rfl, hstale, Option.some.inj (henvelope.symm.trans hpending)⟩
  · rintro ⟨i, rfl, d, hd, rfl, hstale, rfl⟩
    refine ⟨d.deliveryId, (mem_returning_reissue hwake).mpr ⟨d, hd, rfl, hstale⟩, _, ?_, rfl, rfl⟩
    exact issueStale_envelope _ hwake (mem_filter.mp hstale).1

lemma issueStale_tracks (hwake : wakeable (db.agents scope.agentId)) :
    Tracks (db.issueStale scope identity).1 scope (db.issueStale scope identity).2.reissued
      (db.issueStale scope identity).2.tracked (db.issueStale scope identity).2.issued := by
  intro id envelope hmem
  obtain ⟨i, rfl, d, hd, rfl, hstale, rfl⟩ := (mem_issueStale_issued hwake).mp hmem
  obtain ⟨hworkspace, hagent, -⟩ := mem_staleMentions hd hstale
  have hwritten := mem_update.mpr ⟨d, hd, Statement.row_eq (reissue_stale hd hwake hstale)⟩
  refine ⟨(mem_returning_reissue hwake).mpr ⟨d, hd, rfl, hstale⟩,
    issueStale_envelope _ hwake (mem_filter.mp hstale).1, d.issued (some i) true, rfl, hwritten,
    rfl, hworkspace, hagent, hagent ▸ hwake, rfl, rfl⟩

/-- What a re-issue hands to the send: nothing that another took, and as issued what was due. -/
lemma reissueMentions_spec : (db.reissueMentions scope).2.taken = [] ∧
      Tracks (db.reissueMentions scope).1 scope (db.reissueMentions scope).2.reissued
        (db.reissueMentions scope).2.tracked (db.reissueMentions scope).2.issued ∧
      ∀ id, id ∈ (db.reissueMentions scope).2.issued.map Prod.fst ↔
        id ∈ (Reissue.session scope).due db := by
  simp only [reissueMentions, Reissue.due]
  by_cases hidle : db.pending scope.workspaceId scope.agentId = [] ∨
      (db.agents scope.agentId).computerId ≠ some scope.computerId ∨
        ¬wakeable (db.agents scope.agentId)
  · rw [if_pos hidle]
    have htracks : Tracks db scope [] [] [] := fun id envelope h => nomatch h
    refine ⟨rfl, htracks, fun id => iff_of_false nofun ?_⟩
    split_ifs with hrunning
    · obtain ⟨hcomputer, hidentity⟩ := hrunning
      obtain ⟨identity, hidentity⟩ := Option.isSome_iff_exists.mp hidentity
      rcases hidle with hnone | haway | hasleep
      · rw [staleMentions, hnone]
        exact nofun
      · exact absurd hcomputer haway
      · exact absurd (currentIdentity_spec hidentity).1 hasleep
    · exact nofun
  · rw [if_neg hidle]
    simp only [not_or, not_not] at hidle
    obtain ⟨-, hcomputer, hwake⟩ := hidle
    refine ⟨issueStale_taken hwake, issueStale_tracks hwake, fun id => ?_⟩
    constructor
    · intro hid
      obtain ⟨⟨id, envelope⟩, hmem, rfl⟩ := mem_map.mp hid
      obtain ⟨i, hi, d, hd, rfl, hstale, -⟩ := (mem_issueStale_issued hwake).mp hmem
      rw [if_pos ⟨hcomputer, by rw [hi]; rfl⟩]
      exact mem_map.mpr ⟨_, hstale, rfl⟩
    · intro hid
      split_ifs at hid with hrunning
      · obtain ⟨i, hi⟩ := Option.isSome_iff_exists.mp hrunning.2
        obtain ⟨m, hm, rfl⟩ := mem_map.mp hid
        obtain ⟨d, hd, -, rfl⟩ := mem_pending.mp (mem_filter.mp hm).1
        exact mem_map.mpr ⟨_, (mem_issueStale_issued hwake).mpr ⟨i, hi, d, hd, rfl, hm, rfl⟩, rfl⟩
      · cases hid

end Reissue

lemma goesThrough_congr {due due' : List String} (h : ∀ id, id ∈ due ↔ id ∈ due')
    (env : Environment) : GoesThrough due env ↔ GoesThrough due' env := by
  simp only [GoesThrough]
  cases env.readBack with
  | none => simp only [eq_nil_iff_forall_not_mem, h]
  | some read => simp only [h]

/-- After an operation that issues mentions again, each delivery it issued with an envelope was
pushed with it or waits without one, exactly if the operation goes through: the deliveries are read
back, and if a push throws at the call, all that were to be issued are already on their way. -/
theorem honest_iff_goesThrough (op : Reissue) (db : Database) (env : Environment) :
    Honest (op.run db env) ↔ GoesThrough (op.due db) env := by
  cases op with
  | drift key now => exact honest_drift_iff db env key now
  | session scope =>
    obtain ⟨-, htracks, hdue⟩ := @reissueMentions_spec db scope
    rw [← goesThrough_congr hdue]
    simp only [Reissue.run, resendForCurrentSession]
    split_ifs with hnone
    · have hissued : (db.reissueMentions scope).2.issued = [] := by
        rw [ReissuedMentions.issued, hnone]
        rfl
      rw [hissued]
      exact iff_of_true (honest_nothing _) (goesThrough_nil env)
    · exact honest_sendTracked_iff htracks
  | ready scope =>
    obtain ⟨htaken, htracks, hdue⟩ := @reissueMentions_spec db scope
    have hready : (Reissue.ready scope).due db = (Reissue.session scope).due db := rfl
    rw [hready, ← goesThrough_congr hdue]
    simp only [Reissue.run, resendPending, htaken]
    exact honest_sendTracked_iff htracks

/-! ### A reading that fails -/

/-- A mention that went out for the Agent's last launch, and the Agent running another one. -/
def relaunched : Database where
  deliveries := [{
    deliveryId := "delivery"
    messageId := "message"
    workspaceId := "workspace"
    agentId := "agent"
    sequence := 1
    mentionOutcome := some .pending
    mentionLaunchId := some "launch-a"
    mentionSessionId := some "session-a" }]
  agents _ := {
    computerId := some "computer"
    stoppedAt := none
    deletedAt := none
    launch := some ⟨"computer", some "launch-b"⟩
    session := some ⟨"computer", some "session-b"⟩ }
  unique := by decide

/-- The session of the new launch is accepted, and the deliveries cannot be read back: the mention
keeps naming an envelope that nobody was sent. -/
theorem unread_keeps_envelope :
    ¬ Honest ((Reissue.session ⟨"workspace", "computer", "agent"⟩).run relaunched
      ⟨none, fun _ => .sent⟩) := by
  intro h
  rcases h "delivery" ⟨"message", "launch-b", "session-b", "computer"⟩ (by decide) with hsent | hwaits
  · exact absurd hsent (by decide)
  · have hlaunch := (hwaits { relaunched.deliveries.head (by decide) with
      mentionLaunchId := some "launch-b"
      mentionSessionId := some "session-b" } (by decide) (by decide)).unnamed
    exact absurd hlaunch (by decide)

end Coforge.MentionDeliveries
