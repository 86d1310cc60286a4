import Coforge.MentionDeliveries.Reports
import Mathlib

/-!
# Issuing again and sending

The operations that issue pending mentions again and then send them: the answer to a drift, the
acceptance of a session, and a daemon's ready. Each writes the envelopes first, reads the deliveries
back, pushes them, and takes back the envelopes that did not go out. How the reading and the pushes
end is the environment's.
-/

namespace Coforge.MentionDeliveries

/-! ### The table -/

/-- A conditional update, which leaves the primary key alone. -/
structure Statement where
  run : MentionAgentState → Delivery → Option Delivery
  keeps : ∀ agent d d', run agent d = some d' → d'.deliveryId = d.deliveryId

/-- The deliveries, and the Agent each foreign key names. -/
structure Database where
  deliveries : List Delivery
  agents : String → MentionAgentState
  unique : (deliveries.map (·.deliveryId)).Nodup

/-- The row a statement leaves. -/
def Statement.row (s : Statement) (agents : String → MentionAgentState) (d : Delivery) : Delivery :=
  (s.run (agents d.agentId) d).getD d

lemma Statement.row_deliveryId (s : Statement) (agents : String → MentionAgentState)
    (d : Delivery) : (s.row agents d).deliveryId = d.deliveryId := by
  rw [row]
  cases h : s.run (agents d.agentId) d with
  | none => rfl
  | some d' => exact s.keeps _ _ _ h

def Database.update (db : Database) (s : Statement) : Database where
  deliveries := db.deliveries.map (s.row db.agents)
  agents := db.agents
  unique := by
    have hids : (db.deliveries.map (s.row db.agents)).map (·.deliveryId) =
        db.deliveries.map (·.deliveryId) := by
      rw [List.map_map]
      exact List.map_congr_left fun d _ => s.row_deliveryId db.agents d
    rw [hids]
    exact db.unique

/-- The deliveries a statement changes, as its `RETURNING` names them. -/
def Database.returning (db : Database) (s : Statement) : List String :=
  db.deliveries.filterMap fun d => (s.run (db.agents d.agentId) d).map (·.deliveryId)

def Statement.reissuePending (scope : AgentScope) (mentions : List PendingMention)
    (identity : Option MentionIdentity) : Statement where
  run := MentionDeliveries.reissuePending scope mentions identity
  keeps _ _ _ h := by
    obtain ⟨v, -, -, rfl⟩ := setEnvelopes_spec h
    rfl

def Statement.writeAnswer (key : MentionDeliveryReportKey) (answer : ReportAnswer) (now : Nat) :
    Statement where
  run := MentionDeliveries.writeAnswer key answer now
  keeps agent d d' h := by
    unfold MentionDeliveries.writeAnswer at h
    split_ifs at h
    cases answer <;> cases h <;> rfl

/-! ### Sending -/

/-- How a push ends: its promise is fulfilled or rejected, or there is none because encoding the
delivery throws. -/
inductive Push where
  | sent | rejected | thrown
  deriving DecidableEq, Repr

/-- What a send meets: the deliveries that are read back, or that this fails, and how each push
ends. -/
structure Environment where
  readBack : Option (List String)
  publish : String → Push

/-- The envelope each tracked delivery of a send goes out with, or none for a wake. -/
abbrev TrackedPushes := List (String × Option MentionDeliveryEnvelope)

def TrackedPushes.envelope (tracked : TrackedPushes) (deliveryId : String) :
    Option MentionDeliveryEnvelope := (tracked.lookup deliveryId).join

structure Sending where
  db : Database
  pushed : List (String × Option MentionDeliveryEnvelope)
  failed : Bool

/-- Pushes are begun in order; the first that throws ends the send. -/
def begun (env : Environment) (deliveries : List String) : List String :=
  deliveries.takeWhile fun id => env.publish id ≠ .thrown

/-- The envelopes to take back: those of deliveries that were meant to be sent and were not. -/
def unsentMentions (tracked : TrackedPushes) (sent meant : List String) : List PendingMention :=
  meant.filterMap fun id => (tracked.envelope id).bind fun envelope =>
    if id ∈ sent then none
    else some ⟨id, envelope.messageId, some envelope.launchId, some envelope.sessionId⟩

def sendTracked (db : Database) (env : Environment) (scope : AgentScope) (select : List String)
    (tracked : TrackedPushes) (skip : List String) : Sending :=
  match env.readBack with
  | none => { db := db, pushed := [], failed := true }
  | some read =>
    let deliveries := read.filter fun id => id ∉ skip
    let sent := (begun env deliveries).filter fun id => env.publish id = .sent
    let pushed := sent.map fun id => (id, tracked.envelope id)
    if deliveries.any fun id => env.publish id = .thrown then
      { db := db, pushed := pushed, failed := true }
    else
      let unsent := unsentMentions tracked sent (select ++ deliveries).dedup
      { db := if unsent = [] then db else db.update (.reissuePending scope unsent none)
        pushed := pushed
        failed := deliveries.any fun id => env.publish id = .rejected }

/-! ### The operations -/

/-- What an operation issued with an envelope, and what became of it. -/
structure Resend where
  db : Database
  issued : List (String × MentionDeliveryEnvelope)
  pushed : List (String × Option MentionDeliveryEnvelope)
  failed : Bool

def Sending.resend (s : Sending) (issued : List (String × MentionDeliveryEnvelope)) : Resend where
  db := s.db
  issued := issued
  pushed := s.pushed
  failed := s.failed

def Database.nothing (db : Database) : Resend :=
  { db := db, issued := [], pushed := [], failed := false }

/-- `answerReported`: the answer written, if the mention carries the report's envelope. -/
def Database.answerReported (db : Database) (key : MentionDeliveryReportKey)
    (decide : Reported → ReportAnswer) (now : Nat) : Database × Option ReportAnswer :=
  match db.deliveries.findSome? fun d => readReported key (db.agents d.agentId) d with
  | none => (db, none)
  | some reported =>
    let write := Statement.writeAnswer key (decide reported) now
    (db.update write,
      if (db.returning write).length = 1 then some (decide reported) else none)

def MentionDeliveryReportKey.scope (key : MentionDeliveryReportKey) : AgentScope where
  workspaceId := key.workspaceId
  computerId := key.computerId
  agentId := key.agentId

/-- Sends the mention if the answer issued it again. -/
def sendAnswer (db : Database) (env : Environment) (key : MentionDeliveryReportKey) :
    Option ReportAnswer → Resend
  | some (.reissue (some identity) _) =>
    let envelope := envelopeFor key.envelope.messageId identity
    (sendTracked db env key.scope [key.deliveryId] [(key.deliveryId, some envelope)] []).resend
      [(key.deliveryId, envelope)]
  | some (.reissue none _) | some (.settle _) | none => db.nothing

def resendForDrift (db : Database) (env : Environment) (key : MentionDeliveryReportKey)
    (now : Nat) : Resend :=
  let (db', answer) := db.answerReported key (answerDrift key.envelope) now
  sendAnswer db' env key answer

/-- An Agent's pending tracked mentions. -/
def Database.pending (db : Database) (workspaceId agentId : String) : List PendingMention :=
  (db.deliveries.filter fun d =>
    d.workspaceId = workspaceId ∧ d.agentId = agentId ∧ d.mentionOutcome = some .pending).map
    (·.pendingMention)

structure ReissuedMentions where
  reissued : List String := []
  tracked : TrackedPushes := []
  taken : List String := []

/-- The pending mentions that went out otherwise than `identity` would issue them. -/
def staleMentions (db : Database) (scope : AgentScope) (identity : Option MentionIdentity) :
    List PendingMention :=
  (db.pending scope.workspaceId scope.agentId).filter fun mention => ¬issuedFor mention identity

/-- Issues the stale mentions for `identity`, and sorts the pending ones into those that go out as
`identity` issues them and those that another re-issue or drift answer took. -/
def Database.issueStale (db : Database) (scope : AgentScope) (identity : Option MentionIdentity) :
    Database × ReissuedMentions :=
  let mentions := db.pending scope.workspaceId scope.agentId
  let write := Statement.reissuePending scope (staleMentions db scope identity) identity
  let issued := db.returning write
  let went := mentions.filter fun mention =>
    issuedFor mention identity ∨ mention.deliveryId ∈ issued
  (db.update write, {
    reissued := if identity.isSome then issued else []
    tracked := went.map fun mention =>
      (mention.deliveryId, identity.map (envelopeFor mention.messageId))
    taken := (mentions.filter fun mention =>
      ¬(issuedFor mention identity ∨ mention.deliveryId ∈ issued)).map (·.deliveryId) })

/-- The service's `reissuePending`: issues the Agent's stale mentions for its current launch and
session, or, while it has no session yet, clears their envelopes. -/
def Database.reissueMentions (db : Database) (scope : AgentScope) : Database × ReissuedMentions :=
  let agent := db.agents scope.agentId
  if db.pending scope.workspaceId scope.agentId = [] ∨ agent.computerId ≠ some scope.computerId ∨
      ¬wakeable agent then (db, {})
  else db.issueStale scope (currentIdentity agent)

/-- The deliveries a re-issue issued just now, each with its envelope. -/
def ReissuedMentions.issued (r : ReissuedMentions) : List (String × MentionDeliveryEnvelope) :=
  r.reissued.filterMap fun id => (r.tracked.envelope id).map fun envelope => (id, envelope)

def resendForCurrentSession (db : Database) (env : Environment) (scope : AgentScope) : Resend :=
  let (db', r) := db.reissueMentions scope
  if r.reissued = [] then db'.nothing
  else (sendTracked db' env scope r.reissued r.tracked []).resend r.issued

def resendPending (db : Database) (env : Environment) (scope : AgentScope) : Resend :=
  let (db', r) := db.reissueMentions scope
  (sendTracked db' env scope r.reissued r.tracked r.taken).resend r.issued

end Coforge.MentionDeliveries
