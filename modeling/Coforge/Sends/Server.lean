import Coforge.Attention.Index
import Coforge.Idempotency.AtMostOnce
import Coforge.Sends.Settlement

/-!
# The send route of the server

Every copy of a request that reaches the server is handled on its own: a reconciliation reads the
record of its key, and a send is answered from the record of its key, held or refused by the
freshness plan, or persisted inside `RedisMessageRequestIdempotency.execute`. The records of all
keys are kept, each with the calls of `execute` under it, and Redis commands succeed.

`sendAgentMessage` commits the message in a transaction and only then resolves the sender it
reports, so it can throw although its message is committed. The messages committed under a key are
recorded apart from what the persist callbacks returned, and so are those whose callback threw.

Requests and answers are never taken off the wire. A copy may arrive late, more than once, or not
at all.
-/

namespace Coforge.Sends

open Idempotency (StoredValue PersistedDirectMessage MessageRequestRecord Phase)

/-! ### Requests and answers -/

/-- A request the daemon put on the wire, with the settlement it belongs to. -/
inductive Request where
  | send (call : Nat) (request : AgentMessageRequest)
  | reconcile (call : Nat) (request : AgentSendReconciliationRequest)
deriving DecidableEq

def Request.idempotencyKey : Request → String
  | .send _ request      => request.idempotencyKey
  | .reconcile _ request => request.idempotencyKey

/-- An answer of the server. One that explains nothing is kept as its status. -/
inductive Answer where
  | decided (response : AgentSendDecisionResponse)
  | reconciled (response : AgentSendReconciliationResponse)
  | refused (refusal : AgentExplainedRefusalError)
  | failed (status : Nat)
deriving DecidableEq

/-- `MessageRequestInProgressError` as the route answers it. -/
def inProgress : AgentExplainedRefusalError where
  message := "message request is already processing; retry later"
  status := 409
  code := some "MESSAGE_REQUEST_IN_PROGRESS"
  retryable := some true

/-- The answer to a reconciliation that names no key or target. -/
def malformedReconciliation : AgentExplainedRefusalError where
  message := "reconcileOnly needs target and idempotencyKey"
  status := 400
  code := none
  retryable := none

/-- An error of the handling, as the route answers it. -/
inductive Thrown where
  | refused (refusal : AgentExplainedRefusalError)
  | failed (status : Nat)
deriving DecidableEq

def Thrown.answer : Thrown → Answer
  | .refused refusal => .refused refusal
  | .failed status   => .failed status

/-- What the Agent middleware answers for anything thrown past the handler. -/
def unauthorized : Thrown := .failed 401

/-! ### The persist callback -/

/-- How the transaction of `sendAgentMessage` ends, and all that comes before it. A commit whose
acknowledgement is lost is reported as a failure. -/
inductive Transaction where
  | committed (row : PersistedDirectMessage)
  | unacknowledged (row : PersistedDirectMessage)
  | rolledBack (error : Thrown)
deriving DecidableEq

/-- The row the transaction left. -/
def Transaction.row? : Transaction → Option PersistedDirectMessage
  | .committed row | .unacknowledged row => some row
  | .rolledBack _                        => none

/-- The Agent that sends. -/
structure Sender where
  name : String
  description : String
deriving DecidableEq

/-- `agentMessageSender` of an Agent resolves its name. -/
def Sender.resolves (sender : Sender) : Bool :=
  Attention.isValidMessageSender .agent sender.name

/-- What `sendAgentMessage` returns or throws. Its sender is resolved after the transaction. -/
def sendAgentMessage (sender : Sender) : Transaction → Except Thrown PersistedDirectMessage
  | .committed row =>
    if sender.resolves then
      .ok { row with
        latestSenderKind := some "agent"
        latestSenderHandle := some sender.name
        latestSenderDescription := some sender.description }
    else .error unauthorized
  | .unacknowledged _ => .error unauthorized
  | .rolledBack error => .error error

/-! ### Handlers -/

/-- Where the handling of a request stands. A send that goes through carries what it reports, and
while `execute` is under way its owner and the error that `persist` threw. -/
inductive Handling where
  | finding
  | reporting (messageId : String)
  | planning
  | executing (owner : String) (report : SendReport) (error : Option Thrown)
  | publishing (report : SendReport) (message : PersistedDirectMessage)
  | answered
deriving DecidableEq

/-- The handling of one copy of a request. -/
structure Handler where
  request : Request
  key : String
  phase : Handling
deriving DecidableEq

structure Server where
  records : String → Idempotency.State
  committed : String → List PersistedDirectMessage
  orphaned : String → List PersistedDirectMessage
  handlers : List Handler
  answers : List (Request × Answer)

/-- A step of the handling of a request. -/
inductive Serve where
  | find
  | report (pendingMentionActions unresolvedMentionHandles : List String)
  | hold (decision : SendDecision) (heldMessages : List AgentMessage) (report : SendReport)
  | forward (owner : String) (report : SendReport)
  | throw (error : Thrown)
  | claim
  | findClaimed
  | persist (transaction : Transaction)
  | complete
  | release
  | refresh
  | settle
  | publish
deriving DecidableEq

namespace Server

def init : Server := ⟨fun _ => .init, fun _ => [], fun _ => [], [], []⟩

def setPhase (s : Server) (i : Nat) (h : Handler) (phase : Handling) : Server :=
  { s with handlers := s.handlers.set i { h with phase := phase } }

/-- The handler answers its request. -/
def respond (s : Server) (i : Nat) (h : Handler) (answer : Answer) : Server :=
  { s.setPhase i h .answered with answers := s.answers ++ [(h.request, answer)] }

/-- A command of the `execute` call under the handler's key. -/
def redis (s : Server) (key : String) (l : Idempotency.Label) : Option Server :=
  (Idempotency.step (s.records key) l).map fun record =>
    { s with records := Function.update s.records key record }

/-- A copy of a request arrives. A send without a key gets a random one. -/
def arrive (s : Server) (request : Request) (random : String) : Server :=
  let key := if request.idempotencyKey = "" then random else request.idempotencyKey
  { s with handlers := s.handlers ++ [⟨request, key, .finding⟩] }

/-- What the key's record says. -/
def record (s : Server) (key : String) : Option MessageRequestRecord :=
  (s.records key).stored.map StoredValue.record

/-- `requestRecords.find`, before anything else is decided. -/
def find (s : Server) (i : Nat) (h : Handler) : Server :=
  match h.request, s.record h.key with
  | .send _ _, some (.completed message) => s.setPhase i h (.reporting message.id)
  | .send _ _, some .processing          => s.respond i h (.refused inProgress)
  | .send _ _, none                      => s.setPhase i h .planning
  | .reconcile _ request, record =>
    if request.target = "" ∨ request.idempotencyKey = "" then
      s.respond i h (.refused malformedReconciliation)
    else
      match record with
      | some (.completed message) =>
        s.respond i h (.reconciled (.committed ⟨request.idempotencyKey, message.id⟩))
      | some .processing => s.respond i h (.refused inProgress)
      | none             => s.respond i h (.reconciled .notFound)

/-- The answer for a key that had committed. -/
def alreadyCommitted (key messageId : String) (pendingMentionActions : List String)
    (unresolvedMentionHandles : List String) : AgentSendDecisionResponse where
  idempotencyKey := key
  state := .sent
  messageId := some messageId
  heldMessages := []
  report := { SendReport.empty with
    decision := some .forward
    reason := some "already_committed"
    pendingMentionActions := pendingMentionActions
    unresolvedMentionHandles := unresolvedMentionHandles }

def heldResponse (key : String) (decision : SendDecision) (heldMessages : List AgentMessage)
    (report : SendReport) : AgentSendDecisionResponse where
  idempotencyKey := key
  state := .held
  messageId := none
  heldMessages := heldMessages
  report := { report with decision := some decision }

def sentResponse (key messageId : String) (report : SendReport) : AgentSendDecisionResponse where
  idempotencyKey := key
  state := .sent
  messageId := some messageId
  heldMessages := []
  report := report

/-- The transaction leaves its row. -/
def commit (s : Server) (key : String) (rows : List PersistedDirectMessage) : Server :=
  { s with committed := Function.update s.committed key (s.committed key ++ rows) }

/-- The callback that committed a row throws. -/
def orphan (s : Server) (key : String) (rows : List PersistedDirectMessage) : Server :=
  { s with orphaned := Function.update s.orphaned key (s.orphaned key ++ rows) }

/-- The persist callback of the handler settles, and its message is committed or not. -/
def persist (s : Server) (sender : Sender) (i : Nat) (h : Handler) (owner : String)
    (report : SendReport) (transaction : Transaction) : Option Server :=
  let rows := transaction.row?.toList
  match sendAgentMessage sender transaction with
  | .ok message  => (s.commit h.key rows).redis h.key (.persist owner (some message))
  | .error error =>
    (((s.commit h.key rows).orphan h.key rows).redis h.key (.persist owner none)).map fun s =>
      s.setPhase i h (.executing owner report (some error))

/-- `execute` returned a message or threw. -/
def settle (s : Server) (i : Nat) (h : Handler) (owner : String) (report : SendReport)
    (error : Option Thrown) : Option Server :=
  match (s.records h.key).calls owner with
  | some (.returned message) => some (s.setPhase i h (.publishing report message))
  | some .threw              => some (s.respond i h (error.getD (.refused inProgress)).answer)
  | _                        => none

/-- A step of one handler. -/
def serve (s : Server) (sender : Sender) (i : Nat) (h : Handler) : Handling → Serve → Option Server
  | .finding, .find        => some (s.find i h)
  | .finding, .throw error => some (s.respond i h error.answer)
  | .reporting messageId, .report actions handles =>
    some (s.respond i h (.decided (alreadyCommitted h.key messageId actions handles)))
  | .reporting _, .throw error => some (s.respond i h error.answer)
  | .planning, .hold decision heldMessages report =>
    some (s.respond i h (.decided (heldResponse h.key decision heldMessages report)))
  | .planning, .throw error => some (s.respond i h error.answer)
  | .planning, .forward owner report =>
    (s.redis h.key (.execute owner)).map fun s => s.setPhase i h (.executing owner report none)
  | .executing owner _ _, .claim       => s.redis h.key (.claim owner .ok)
  | .executing owner _ _, .findClaimed => s.redis h.key (.find owner .ok)
  | .executing owner report _, .persist transaction =>
    s.persist sender i h owner report transaction
  | .executing owner _ _, .complete => s.redis h.key (.complete owner .ok)
  | .executing owner _ _, .release  => s.redis h.key (.release owner .ok)
  | .executing owner _ _, .refresh  => s.redis h.key (.refresh owner .ok)
  | .executing owner report error, .settle => s.settle i h owner report error
  | .publishing report message, .publish =>
    some (s.respond i h (.decided (sentResponse h.key message.id report)))
  | .publishing _ _, .throw error => some (s.respond i h error.answer)
  | _, _ => none

def step (s : Server) (sender : Sender) (i : Nat) (l : Serve) : Option Server :=
  s.handlers[i]?.bind fun h => s.serve sender i h h.phase l

end Server

end Coforge.Sends
