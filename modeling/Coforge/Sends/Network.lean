import Coforge.Lib.Pool
import Coforge.Sends.Server

/-!
# The daemon and the server over a network

The settlements of the daemon are calls of a pool. Each issues its requests through its ports and
waits for their answers, while copies of the requests arrive at the server and are handled there.
A request that waits is given some answer to it that the server wrote, however late, or fails in
the transport.

For each settlement the journal holds what it sent, and where a reconciliation told it that its
key is absent, and the results hold what it returned or threw.
-/

namespace Coforge.Sends

open Async
open Async.Prog (update)

/-- An entry of a settlement's journal. -/
inductive Note where
  | sent (request : AgentMessageRequest)
  | absent (request : AgentSendReconciliationRequest)
deriving DecidableEq

structure World where
  requests : List Request
  server : Server
  journal : Nat → List Note
  results : Nat → Option (Except Failure AgentMessageTransportResponse)

namespace World

def init : World := ⟨[], .init, fun _ => [], fun _ => none⟩

/-- A request goes out. -/
def put (w : World) (request : Request) : World :=
  { w with requests := w.requests ++ [request] }

def note (w : World) (call : Nat) (entry : Note) : World :=
  { w with journal := Function.update w.journal call (w.journal call ++ [entry]) }

def record (w : World) (call : Nat) (result : Except Failure AgentMessageTransportResponse) :
    World :=
  { w with results := Function.update w.results call (some result) }

end World

/-! ### The transport of the daemon -/

inductive Effect where
  | send (call : Nat) (request : AgentMessageRequest)
  | reconcile (call : Nat) (request : AgentSendReconciliationRequest)
  | draftHoldsKey (target idempotencyKey : String)

def Effect.Reply : Effect → Type
  | .send _ _          => Except Failure AgentMessageTransportResponse
  | .reconcile _ _     => Except Failure AgentSendReconciliationResponse
  | .draftHoldsKey _ _ => Except Failure Bool

/-- How an effect ends: with the `n`-th answer of the server, with a failure of the transport,
with any other error, or with what the draft says. -/
inductive Outcome where
  | received (n : Nat)
  | lost (error : AgentTransportError)
  | threw (message : String)
  | draft (holds : Bool)
deriving DecidableEq

def upstreamHttpResponse (status : Nat) : Failure :=
  .transport ⟨.upstreamHttpResponse, some status⟩

/-- An answer of another shape than the request asks for. -/
def protocolMismatch : Failure := .transport ⟨.protocolMismatch, some 200⟩

/-- `AgentExplainedRefusalError.fromResponse`: a 4xx can explain a refusal, but never a 401. -/
def explained (refusal : AgentExplainedRefusalError) : Failure :=
  if 400 ≤ refusal.status ∧ refusal.status < 500 ∧ refusal.status ≠ 401 then .refusal refusal
  else upstreamHttpResponse refusal.status

/-- An answer as the send call reads it. -/
def Answer.readSend : Answer → Except Failure AgentMessageTransportResponse
  | .decided response => .ok (adaptAgentSendResponse response)
  | .reconciled _     => .error protocolMismatch
  | .refused refusal  => .error (explained refusal)
  | .failed status    => .error (upstreamHttpResponse status)

/-- An answer as the reconciliation reads it. -/
def Answer.readReconciliation : Answer → Except Failure AgentSendReconciliationResponse
  | .reconciled response => .ok response
  | .decided _           => .error protocolMismatch
  | .refused refusal     => .error (explained refusal)
  | .failed status       => .error (upstreamHttpResponse status)

/-- The `n`-th answer, if it is one to this request. -/
def Server.answerTo (s : Server) (request : Request) (n : Nat) : Option Answer :=
  s.answers[n]?.bind fun (asked, answer) => if asked = request then some answer else none

def answer (w : World) : (e : Effect) → Outcome → Option (e.Reply × World)
  | .send call request, .received n =>
    (w.server.answerTo (.send call request) n).map fun a => (a.readSend, w)
  | .send _ _, .lost error => some (.error (.transport error), w)
  | .send _ _, .threw message => some (.error (.other message), w)
  | .reconcile call request, .received n =>
    (w.server.answerTo (.reconcile call request) n).map fun a => (a.readReconciliation, w)
  | .reconcile _ _, .lost error => some (.error (.transport error), w)
  | .reconcile _ _, .threw message => some (.error (.other message), w)
  | .draftHoldsKey _ _, .draft holds => some (.ok holds, w)
  | .draftHoldsKey _ _, .threw message => some (.error (.other message), w)
  | _, _ => none

/-! ### The settlements -/

abbrev Op := Prog World Effect.Reply Failure

def transportSend (call : Nat) (request : AgentMessageRequest) :
    Op (Except Failure AgentMessageTransportResponse) :=
  Prog.request (Effect.send call request)

def transportReconcile (call : Nat) (request : AgentSendReconciliationRequest) :
    Op (Except Failure AgentSendReconciliationResponse) :=
  Prog.request (Effect.reconcile call request)

def lookDraft (target idempotencyKey : String) : Op (Except Failure Bool) :=
  Prog.request (Effect.draftHoldsKey target idempotencyKey)

def ports (call : Nat) : AgentSendSettlementPorts World Effect.Reply where
  send request := do
    update fun w => (w.put (.send call request)).note call (.sent request)
    Prog.ofExcept (← transportSend call request)
  reconcile request := do
    update (World.put · (.reconcile call request))
    let response ← Prog.ofExcept (← transportReconcile call request)
    (if response = .notFound then update (World.note · call (.absent request)) else pure ())
    return response
  draftHoldsKey target idempotencyKey := do
    Prog.ofExcept (← lookDraft target idempotencyKey)

structure Task where
  send : AgentMessageRequest
  reviewerIsolation : Bool
deriving DecidableEq

def settlement (call : Nat) (task : Task) : Op Unit := do
  let result ← (settleAgentSend task.send (ports call) task.reviewerIsolation).result
  update (World.record · call result)

/-! ### The system -/

/-- A copy of the `n`-th request arrives, or a handler makes a step. -/
inductive Event where
  | arrive (n : Nat) (random : String)
  | serve (i : Nat) (step : Serve)
deriving DecidableEq

def event (sender : Sender) (w : World) : Event → Option World
  | .arrive n random =>
    w.requests[n]?.map fun request => { w with server := w.server.arrive request random }
  | .serve i l => (w.server.step sender i l).map fun server => { w with server := server }

/-- All sends of one Agent, with the server that handles them. -/
def network (sender : Sender) : Pool World Event Task Outcome Effect.Reply Failure where
  event := event sender
  body := settlement
  answer e o w := answer w e o

end Coforge.Sends
