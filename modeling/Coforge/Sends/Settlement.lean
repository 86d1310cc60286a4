import Coforge.Lib.Prog

/-!
# Settling a send

`settleAgentSend` issues one send of the daemon and settles an ambiguous outcome by the send's
idempotency key: it asks the server whether the key committed, and replays the send once, under
the same key, when the server knows nothing of it. What it needs of the daemon are three ports,
so the settlement is a program over any state that offers them.
-/

namespace Coforge.Sends

open Async

/-! ### Requests and responses -/

inductive FreshnessContextMode where
  | inline
  | withheld
deriving DecidableEq

structure AgentMention where
  type : String
  id : String
  name : String
deriving DecidableEq

/-- The request of a send, as the daemon hands it to its transport. -/
structure AgentMessageRequest where
  idempotencyKey : String
  agentId : String
  workspaceId : String
  target : String
  content : String
  continueAnyway : Bool
  draftReholdCount : Nat
  draftReplacedExisting : Bool
  sendDraft : Bool
  seenUpToSeq : Option Nat
  seenExactSeqs : List Nat
  freshnessContextMode : Option FreshnessContextMode
  attachmentIds : List String
  mentions : List AgentMention
deriving DecidableEq

structure AgentSendReconciliationRequest where
  idempotencyKey : String
  agentId : String
  workspaceId : String
  target : String
deriving DecidableEq

structure AgentSendCommittedResponse where
  idempotencyKey : String
  messageId : String
deriving DecidableEq

inductive AgentSendReconciliationResponse where
  | committed (response : AgentSendCommittedResponse)
  | notFound
deriving DecidableEq

/-- A message a response shows. -/
structure AgentMessage where
  id : String
  sequence : Nat
  target : String
  body : String
deriving DecidableEq

inductive SendState where
  | sent
  | held
  | committed
deriving DecidableEq

inductive SendDecision where
  | forward
  | bypass
  | localHold
  | syncingHold
deriving DecidableEq

/-- What a response to a send tells the daemon about the decision behind it. -/
structure SendReport where
  decision : Option SendDecision
  reason : Option String
  producerFactId : Option String
  availableActions : List String
  continueAnywaySuggested : Option Bool
  newMessageCount : Option Nat
  shownMessageCount : Option Nat
  omittedMessageCount : Option Nat
  freshnessContextMode : Option FreshnessContextMode
  withheldMessageCount : Option Nat
  seenUpToSeq : Option Nat
  recentUnread : List AgentMessage
  pendingMentionActions : List String
  unresolvedMentionHandles : List String
deriving DecidableEq

def SendReport.empty : SendReport :=
  ⟨none, none, none, [], none, none, none, none, none, none, none, [], [], []⟩

/-- The server's answer to a send. -/
structure AgentSendDecisionResponse where
  idempotencyKey : String
  state : SendState
  messageId : Option String
  heldMessages : List AgentMessage
  report : SendReport
deriving DecidableEq

/-- A response as the runtime reads it. -/
structure AgentMessageTransportResponse where
  idempotencyKey : String
  accepted : Bool
  attentionCount : Nat
  messageId : Option String
  messages : List AgentMessage
  state : SendState
  report : SendReport
deriving DecidableEq

def adaptAgentSendResponse (response : AgentSendDecisionResponse) :
    AgentMessageTransportResponse where
  idempotencyKey := response.idempotencyKey
  accepted := response.state = .sent
  attentionCount := response.heldMessages.length
  messageId := response.messageId
  messages := response.heldMessages
  state := response.state
  report := response.report

/-- A send confirmed by reconciliation: accepted, with its message id and no receipt. -/
def adaptAgentSendCommittedResponse (response : AgentSendCommittedResponse) :
    AgentMessageTransportResponse where
  idempotencyKey := response.idempotencyKey
  accepted := true
  attentionCount := 0
  messageId := some response.messageId
  messages := []
  state := .committed
  report := .empty

/-! ### Failures -/

inductive FailureClass where
  | preResponseTransport
  | upstreamHttpResponse
  | midResponseTransport
  | protocolMismatch
deriving DecidableEq

structure AgentTransportError where
  failureClass : FailureClass
  upstreamStatus : Option Nat
deriving DecidableEq

structure AgentExplainedRefusalError where
  message : String
  status : Nat
  code : Option String
  retryable : Option Bool
deriving DecidableEq

structure AgentSendVerdict where
  retryable : Option Bool
  draftSaved : Option Bool
  suggestedNextAction : Option String
deriving DecidableEq

/-- The body of an expired draft, handed back, and when it was saved. -/
structure DiscardedDraft where
  content : String
  savedAt : String
deriving DecidableEq

/-- What a send can throw. -/
inductive Failure where
  | transport (error : AgentTransportError)
  | refusal (error : AgentExplainedRefusalError)
  | verdict (message : String) (cause : Failure) (verdict : AgentSendVerdict)
  | preflight (message code : String) (verdict : AgentSendVerdict)
      (discarded : Option DiscardedDraft)
  | other (message : String)
deriving DecidableEq

/-- The request may have reached the server without its answer reaching the daemon. -/
def isAmbiguousSendFailure : Failure → Bool
  | .transport error =>
    error.failureClass = .preResponseTransport || error.upstreamStatus.any (500 ≤ ·)
  | _ => false

/-- The server refused the request because an earlier one with its key is still working. -/
def isStillProcessing : Failure → Bool
  | .refusal error => error.code = some "MESSAGE_REQUEST_IN_PROGRESS"
  | _              => false

/-! ### Verdicts -/

/-- What the target's draft says about the send's key. -/
inductive DraftKeyCheck where
  | holds
  | replaced
  | unchecked
deriving DecidableEq

def hexDigit (n : Nat) : Char := (Nat.toDigits 16 n).headD '0'

/-- A character as `JSON.stringify` writes it. -/
def jsonEscape (c : Char) : List Char :=
  if c.toNat = 0x22 then ['\\', c]
  else if c.toNat = 0x5c then ['\\', c]
  else if c.toNat = 0x08 then ['\\', 'b']
  else if c.toNat = 0x0c then ['\\', 'f']
  else if c.toNat = 0x0a then ['\\', 'n']
  else if c.toNat = 0x0d then ['\\', 'r']
  else if c.toNat = 0x09 then ['\\', 't']
  else if c.toNat < 0x20 then
    ['\\', 'u', '0', '0', hexDigit (c.toNat / 16), hexDigit (c.toNat % 16)]
  else [c]

/-- `JSON.stringify` of a text. -/
def jsonText (text : String) : String :=
  "\"" ++ String.ofList (text.toList.flatMap jsonEscape) ++ "\""

def notRetryableReason (draftCheck : DraftKeyCheck) : String :=
  if draftCheck = .replaced then
    "The target's draft no longer holds this send's key — any draft there now belongs to a " ++
      "different send — so this send cannot be retried safely."
  else
    "The target's draft could not be checked, so whether a retry would reuse this send's key is " ++
      "unknown — it is treated as not holding it, and this send cannot be retried safely."

/-- The facts a verdict is worded from. -/
structure VerdictDetails where
  idempotencyKey : String
  target : String
  draftCheck : DraftKeyCheck
  reviewerIsolation : Bool

/-- The command that sends the draft again, as long as it holds the key. -/
def VerdictDetails.resend (details : VerdictDetails) : String :=
  "coforge message send" ++ (if details.reviewerIsolation then " --reviewer-isolation" else "") ++
    " --send-draft --expected-draft-key " ++ jsonText details.idempotencyKey ++ " --target " ++
    jsonText details.target

/-- A verdict under which nothing may be sent again, and one under which the draft may. -/
def AgentSendVerdict.final (suggestedNextAction : String) : AgentSendVerdict :=
  ⟨some false, some false, some suggestedNextAction⟩

@[inherit_doc AgentSendVerdict.final]
def AgentSendVerdict.resendable (suggestedNextAction : String) : AgentSendVerdict :=
  ⟨some true, some true, some suggestedNextAction⟩

def stillProcessingVerdict (details : VerdictDetails) : AgentSendVerdict :=
  if details.draftCheck ≠ .holds then
    .final <|
      "Delivery is UNKNOWN: an earlier request with this send's idempotency key is still being " ++
        "processed, so this message may still be delivered. " ++
        notRetryableReason details.draftCheck ++
        " The state is CANNOT_CONFIRM and not retryable: " ++
        "do not resend, and do not write it again as a new send. To look for it, run " ++
        "`coforge message read --target " ++ jsonText details.target ++ "`: a matching message " ++
        "is not proof that this send committed, and not seeing it proves nothing yet. Wait, or " ++
        "ask a person."
  else
    .resendable <|
      "An earlier request with this send's idempotency key is still being processed, so this " ++
        "message may still be delivered. Do not write it again as a new send. Wait a moment, " ++
        "then run `" ++ details.resend ++ "`: it " ++
        "reuses the same key, so it cannot create a second message, and it refuses if another " ++
        "send replaced the draft."

def replayVerdict (details : VerdictDetails) : AgentSendVerdict :=
  if details.draftCheck ≠ .holds then
    .final <|
      "Delivery is still UNKNOWN: the server reported this send's idempotency key absent, and " ++
        "the same-key replay then failed. " ++ notRetryableReason details.draftCheck ++
        " The state is CANNOT_CONFIRM and not retryable: do not resend on this evidence."
  else
    .resendable <|
      "Delivery is still UNKNOWN: the server reported this send's idempotency key absent, and " ++
        "the same-key replay then failed. The saved draft keeps that key, so retrying it cannot " ++
        "create a second message: `" ++ details.resend ++ "`. " ++
        "The command checks the key again before sending anything and refuses if another send " ++
        "replaced the draft."

/-! ### The settlement -/

/-- What settling one send needs: the send and reconcile calls, and whether the target's draft
still holds a given key. -/
structure AgentSendSettlementPorts (σ : Type) {E : Type} (R : E → Type) where
  send : AgentMessageRequest → Prog σ R Failure AgentMessageTransportResponse
  reconcile : AgentSendReconciliationRequest → Prog σ R Failure AgentSendReconciliationResponse
  draftHoldsKey : String → String → Prog σ R Failure Bool

variable {σ E : Type} {R : E → Type}

/-- Whether the target's draft still holds the send's key, or why that could not be told. -/
def checkDraftKey (send : AgentMessageRequest) (ports : AgentSendSettlementPorts σ R) :
    Prog σ R Failure DraftKeyCheck := do
  match ← (ports.draftHoldsKey send.target send.idempotencyKey).result with
  | .ok true  => return .holds
  | .ok false => return .replaced
  | .error _  => return .unchecked

def AgentMessageRequest.details (send : AgentMessageRequest) (draftCheck : DraftKeyCheck)
    (reviewerIsolation : Bool) : VerdictDetails :=
  ⟨send.idempotencyKey, send.target, draftCheck, reviewerIsolation⟩

def AgentMessageRequest.reconciliation (send : AgentMessageRequest) :
    AgentSendReconciliationRequest :=
  ⟨send.idempotencyKey, send.agentId, send.workspaceId, send.target⟩

/-- The replay of a send the server knows nothing of. -/
def replaySend (send : AgentMessageRequest) (ports : AgentSendSettlementPorts σ R)
    (reviewerIsolation : Bool) : Prog σ R Failure AgentMessageTransportResponse := do
  match ← (ports.send send).result with
  | .ok response => return response
  | .error replayFailure =>
    let draftCheck ← checkDraftKey send ports
    throw (.verdict "the send's same-key replay failed after reconciliation found no commit"
      replayFailure (replayVerdict (send.details draftCheck reviewerIsolation)))

/-- The settlement of an ambiguous failure. -/
def reconcileSend (send : AgentMessageRequest) (ports : AgentSendSettlementPorts σ R)
    (reviewerIsolation : Bool) (failure : Failure) :
    Prog σ R Failure AgentMessageTransportResponse := do
  match ← (ports.reconcile send.reconciliation).result with
  | .error _                  => throw failure
  | .ok (.committed response) => return adaptAgentSendCommittedResponse response
  | .ok .notFound             => replaySend send ports reviewerIsolation

def settleAgentSend (send : AgentMessageRequest) (ports : AgentSendSettlementPorts σ R)
    (reviewerIsolation : Bool) : Prog σ R Failure AgentMessageTransportResponse := do
  match ← (ports.send send).result with
  | .ok response => return response
  | .error error =>
    if isStillProcessing error then do
      let draftCheck ← checkDraftKey send ports
      throw (.verdict "an earlier request with the send's key is still being processed" error
        (stillProcessingVerdict (send.details draftCheck reviewerIsolation)))
    else if isAmbiguousSendFailure error then
      reconcileSend send ports reviewerIsolation error
    else throw error

/-! ### Rules -/

section Rules

variable {c : Prog.Context σ R} {s : σ} {send : AgentMessageRequest}
  {ports : AgentSendSettlementPorts σ R} {reviewerIsolation : Bool}

lemma wp_checkDraftKey {Q : Except Failure DraftKeyCheck → σ → Prop}
    (h : Prog.wp c (ports.draftHoldsKey send.target send.idempotencyKey)
      (fun _ t => ∀ check, Q (.ok check) t) s) : Prog.wp c (checkDraftKey send ports) Q s := by
  refine Prog.wp_bind.mpr (Prog.wp_result.mpr (Prog.wp_mono ?_ h))
  intro r t ht
  rcases r with e | _ | _ <;> exact ht _

variable {Q : Except Failure AgentMessageTransportResponse → σ → Prop}

lemma wp_replaySend (h : Prog.wp c (ports.send send) (Prog.either (fun response => Q (.ok response))
      fun replayFailure => Prog.wp c (ports.draftHoldsKey send.target send.idempotencyKey)
        fun _ t => ∀ message verdict, Q (.error (.verdict message replayFailure verdict)) t) s) :
    Prog.wp c (replaySend send ports reviewerIsolation) Q s := by
  refine Prog.wp_bind.mpr (Prog.wp_result.mpr (Prog.wp_mono ?_ h))
  intro r t ht
  cases r with
  | ok response => exact ht
  | error replayFailure =>
    refine Prog.wp_bind.mpr (wp_checkDraftKey (Prog.wp_mono ?_ ht))
    exact fun _ u hu check => hu _ _

lemma wp_reconcileSend {failure : Failure}
    (h : Prog.wp c (ports.reconcile send.reconciliation) (Prog.either
      (fun
        | .committed response => Q (.ok (adaptAgentSendCommittedResponse response))
        | .notFound           => Prog.wp c (replaySend send ports reviewerIsolation) Q)
      fun _ => Q (.error failure)) s) :
    Prog.wp c (reconcileSend send ports reviewerIsolation failure) Q s := by
  refine Prog.wp_bind.mpr (Prog.wp_result.mpr (Prog.wp_mono ?_ h))
  intro r t ht
  rcases r with e | _ | _ <;> exact ht

/-- The settlement reduces to its first send, and to what follows each way it can fail. -/
lemma wp_settleAgentSend
    (h : Prog.wp c (ports.send send) (Prog.either (fun response => Q (.ok response))
      fun error t =>
        (isStillProcessing error → Prog.wp c
          (ports.draftHoldsKey send.target send.idempotencyKey)
          (fun _ t => ∀ message verdict, Q (.error (.verdict message error verdict)) t) t) ∧
        (isAmbiguousSendFailure error →
          Prog.wp c (reconcileSend send ports reviewerIsolation error) Q t) ∧
        Q (.error error) t) s) :
    Prog.wp c (settleAgentSend send ports reviewerIsolation) Q s := by
  refine Prog.wp_bind.mpr (Prog.wp_result.mpr (Prog.wp_mono ?_ h))
  intro r t ht
  cases r with
  | ok response => exact ht
  | error error =>
    obtain ⟨hstill, hambiguous, hthrown⟩ := ht
    by_cases hs : isStillProcessing error
    · simp only [Prog.either_ok, hs, if_true]
      refine Prog.wp_bind.mpr (wp_checkDraftKey (Prog.wp_mono ?_ (hstill hs)))
      exact fun _ u hu check => hu _ _
    · by_cases ha : isAmbiguousSendFailure error
      · simp only [Prog.either_ok, hs, ha, if_true]
        exact hambiguous ha
      · simp only [Prog.either_ok, hs, ha]
        exact hthrown

end Rules

end Coforge.Sends
