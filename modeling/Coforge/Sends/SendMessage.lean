import Coforge.Attention.LocalHold
import Coforge.Lib.Pool
import Coforge.Sends.DraftStore

/-!
# Sending a message

`#sendAgentMessage` of the daemon's runtime, with everything it does to the draft of its target: it
looks up the draft it resends or replaces, saves its own before the request goes out, and when the
send is settled writes the draft back if the send was held, or clears it if the send was accepted
and the draft is still its own. A send that failed ambiguously looks whether the draft holds its
key.

The sends of one Agent run side by side. They share the Agent's draft file and attention index.
Other parts of the daemon may change the index at any time, and which thread was read last.
-/

namespace Coforge.Sends.Runtime

open Async
open Async.Prog (gets update)

/-! ### Mentions in a body -/

/-- The text between fences is removed. A fence that is not closed stays. -/
def dropFenced : List String → String
  | []               => ""
  | [text]           => text
  | [text, code]     => text ++ "```" ++ code
  | text :: _ :: rest => text ++ dropFenced rest

/-- The text between backticks is removed, within one line. -/
def dropInline : List String → String
  | []           => ""
  | [text]       => text
  | [text, code] => text ++ "`" ++ code
  | text :: code :: next :: rest =>
    if code.toList.contains '\n' then text ++ "`" ++ dropInline (code :: next :: rest)
    else text ++ dropInline (next :: rest)

def stripCodeSpans (body : String) : String :=
  dropInline ((dropFenced (body.splitOn "```")).splitOn "`")

/-- A character that no mention follows. -/
def beforeMention (c : Char) : Bool := c.isAlphanum || c = '_' || c = '@'

/-- The handles that follow an `@`, where a handle begins and ends like a word. -/
def mentionsAfter : Option Char → List Char → List String
  | _, []           => []
  | before, c :: rest =>
    let handle := rest.takeWhile Attention.isHandleChar
    let starts := c = '@' && !before.any beforeMention && handle.head?.any Attention.isHandleStart
    let ends := !(rest.dropWhile Attention.isHandleChar).head?.any Char.isUpper
    (if starts && ends then [String.ofList handle] else []) ++ mentionsAfter (some c) rest

def mentionsInContent (body : String) : List String :=
  mentionsAfter none (stripCodeSpans body).toList

/-! ### Preconditions -/

/-- Padded with zeros to the given width. -/
def padded (width n : Nat) : String :=
  String.ofList (List.replicate (width - (toString n).length) '0') ++ toString n

/-- `new Date(ms).toISOString()`, by the calendar that begins its years in March. -/
def toISOString (ms : Nat) : String :=
  let day := ms / 86400000 + 719468
  let rest := ms % 86400000
  let era := day / 146097
  let dayOfEra := day % 146097
  let yearOfEra := (dayOfEra - dayOfEra / 1460 + dayOfEra / 36524 - dayOfEra / 146096) / 365
  let dayOfYear := dayOfEra - (365 * yearOfEra + yearOfEra / 4 - yearOfEra / 100)
  let marchMonth := (5 * dayOfYear + 2) / 153
  let dayOfMonth := dayOfYear - (153 * marchMonth + 2) / 5 + 1
  let month := if marchMonth < 10 then marchMonth + 3 else marchMonth - 9
  let year := yearOfEra + 400 * era + (if month ≤ 2 then 1 else 0)
  (if year ≤ 9999 then padded 4 year else "+" ++ padded 6 year) ++ "-" ++ padded 2 month ++ "-" ++
    padded 2 dayOfMonth ++ "T" ++ padded 2 (rest / 3600000) ++ ":" ++
    padded 2 (rest / 60000 % 60) ++ ":" ++ padded 2 (rest / 1000 % 60) ++ "." ++
    padded 3 (rest % 1000) ++ "Z"

def silent : AgentSendVerdict := ⟨none, none, none⟩

def expiredDraftError (target content : String) (savedAt : Nat) : Failure :=
  .preflight
    ("The saved draft for this target expired and was discarded: drafts are kept for " ++
      toString (draftTtlMs / 60000) ++ " minutes, and this one was saved at " ++
      toISOString savedAt ++ ". This command did not send anything.")
    "SEND_DRAFT_EXPIRED"
    ⟨some false, some false, some <|
      "If this draft came from a failed send whose outcome was never confirmed, the original " ++
        "may already have been delivered under its idempotency key: read the target and confirm " ++
        "before resending, or you may post it twice. To send the discarded body, send it " ++
        "normally: `coforge message send --target " ++ jsonText target ++
        "` with the body on stdin."⟩
    (some ⟨content, toISOString savedAt⟩)

def draftNotFoundError (target : String) : Failure :=
  .preflight ("No saved draft for target: " ++ target) "SEND_DRAFT_NOT_FOUND" silent none

def draftIdentityError : Failure :=
  .preflight
    ("The saved draft no longer matches the expected idempotency key. No request was made and " ++
      "the current draft was left unchanged because it belongs to a different logical send.")
    "SAVED_DRAFT_IDENTITY_CHANGED"
    ⟨some false, some false, some <|
      "Review the current draft before deciding whether to send it; do not treat it as the " ++
        "earlier logical send."⟩
    none

def bodyRequiredError : Failure :=
  .preflight "Agent message body is required" "AGENT_MESSAGE_BODY_REQUIRED" silent none

def mentionError (name : String) : Failure :=
  .preflight ("Structured mention @" ++ name ++ " is not present in the message body.")
    "MENTION_NOT_IN_CONTENT" silent none

def targetConfirmationRequiredMessage (target threadTarget : String) : String :=
  String.intercalate "\n"
    ["Possible thread target mismatch: your latest read context under " ++ target ++ " is " ++
        threadTarget ++ ", but this send targets " ++ target ++ " top-level.",
      "This guard is intentionally narrow: moving a thread conclusion to the parent channel can " ++
        "be correct, but it is uncommon enough to confirm once.",
      "",
      "If this reply belongs in the thread, send the message to the thread target instead:",
      "  coforge message send --target \"" ++ threadTarget ++ "\" <<'COFORGE_MESSAGE'",
      "  message body",
      "  COFORGE_MESSAGE",
      "",
      "If the top-level channel message is intentional, send the saved draft unchanged:",
      "  coforge message send --send-draft --target \"" ++ target ++ "\"",
      "",
      "No message was sent. Send to " ++ threadTarget ++ " if this belongs in the thread, or " ++
        "confirm the saved top-level draft with `coforge message send --send-draft --target \"" ++
        target ++ "\"`."]

def targetConfirmationError (target threadTarget : String) : Failure :=
  .preflight (targetConfirmationRequiredMessage target threadTarget)
    "THREAD_CONTEXT_TARGET_CONFIRMATION_REQUIRED" ⟨none, some true, none⟩ none

/-! ### The state and the effects -/

/-- A request of the Agent's command line. -/
structure LocalAgentMessageRequest where
  idempotencyKey : String
  content : Option String
  sendDraft : Bool
  expectedDraftKey : Option String
  continueAnyway : Bool
  targetConfirmed : Bool
  freshnessContextMode : Option FreshnessContextMode
  attachmentIds : List String
  mentions : List AgentMention
deriving DecidableEq

structure SendTask where
  target : String
  request : LocalAgentMessageRequest
deriving DecidableEq

/-- The Agent whose sends these are. -/
structure AgentScope where
  agentId : String
  workspaceId : String

/-- What the sends share in memory: the attention index, and the thread under a target that was
read more recently than the target itself. The model keeps how many sends have begun, and the
target and the key of each that got as far. -/
structure Memory where
  index : Attention.Index
  latestThread : String → Option String
  begun : Nat
  sends : Nat → Option (String × String)

/-- The send reaches its key. -/
def Memory.identify (m : Memory) (call : Nat) (target idempotencyKey : String) : Memory :=
  { m with sends := Function.update m.sends call (some (target, idempotencyKey)) }

/-- Why a send looks up a draft. -/
inductive LookupPurpose where
  | resend
  | prior
  | check
deriving DecidableEq

inductive SendEffect where
  | lookup (purpose : LookupPurpose) (target : String)
  | save (target : String) (draft : AgentMessageDraftContent)
  | replace (target : String) (draft : AgentMessageDraftContent) (reholdCount : Nat)
  | clearIfIdempotencyKeyMatches (target idempotencyKey : String)
  | send (request : AgentMessageRequest)
  | reconcile (request : AgentSendReconciliationRequest)
  | turn

def SendEffect.Reply : SendEffect → Type
  | .lookup _ _                       => Except Failure AgentMessageDraftLookup
  | .save _ _                         => Except Failure Unit
  | .replace _ _ _                    => Except Failure Unit
  | .clearIfIdempotencyKeyMatches _ _ => Except Failure Bool
  | .send _                           => Except Failure AgentMessageTransportResponse
  | .reconcile _                      => Except Failure AgentSendReconciliationResponse
  | .turn                             => Unit

/-- How an effect ends. The network may answer anything. -/
inductive SendOutcome where
  | store (ending : Ending)
  | sent (reply : Except Failure AgentMessageTransportResponse)
  | reconciled (reply : Except Failure AgentSendReconciliationResponse)
  | turned

/-- The state of the sends: what they share in memory, and the draft file. -/
abbrev Shared : Type := Memory × DraftStore

def answerSend (s : Shared) : (e : SendEffect) → SendOutcome → Option (e.Reply × Shared)
  | .lookup _ target, .store ending =>
    let (reply, drafts) := s.2.lookup target ending
    some (reply, s.1, drafts)
  | .save target draft, .store ending =>
    let (reply, drafts) := s.2.writeDraft target draft 0 s.1.begun ending
    some (reply, s.1, drafts)
  | .replace target draft reholdCount, .store ending =>
    let (reply, drafts) := s.2.writeDraft target draft reholdCount s.1.begun ending
    some (reply, s.1, drafts)
  | .clearIfIdempotencyKeyMatches target idempotencyKey, .store ending =>
    let (reply, drafts) := s.2.clearIfIdempotencyKeyMatches target idempotencyKey ending
    some (reply, s.1, drafts)
  | .send _, .sent reply => some (reply, s)
  | .reconcile _, .reconciled reply => some (reply, s)
  | .turn, .turned => some ((), s)
  | _, _ => none

/-! ### The inbox -/

abbrev SendOp := Prog Memory SendEffect.Reply Failure

/-- The promise of an operation of the store settles a turn after its write. -/
def settleStore {α : Type} (reply : Except Failure α) : SendOp α := do
  let _ ← (Prog.request SendEffect.turn : SendOp Unit)
  Prog.ofExcept reply

namespace Inbox

def lookup (purpose : LookupPurpose) (target : String) : SendOp AgentMessageDraftLookup := do
  settleStore
    (← (Prog.request (SendEffect.lookup purpose target) :
      SendOp (Except Failure AgentMessageDraftLookup)))

def draft (purpose : LookupPurpose) (target : String) : SendOp (Option AgentMessageDraft) := do
  match ← lookup purpose target with
  | .found draft => return some draft
  | _            => return none

def save (target : String) (draft : AgentMessageDraftContent) : SendOp Unit := do
  settleStore (← (Prog.request (SendEffect.save target draft) : SendOp (Except Failure Unit)))

def replace (target : String) (draft : AgentMessageDraftContent) (reholdCount : Nat) :
    SendOp Unit := do
  settleStore
    (← (Prog.request (SendEffect.replace target draft reholdCount) : SendOp (Except Failure Unit)))

def clearIfIdempotencyKeyMatches (target idempotencyKey : String) : SendOp Bool := do
  settleStore (← (Prog.request (SendEffect.clearIfIdempotencyKeyMatches target idempotencyKey) :
    SendOp (Except Failure Bool)))

end Inbox

/-- The ports the runtime gives the settlement. -/
def sendPorts : AgentSendSettlementPorts Memory SendEffect.Reply where
  send request := do
    Prog.ofExcept (← (Prog.request (SendEffect.send request) :
      SendOp (Except Failure AgentMessageTransportResponse)))
  reconcile request := do
    Prog.ofExcept (← (Prog.request (SendEffect.reconcile request) :
      SendOp (Except Failure AgentSendReconciliationResponse)))
  draftHoldsKey target idempotencyKey := do
    let draft ← Inbox.draft .check target
    return draft.map (·.idempotencyKey) = some idempotencyKey

/-! ### The send -/

/-- The saved draft that is sent again, checked before anything is issued. -/
def draftToResend (task : SendTask) : SendOp AgentMessageDraft := do
  match ← Inbox.lookup .resend task.target with
  | .expired content savedAt => throw (expiredDraftError task.target content savedAt)
  | .missing                 => throw (draftNotFoundError task.target)
  | .found draft =>
    if task.request.expectedDraftKey.any (· ≠ draft.idempotencyKey) then throw draftIdentityError
    else return draft

/-- What a send starts from: its key and content, and what the draft it resends or replaces had
accounted for. -/
structure Prepared where
  draft : AgentMessageDraftContent
  draftReholdCount : Nat
  modelSeenSequence : Nat
deriving DecidableEq

/-- Every mention must be in the content. -/
def checkMentions (content : String) (mentions : List AgentMention) : SendOp Unit :=
  match mentions.find? fun mention => mention.name ∉ mentionsInContent content with
  | some mention => throw (mentionError mention.name)
  | none         => return ()

/-- What the send starts from, given the content and the draft it replaces. -/
def prepareContent (task : SendTask) (draft priorDraft : Option AgentMessageDraft)
    (idempotencyKey content : String) : SendOp Prepared := do
  let index ← gets Memory.index
  update fun m => { m with index := m.index.hydrate }
  let modelSeenSequence := index.modelSeenSequence task.target
  let seenUpToSeq := (priorDraft.bind (·.seenUpToSeq)).or
    (if 0 < modelSeenSequence then some modelSeenSequence else none)
  let attachmentIds :=
    if task.request.sendDraft then (draft.map (·.attachmentIds)).getD []
    else task.request.attachmentIds
  let mentions :=
    if task.request.sendDraft && task.request.mentions.isEmpty then
      (draft.map (·.mentions)).getD []
    else task.request.mentions
  checkMentions content mentions
  return {
    draft := {
      content := content
      attachmentIds := attachmentIds
      idempotencyKey := idempotencyKey
      mentions := mentions
      seenUpToSeq := seenUpToSeq
      seenExactSeqs := Attention.mergeSeenExactSeqs (seenUpToSeq.getD 0)
        ((priorDraft.map (·.seenExactSeqs)).getD []) (index.seenExactSequences task.target) }
    draftReholdCount := (priorDraft.map (·.reholdCount)).getD 0
    modelSeenSequence := modelSeenSequence }

/-- The key of the send is known, and with it its content. -/
def prepareFrom (call : Nat) (task : SendTask) (draft : Option AgentMessageDraft) :
    SendOp Prepared := do
  let idempotencyKey := (draft.map (·.idempotencyKey)).getD task.request.idempotencyKey
  update (Memory.identify · call task.target idempotencyKey)
  let priorDraft ←
    (if task.request.sendDraft then pure draft else Inbox.draft .prior task.target)
  match (draft.map (·.content)).or task.request.content with
  | none         => throw bodyRequiredError
  | some content => prepareContent task draft priorDraft idempotencyKey content

def prepare (call : Nat) (task : SendTask) : SendOp Prepared := do
  prepareFrom call task
    (← (if task.request.sendDraft then some <$> draftToResend task else pure none))

/-- A fresh send saves its draft, and refuses a top-level target when a thread under it was read
more recently. Its exact sequences are durable already and stay out of the draft. -/
def saveDraft (task : SendTask) (draft : AgentMessageDraftContent) : SendOp Unit := do
  if task.request.sendDraft then return ()
  else
    let latestThread ← gets (Memory.latestThread · task.target)
    let guarded := !task.request.targetConfirmed &&
      (Attention.threadRootTarget task.target).isNone
    Inbox.save task.target { draft with seenExactSeqs := [] }
    match if guarded then latestThread else none with
    | some thread => throw (targetConfirmationError task.target thread)
    | none        => return ()

/-- The answer a local hold gives in the server's place. -/
def locallyHeldSend (newMessageCount seenUpToSeq : Nat) (prepared : Prepared)
    (freshnessContextMode : Option FreshnessContextMode) (window : List AgentMessage) :
    AgentMessageTransportResponse where
  idempotencyKey := prepared.draft.idempotencyKey
  accepted := false
  attentionCount := newMessageCount
  messageId := none
  messages := window
  state := .held
  report := { SendReport.empty with
    decision := some .localHold
    reason := some "exact_target_pending"
    availableActions := ["check_messages", "send_draft", "send_anyway"]
    continueAnywaySuggested := some (decide (1 ≤ prepared.draftReholdCount))
    newMessageCount := some newMessageCount
    shownMessageCount := some window.length
    omittedMessageCount := some (newMessageCount - window.length)
    freshnessContextMode := freshnessContextMode
    seenUpToSeq := some seenUpToSeq }

/-- The newest unreviewed messages, as a hold shows them. -/
def shownWindow (index : Attention.Index) (target : String) : List AgentMessage :=
  (index.pendingWindow target Attention.heldContextLimit).map fun entry =>
    ⟨entry.delivery.messageId, entry.delivery.sequence, target, entry.delivery.body⟩

def sendRequest (scope : AgentScope) (task : SendTask) (prepared : Prepared) :
    AgentMessageRequest where
  idempotencyKey := prepared.draft.idempotencyKey
  agentId := scope.agentId
  workspaceId := scope.workspaceId
  target := task.target
  content := prepared.draft.content
  continueAnyway := task.request.continueAnyway
  draftReholdCount := prepared.draftReholdCount
  draftReplacedExisting := !task.request.sendDraft && 0 < prepared.draftReholdCount
  sendDraft := task.request.sendDraft
  seenUpToSeq := prepared.draft.seenUpToSeq
  seenExactSeqs := prepared.draft.seenExactSeqs
  freshnessContextMode := task.request.freshnessContextMode
  attachmentIds := prepared.draft.attachmentIds
  mentions := prepared.draft.mentions

/-- The send is held by the daemon, or issued and settled. -/
def holdOrSettle (scope : AgentScope) (task : SendTask) (prepared : Prepared) :
    SendOp AgentMessageTransportResponse := do
  let index ← gets Memory.index
  let plan := Attention.planAgentInboxFreshness {
    continueAnyway := task.request.continueAnyway
    modelSeenSequence := prepared.modelSeenSequence
    pendingMessageCount := index.pendingMessageCount task.target
    pendingMaxSequence := index.pendingMaxSequence task.target }
  match plan with
  | .localHold newMessageCount seenUpToSeq =>
    return locallyHeldSend newMessageCount seenUpToSeq prepared task.request.freshnessContextMode
      (shownWindow index task.target)
  | _ =>
    settleAgentSend (sendRequest scope task prepared) sendPorts
      (task.request.freshnessContextMode = some .withheld)

/-- A context that was withheld was never presented to the Agent. -/
def contextWasWithheld (task : SendTask) (result : AgentMessageTransportResponse) : Bool :=
  task.request.freshnessContextMode = some .withheld ||
    result.report.freshnessContextMode = some .withheld

/-- The held refresh: the same content, at the frontier the notice presented. -/
def heldRefresh (task : SendTask) (prepared : Prepared) (result : AgentMessageTransportResponse) :
    AgentMessageDraftContent :=
  if contextWasWithheld task result then prepared.draft
  else { prepared.draft with
    seenUpToSeq := result.report.seenUpToSeq.or prepared.draft.seenUpToSeq
    seenExactSeqs := [] }

/-- What the settled send does to the draft of its target. -/
def settleDraft (task : SendTask) (prepared : Prepared) (result : AgentMessageTransportResponse) :
    SendOp Unit := do
  if result.state = .held then
    Inbox.replace task.target (heldRefresh task prepared result) (prepared.draftReholdCount + 1)
  else if result.accepted then do
    -- only the send whose key the draft holds consumes it
    let _ ← Inbox.clearIfIdempotencyKeyMatches task.target prepared.draft.idempotencyKey
    return ()
  else return ()

/-- The newest of these messages that are of the target, and a frontier. -/
def newestOf (target : String) (frontier : Nat) (messages : List AgentMessage) : Nat :=
  (messages.filter (·.target = target)).foldl (fun newest message => max newest message.sequence)
    frontier

/-- The consume effects of the send. -/
def recordContext (task : SendTask) (result : AgentMessageTransportResponse)
    (index : Attention.Index) : Attention.Index :=
  let withheld := contextWasWithheld task result
  let held := result.state = .held
  let presented :=
    if held ∧ withheld = false then
      newestOf task.target (result.report.seenUpToSeq.getD 0) result.messages
    else 0
  let through :=
    if ¬held ∧ result.accepted then max presented (result.report.seenUpToSeq.getD 0)
    else presented
  let through := newestOf task.target through (if withheld then [] else result.report.recentUnread)
  index.recordSendContext task.target through (if 0 < presented then some presented else none)

/-- The send begins: it is the `call`-th of the Agent. -/
def sendAgentMessage (scope : AgentScope) (call : Nat) (task : SendTask) :
    SendOp AgentMessageTransportResponse := do
  update fun m => { m with begun := call + 1 }
  let prepared ← prepare call task
  saveDraft task prepared.draft
  let result ← holdOrSettle scope task prepared
  settleDraft task prepared result
  update fun m => { m with index := recordContext task result m.index }
  return result

/-! ### The system -/

/-- The clock moves, and other parts of the daemon touch the attention index. -/
inductive SendEvent where
  | clock (now : Nat)
  | attention (index : Attention.Index)
  | readThread (latestThread : String → Option String)

def sendEvent (s : Shared) : SendEvent → Shared
  | .clock now               => (s.1, { s.2 with now := now })
  | .attention index         => ({ s.1 with index := index }, s.2)
  | .readThread latestThread => ({ s.1 with latestThread := latestThread }, s.2)

/-- All sends of one Agent. -/
def sends (scope : AgentScope) :
    Pool Shared SendEvent SendTask SendOutcome SendEffect.Reply Failure where
  event s l := some (sendEvent s l)
  body call task := ((fun _ => ()) <$> sendAgentMessage scope call task).lift
  answer e o s := answerSend s e o

end Coforge.Sends.Runtime
