import Coforge.Attention.Index
import Coforge.Lib.Run

/-!
# Notices and recovery

A delivery is recorded in the index and announced to the Agent's session. The session answers a
notice later, and until then the call that sent it waits, so the other operations of the index
run in between. `World` is the index with the bookkeeping of its current generation, the notices
sent so far and the calls that wait for one. A `Label` is one uninterrupted stretch: the start of
an operation, the answer to a notice, or what a waiting call does next.

A recovery takes a copy of the attention before it waits, and writes the copy back afterwards.
-/

namespace Coforge.Attention

open Transition

def rememberedDeliveries : Nat := 4096

/-- The members of a set of ids in the order they were added, as the source's sets keep them. -/
def insertId (ids : List String) (id : String) : List String :=
  if id ∈ ids then ids else ids ++ [id]

/-- What the index remembers of an Agent's deliveries until the Agent is cleared. An attempt is
the place of a notice among all notices. -/
structure Generation where
  id : Nat
  seenDeliveryIds : List String
  seenMessageIds : List String
  notified : List String
  notificationAttempts : List (String × Nat)
deriving DecidableEq

namespace Generation

def new (id : Nat) : Generation := ⟨id, [], [], [], []⟩

def attempt (g : Generation) (deliveryId : String) : Option Nat :=
  (g.notificationAttempts.find? fun a => a.1 = deliveryId).map Prod.snd

def forgetAttempt (g : Generation) (deliveryId : String) : Generation :=
  { g with notificationAttempts := g.notificationAttempts.filter fun a => a.1 ≠ deliveryId }

def setAttempt (g : Generation) (deliveryId : String) (notice : Nat) : Generation :=
  { g with notificationAttempts := (g.forgetAttempt deliveryId).notificationAttempts ++
      [(deliveryId, notice)] }

def addNotified (g : Generation) (deliveryId : String) : Generation :=
  { g with notified := insertId g.notified deliveryId }

/-- The oldest delivery gives way to a new one. -/
def evictDelivery (g : Generation) : Generation :=
  match g.seenDeliveryIds with
  | [] => g
  | oldest :: rest =>
    if rememberedDeliveries ≤ g.seenDeliveryIds.length then
      { g.forgetAttempt oldest with
        seenDeliveryIds := rest
        notified := g.notified.filter (· ≠ oldest) }
    else g

def remember (g : Generation) (deliveryId : String) (messageId : Option String) : Generation :=
  let g := g.evictDelivery
  let g := { g with seenDeliveryIds := insertId g.seenDeliveryIds deliveryId }
  match messageId with
  | none => g
  | some messageId =>
    let seen := if rememberedDeliveries ≤ g.seenMessageIds.length then g.seenMessageIds.tail
      else g.seenMessageIds
    { g with seenMessageIds := insertId seen messageId }

end Generation

/-! ### What is under way -/

/-- A notice written to the session: the deliveries it announces, the one it is registered under,
and the session's answer once there is one. -/
structure Notice where
  generation : Nat
  lead : String
  announced : List String
  accepted : Option Bool
deriving DecidableEq

/-- A call that waits for a notice. -/
inductive Waiting where
  | receive (message : Delivery)
  | announce (message : Delivery)
  | flush (settled : List String)
deriving DecidableEq

structure Call where
  waiting : Waiting
  generation : Nat
  notice : Nat
deriving DecidableEq

/-- A message a restarted Agent has not read, as the server reports it. -/
structure RecoveryMessage where
  messageId : String
  deliveryId : String
  conversationId : String
  body : String
  target : Target
  sequence : Nat
  latestSenderKind : MessageSenderKind
  latestSenderHandle : String
  nonMemberMention : Bool
deriving DecidableEq

/-- A recovery that waits for the session: the attention it started from, and the messages it
brings. -/
structure Recovery where
  generation : Nat
  currentAttention : Target → Option MessageAttention
  messages : List RecoveryMessage

/-- The attention of a target with one more message the server reports. -/
def recoverAttention (byTarget : Target → Option MessageAttention) (message : RecoveryMessage) :
    Target → Option MessageAttention :=
  let previous := byTarget message.target
  let current : MessageAttention := {
    target := message.target
    pendingCount := (previous.map MessageAttention.pendingCount).getD 0 + 1
    firstPendingSequence :=
      min ((previous.map MessageAttention.firstPendingSequence).getD message.sequence)
        message.sequence
    latestSequence := max ((previous.map MessageAttention.latestSequence).getD 0) message.sequence
    latestSender := some (message.latestSenderKind, message.latestSenderHandle)
    flags := Index.attentionFlags message.target message.nonMemberMention previous }
  fun t => if t = message.target then some current else byTarget t

/-- The attention a recovery writes: what it started from, with its messages. -/
def Recovery.byTarget (r : Recovery) : Target → Option MessageAttention :=
  r.messages.foldl recoverAttention r.currentAttention

/-- What a call did to the outside. -/
inductive Effect where
  | acknowledged (deliveryId : String)
  | enqueued (message : Delivery)
deriving DecidableEq

structure World where
  workspaceId : String
  index : Index
  generation : Option Generation
  generations : Nat
  notices : List Notice
  calls : List (Option Call)
  recoveries : List (Option Recovery)
  effects : List Effect

namespace World

def init (workspaceId : String) (durable : Option ConsumedSeqState) : World :=
  ⟨workspaceId, .init durable, none, 0, [], [], [], []⟩

/-- The Agent's generation, made on first use. -/
def current (w : World) : Generation := w.generation.getD (.new w.generations)

/-- Writes the current generation back. -/
def withGeneration (w : World) (g : Generation) : World :=
  { w with
    generation := some g
    generations := if w.generation.isSome then w.generations else w.generations + 1 }

def isCurrent (w : World) (generation : Nat) : Bool :=
  w.generation.any fun g => g.id = generation

def emit (w : World) (e : Effect) : World := { w with effects := w.effects ++ [e] }

def acknowledge (w : World) (message : Delivery) : World :=
  w.emit (.acknowledged message.deliveryId)

/-- Holds a delivery for a later notice: the daemon has it, so it is acknowledged now. -/
def holdDelivery (w : World) (message : Delivery) : World :=
  (w.emit (.enqueued message)).acknowledge message

/-! ### Notices -/

/-- Writes a notice to the session, registered under its lead delivery. -/
def notify (w : World) (lead : String) (announced : List String) : World :=
  let g := w.current
  { w.withGeneration (g.setAttempt lead w.notices.length) with
    notices := w.notices ++ [⟨g.id, lead, announced, none⟩] }

/-- A call waits for a notice. -/
def await (w : World) (waiting : Waiting) (notice : Nat) : World :=
  { w with calls := w.calls ++ [some ⟨waiting, w.current.id, notice⟩] }

/-- Writes a notice and waits for it, if there is a session to write it to. -/
def notifyAndAwait (w : World) (session : Bool) (lead : String) (announced : List String)
    (waiting : Waiting) : World :=
  if session then (w.notify lead announced).await waiting w.notices.length else w

/-- A delivery that was seen before and that no accepted notice led: joins the notice under way,
or writes a new one. -/
def announceAgain (w : World) (session : Bool) (message : Delivery) (waiting : Waiting) : World :=
  match w.current.attempt message.deliveryId with
  | some notice => w.await waiting notice
  | none        => w.notifyAndAwait session message.deliveryId [message.deliveryId] waiting

/-! ### Deliveries -/

def hydrate (w : World) : World := { w with index := w.index.hydrate }

def recordAttention (w : World) (message : Delivery) (now : Nat) : World :=
  { w with index := w.index.recordAttention message now }

def hasSeen (w : World) (target : Target) (sequence : Nat) : Bool :=
  w.index.hasSeen target sequence

/-- Remembers a delivery, and records it unless the Agent has consumed it. -/
def rememberDelivery (w : World) (message : Delivery) : World :=
  w.withGeneration (w.current.remember message.deliveryId none)

/-- `receive`, up to its await. `hold` is the queue's decision to hold what is not announced. -/
def receive (w : World) (message : Delivery) (hold session : Bool) (now : Nat) : World :=
  if message.workspaceId ≠ w.workspaceId || !hasDeliveryScope message then w
  else
    let w := w.withGeneration w.current
    if message.deliveryId ∈ w.current.seenDeliveryIds then
      if message.deliveryId ∈ w.current.notified then w.acknowledge message
      else if hold then w.holdDelivery message
      else w.announceAgain session message (.receive message)
    else
      let w := (w.rememberDelivery message).hydrate
      if w.hasSeen message.target message.sequence then w.acknowledge message
      else
        let w := w.recordAttention message now
        if hold then w.holdDelivery message
        else w.notifyAndAwait session message.deliveryId [message.deliveryId] (.receive message)

/-- `announce`, up to its await. -/
def announce (w : World) (message : Delivery) (session : Bool) (now : Nat) : World :=
  if message.workspaceId ≠ w.workspaceId || !hasDeliveryScope message then w
  else
    let w := w.withGeneration w.current
    if message.deliveryId ∈ w.current.seenDeliveryIds then
      if message.deliveryId ∈ w.current.notified then w
      else w.announceAgain session message (.announce message)
    else
      let w := (w.rememberDelivery message).recordAttention message now
      w.notifyAndAwait session message.deliveryId [message.deliveryId] (.announce message)

/-- One delivery of a flush: whether it is announced, and whether it is recorded first. -/
def flushOne (now : Nat) (r : World × List String) (message : Delivery) : World × List String :=
  let (w, announced) := r
  if message.deliveryId ∈ w.current.seenDeliveryIds then (w, announced ++ [message.deliveryId])
  else
    let w := (w.rememberDelivery message).hydrate
    if w.hasSeen message.target message.sequence then (w, announced)
    else (w.recordAttention message now, announced ++ [message.deliveryId])

/-- Every delivery of a flush counts as announced. -/
def settleFlush (w : World) (settled : List String) : World :=
  w.withGeneration (settled.foldl Generation.addNotified w.current)

/-- `flush`, up to its await. -/
def flush (w : World) (held : List Delivery) (session : Bool) (now : Nat) : World :=
  if held = [] then w
  else
    let settled := held.filter hasDeliveryScope
    let (w, announced) := settled.foldl (flushOne now) (w.withGeneration w.current, [])
    let ids := settled.map Delivery.deliveryId
    match announced.getLast? with
    | none      => w.settleFlush ids
    | some lead => w.notifyAndAwait session lead announced (.flush ids)

/-- The session answers a notice. An accepted one marks its lead delivery. -/
def answer (w : World) (i : Nat) (accepted : Bool) : Option World :=
  match w.notices[i]? with
  | none => none
  | some notice =>
    if notice.accepted.isSome then none
    else
      let w' := { w with notices := w.notices.set i { notice with accepted := some accepted } }
      some (if accepted && w.isCurrent notice.generation then
        w'.withGeneration (w'.current.addNotified notice.lead) else w')

/-- An answered notice is no attempt any more. -/
def forget (w : World) (i : Nat) : Option World :=
  match w.notices[i]? with
  | none => none
  | some notice =>
    if notice.accepted.isNone then none
    else some (if w.isCurrent notice.generation then
      w.withGeneration (w.current.forgetAttempt notice.lead) else w)

/-- A call whose notice was answered goes on to its end. -/
def resume (w : World) (i : Nat) : Option World :=
  match w.calls[i]?.join with
  | none => none
  | some call =>
    match w.notices[call.notice]?.bind Notice.accepted with
    | none => none
    | some accepted =>
      let w := { w with calls := w.calls.set i none }
      some (if accepted && w.isCurrent call.generation then
        match call.waiting with
        | .receive message => w.acknowledge message
        | .announce _      => w
        | .flush settled   => w.settleFlush settled
      else w)

/-! ### Recovery -/

def isRecoveryMessage (message : RecoveryMessage) : Bool :=
  message.messageId ≠ "" && message.deliveryId ≠ "" && message.conversationId ≠ "" &&
    message.body ≠ "" &&
    (message.target.startsWith "@" || isChannelMessageTarget message.target) &&
    1 ≤ message.sequence &&
    isValidMessageSender message.latestSenderKind message.latestSenderHandle

/-- The targets a recovery only reports a count of. -/
def summaryOnly (messages : List RecoveryMessage) (unreadSummary : List (Target × Nat)) :
    List (Target × Nat) :=
  unreadSummary.filter fun entry =>
    !(messages.any fun message => message.target = entry.1) &&
      (entry.1.startsWith "@" || isChannelMessageTarget entry.1) && 0 < entry.2

/-- `recover`, up to its await, on the messages in the order it sorts them. -/
def recover (w : World) (messages : List RecoveryMessage) (unreadSummary : List (Target × Nat))
    (session : Bool) : World :=
  let w := w.withGeneration w.current
  if !session || !messages.all isRecoveryMessage then w
  else
    let recovered := messages.filter fun message =>
      message.deliveryId ∉ w.current.seenDeliveryIds && message.messageId ∉ w.current.seenMessageIds
    if recovered = [] && summaryOnly messages unreadSummary = [] then w
    else { w with
      recoveries := w.recoveries ++
        [some ⟨w.current.id, w.index.attention, recovered⟩] }

/-- A recovered message is remembered as announced and becomes pending. -/
def recordRecovered (w : World) (message : RecoveryMessage) : World :=
  let s := w.index.recordConversation message.target message.conversationId
  let u := s.unreviewed message.target
  { w.withGeneration ((w.current.remember message.deliveryId (some message.messageId)).addNotified
      message.deliveryId) with
    index := s.withUnreviewed message.target
      { u with pendingSequences := some (insert message.sequence u.pending) } }

/-- The attention of every target replaced. -/
def withAttention (w : World) (byTarget : Target → Option MessageAttention) : World :=
  { w with index := { w.index with
      unreviewed := fun t => { w.index.unreviewed t with attention := byTarget t } } }

/-- The session answers a recovery's notice. -/
def answerRecovery (w : World) (i : Nat) (accepted : Bool) : Option World :=
  match w.recoveries[i]?.join with
  | none => none
  | some r =>
    let w := { w with recoveries := w.recoveries.set i none }
    some (if accepted && w.isCurrent r.generation then
      r.messages.foldl recordRecovered (w.withAttention r.byTarget) else w)

end World

/-! ### Steps -/

/-- The bookkeeping of reads and sends, and the clears: they do not wait. -/
inductive Bookkeeping where
  | look
  | recordModelSeen (target : Target) (sequence : Nat)
  | recordReadContext (target : Target) (sequence : Nat)
  | recordExactSeen (shown : List (Target × List Nat))
  | recordHistoryRead (read : Index.HistoryRead)
  | recordSendContext (target : Target) (through : Nat) (review : Option Nat)
  | recordTargetAlias (spelling canonical : Target)
  | clear (target : Target)
  | clearThrough (target : Target) (sequence : Nat)
  | clearTargets (targets : List Target)
  | disk (fails : Bool)

def Bookkeeping.apply : Bookkeeping → Index → Index
  | .look, s                                   => s.hydrate
  | .recordModelSeen target sequence, s        => s.recordModelSeen target sequence
  | .recordReadContext target sequence, s      => s.recordReadContext target sequence
  | .recordExactSeen shown, s                  => s.recordExactSeen shown
  | .recordHistoryRead read, s                 => s.recordHistoryRead read
  | .recordSendContext target through review, s => s.recordSendContext target through review
  | .recordTargetAlias spelling canonical, s   => s.recordTargetAlias spelling canonical
  | .clear target, s                           => s.clear target
  | .clearThrough target sequence, s           => s.clearThrough target sequence
  | .clearTargets targets, s                   => s.clearTargets targets
  | .disk fails, s                             => { s with diskFails := fails }

inductive Label where
  | receive (message : Delivery) (hold session : Bool) (now : Nat)
  | announce (message : Delivery) (session : Bool) (now : Nat)
  | flush (held : List Delivery) (session : Bool) (now : Nat)
  | recover (messages : List RecoveryMessage) (unreadSummary : List (Target × Nat))
      (session : Bool)
  | answer (notice : Nat) (accepted : Bool)
  | forget (notice : Nat)
  | resume (call : Nat)
  | answerRecovery (recovery : Nat) (accepted : Bool)
  | bookkeeping (b : Bookkeeping)
  | clearAgent

def step (w : World) : Label → Option World
  | .receive message hold session now        => some (w.receive message hold session now)
  | .announce message session now            => some (w.announce message session now)
  | .flush held session now                  => some (w.flush held session now)
  | .recover messages unreadSummary session  => some (w.recover messages unreadSummary session)
  | .answer notice accepted                  => w.answer notice accepted
  | .forget notice                           => w.forget notice
  | .resume call                             => w.resume call
  | .answerRecovery recovery accepted        => w.answerRecovery recovery accepted
  | .bookkeeping b                           => some { w with index := b.apply w.index }
  | .clearAgent                              =>
    some { w with index := w.index.clearAgent, generation := none }

end Coforge.Attention
