import Coforge.Lib.Run
import Coforge.Lib.Trace
import Coforge.Mentions.Tracker

/-!
# The tracker among its calls

The operations of the tracker, each up to its next await, over what its ports read of the Agents:
the process that runs, its turns, the notices its session accepted, and what the Agent consumed. A
call that waits with something left to do is listed with the rest of it. A notice that is written
notes the turn it is written in, and the trace lists reports, acceptances, ends of turns and what
was issued; both are kept for the statements only.
-/

namespace Coforge.Mentions

/-- A notice of a delivery: the process it was written to, and the turn it was written in. -/
structure Notice where
  generation : Nat
  turn : Option Nat
deriving DecidableEq

/-- A delivery whose notice a session accepted, the turn the notice was written in, and whether the
tracker was told since that it never reached the model. -/
structure Told where
  deliveryId : String
  turn : Option Nat
  lost : Bool
deriving DecidableEq

/-- What the ports read of an Agent. `told` is about the current session. -/
structure Session where
  running : Option RunningMentionIdentity
  generation : Nat
  turn : Nat
  busy : Bool
  blocked : Option MentionDeliveryBlock
  told : List Told

/-- No process ran yet. -/
def Session.none : Session := ⟨.none, 0, 0, false, .none, []⟩

/-- The turn in progress. -/
def Session.inTurn (session : Session) : Option Nat :=
  if session.busy then some session.turn else .none

def Session.notice (session : Session) : Notice := ⟨session.generation, session.inTurn⟩

/-- Whether a turn is the one in progress. -/
def Session.During (session : Session) (turn : Option Nat) : Prop :=
  session.busy = true ∧ turn = some session.turn

instance (session : Session) (turn : Option Nat) : Decidable (session.During turn) :=
  inferInstanceAs (Decidable (_ ∧ _))

/-- What happened. -/
inductive Happening where
  | issued (deliveryId : String)
  | transition (scope : Scope) (stage : MentionDeliveryStage)
      (outcome : MentionDeliveryTransitionOutcome)
  | acknowledged (message : TrackedMentionDelivery)
  | terminalError (scope : Scope) (code : MentionDeliveryTerminalCode)
  | consumed (agentId messageId : String)
  | accepted (agentId deliveryId : String) (turn : Option Nat)
  | turnEnded (agentId : String) (turn : Nat)
  | flagged (agentId deliveryId : String)
  | redelivered (agentId deliveryId : String)
deriving DecidableEq

/-- A call that waits, and what it is left with: `deliver` for its notice, the two others for a
report. -/
inductive Waiting where
  | deliver (message : TrackedMentionDelivery) (busy : Bool) (notice : Notice)
  | settleTurnEnd (rest : List String)
  | settleRedelivery (agentId : String) (rest : List String) (accepted : Bool)
deriving DecidableEq

structure World where
  computerId : String
  tracker : Tracker
  agents : String → Session
  /-- The messages an Agent consumed. -/
  cursor : List (String × String)
  calls : List Waiting
  trace : List Happening

namespace World

def note (w : World) (event : Happening) : World := { w with trace := event :: w.trace }

def await (w : World) (call : Waiting) : World := { w with calls := w.calls ++ [call] }

def set (w : World) (message : TrackedMentionDelivery) (state : TrackedState) : World :=
  { w with tracker := w.tracker.set message state }

/-! ### The ports -/

def consumed (w : World) (message : TrackedMentionDelivery) : Bool :=
  (message.agentId, message.messageId) ∈ w.cursor

def told (w : World) (message : TrackedMentionDelivery) : Bool :=
  (w.agents message.agentId).told.any fun entry => entry.deliveryId = message.deliveryId

def transition (w : World) (message : TrackedMentionDelivery) (stage : MentionDeliveryStage)
    (outcome : MentionDeliveryTransitionOutcome) : World :=
  w.note (.transition message.scope stage outcome)

/-! ### Settling a mention -/

def refuse (w : World) (message : TrackedMentionDelivery) (code : MentionDeliveryTerminalCode) :
    World :=
  { w with tracker := w.tracker.forget message.deliveryId }.note
    (.terminalError message.scope code)

def markPending (w : World) (message : TrackedMentionDelivery) : World :=
  (w.set message .pending).transition message .daemonPending .accepted

def drain (w : World) (message : TrackedMentionDelivery) : World :=
  let w :=
    if (w.tracker.get? message.deliveryId).any fun tracked => tracked.state = .drained then w
    else (w.set message .drained).transition message .daemonDrained .accepted
  w.note (.acknowledged message)

/-! ### Delivering -/

/-- Already told in the current session. -/
def settleTold (w : World) (message : TrackedMentionDelivery) : World :=
  if (w.agents message.agentId).busy then w.markPending message else w.drain message

/-- `deliver` from where the mention is received, up to its notice. -/
def tell (w : World) (message : TrackedMentionDelivery) : World :=
  let w := (w.set message .received).transition message .daemonReceived .accepted
  let session := w.agents message.agentId
  if w.told message then w.settleTold message
  else
    match session.blocked with
    | some blocked => w.refuse message (blockedCodes blocked)
    | none => w.await (.deliver message session.busy session.notice)

def deliver (w : World) (message : TrackedMentionDelivery) : World :=
  if w.consumed message then w.drain message
  else
    match (w.agents message.agentId).running with
    | none => w.refuse message .identityUnknown
    | some running =>
      if !namesLaunch running message.mentionDelivery then w.refuse message .identityDrift
      else
        match w.tracker.get? message.deliveryId with
        | none => w.tell message
        | some existing =>
          if existing.message.agentId ≠ message.agentId ∨
              existing.message.messageId ≠ message.messageId then
            w.refuse message .instrumentFailed
          else if existing.state = .drained then
            { w with tracker := w.tracker.amend existing message }.note (.acknowledged message)
          else if namesLaunch existing.message.mentionDelivery.identity message.mentionDelivery then
            { w with tracker := w.tracker.amend existing message }.transition message
              .daemonPending .coalesced
          else w.tell message

/-- How an announce ends. -/
inductive Announced where
  | told
  | gone
  | rejected
deriving DecidableEq

/-- `deliver` from the end of its announce. -/
def announced (w : World) (message : TrackedMentionDelivery) (busy : Bool) : Announced → World
  | .rejected => w.refuse message .deliveryRejected
  | .gone =>
    if !w.tracker.receiving message then w
    else
      match (w.agents message.agentId).running with
      | none => w.refuse message .deliveryRejected
      | some now =>
        w.refuse message
          (if !namesLaunch now message.mentionDelivery then .identityDrift else .deliveryRejected)
  | .told =>
    if !w.tracker.receiving message then w
    else if busy then w.markPending message
    else w.drain message

def dropMention (w : World) (message : TrackedMentionDelivery)
    (code : MentionDeliveryTerminalCode) : World :=
  if w.consumed message then w.drain message else w.refuse message code

/-! ### Ends of turns and redeliveries -/

/-- The mention that the loop over what was pending comes to next: one that is forgotten or whose
notice is to be delivered again is passed over. -/
def nextSettled (T : Tracker) : List String → Option (Tracked × List String)
  | [] => none
  | deliveryId :: rest =>
    match T.get? deliveryId with
    | none => nextSettled T rest
    | some tracked => if tracked.undelivered then nextSettled T rest else some (tracked, rest)

/-- The loop of `settleTurnEnd`, up to its next await. -/
def settleTurnEnd (w : World) (pending : List String) : World :=
  match nextSettled w.tracker pending with
  | none => w
  | some (tracked, rest) =>
    let message := tracked.message
    let w :=
      if w.told message || w.consumed message then w.drain message
      else w.refuse message .deliveryRejected
    w.await (.settleTurnEnd rest)

/-- The mention that the loop over redelivered ones comes to next. -/
def nextRedelivered (T : Tracker) (agentId : String) : List String → Option (Tracked × List String)
  | [] => none
  | deliveryId :: rest =>
    match T.get? deliveryId with
    | none => nextRedelivered T agentId rest
    | some tracked =>
      if tracked.message.agentId ≠ agentId ∨ !tracked.undelivered then
        nextRedelivered T agentId rest
      else some (tracked, rest)

/-- The loop of `settleRedelivery`, up to its next await. -/
def settleRedelivery (w : World) (agentId : String) (deliveryIds : List String)
    (accepted : Bool) : World :=
  match nextRedelivered w.tracker agentId deliveryIds with
  | none => w
  | some (tracked, rest) =>
    let w :=
      if accepted then w.drain tracked.message else w.refuse tracked.message .deliveryRejected
    w.await (.settleRedelivery agentId rest accepted)

/-! ### What the Agents do -/

def updateAgent (w : World) (agentId : String) (f : Session → Session) : World :=
  { w with agents := Function.update w.agents agentId (f (w.agents agentId)) }

/-- The session of an Agent accepts a notice of a delivery. -/
def accept (w : World) (agentId deliveryId : String) (turn : Option Nat) : World :=
  (w.updateAgent agentId fun session =>
    { session with told := ⟨deliveryId, turn, false⟩ :: session.told }).note
      (.accepted agentId deliveryId turn)

def lose (deliveryId : String) (session : Session) : Session :=
  { session with told := session.told.map fun entry =>
      if entry.deliveryId = deliveryId then { entry with lost := true } else entry }

/-- The tracker hears that a notice of the delivery never reached the model. -/
def markUndelivered (w : World) (agentId deliveryId : String) : World :=
  if w.tracker.flags agentId deliveryId then
    ({ w with tracker := w.tracker.markUndelivered agentId deliveryId }.updateAgent agentId
      (lose deliveryId)).note (.flagged agentId deliveryId)
  else w

def endTurn (w : World) (agentId : String) : World :=
  (w.updateAgent agentId fun session => { session with busy := false }).note
    (.turnEnded agentId (w.agents agentId).turn)

end World

inductive Label where
  | deliver (message : TrackedMentionDelivery)
  | drop (message : TrackedMentionDelivery) (code : MentionDeliveryTerminalCode)
  | admission (message : TrackedMentionDelivery)
  | accept (call : Nat)
  | announced (call : Nat) (outcome : World.Announced)
  | reported (call : Nat)
  | turnEnd (agentId : String)
  | markUndelivered (agentId : String) (deliveryIds : List String)
  | redelivery (agentId : String) (deliveryIds : List String) (accepted : Bool)
  | launch (agentId : String)
  | identify (agentId : String) (running : Option RunningMentionIdentity)
  | turnStart (agentId : String)
  | block (agentId : String) (blocked : Option MentionDeliveryBlock)
  | notify (agentId deliveryId : String)
  | consume (agentId messageId : String)
deriving DecidableEq

/-- The next step. `admission` is a delivery that its envelope does not fit. An acceptance comes from
the process that the notice was written to, and an announce ends as told only after it. -/
def step (w : World) : Label → Option World
  | .deliver message => some ((w.note (.issued message.deliveryId)).deliver message)
  | .drop message code => some ((w.note (.issued message.deliveryId)).dropMention message code)
  | .admission message =>
    (admissionRefusal w.computerId message).map fun code =>
      (w.note (.issued message.deliveryId)).refuse message code
  | .accept call =>
    match w.calls[call]? with
    | some (.deliver message _ notice) =>
      if notice.generation = (w.agents message.agentId).generation then
        some (w.accept message.agentId message.deliveryId notice.turn)
      else none
    | _ => none
  | .announced call outcome =>
    match w.calls[call]? with
    | some (.deliver message busy notice) =>
      if outcome = .told →
          notice.generation = (w.agents message.agentId).generation ∧
            (w.agents message.agentId).told.any fun entry =>
              entry.deliveryId = message.deliveryId ∧ entry.turn = notice.turn then
        some ({ w with calls := w.calls.eraseIdx call }.announced message busy outcome)
      else none
    | _ => none
  | .reported call =>
    match w.calls[call]? with
    | some (.settleTurnEnd rest) =>
      some ({ w with calls := w.calls.eraseIdx call }.settleTurnEnd rest)
    | some (.settleRedelivery agentId rest accepted) =>
      some ({ w with calls := w.calls.eraseIdx call }.settleRedelivery agentId rest accepted)
    | _ => none
  | .turnEnd agentId => some ((w.endTurn agentId).settleTurnEnd (w.tracker.pending agentId))
  | .markUndelivered agentId deliveryIds =>
    some (deliveryIds.foldl (fun w id => w.markUndelivered agentId id) w)
  | .redelivery agentId deliveryIds accepted =>
    let events := if accepted then deliveryIds.map (Happening.redelivered agentId) else []
    some ({ w with trace := events ++ w.trace }.settleRedelivery agentId deliveryIds accepted)
  | .launch agentId =>
    some (w.updateAgent agentId fun session =>
      { session with generation := session.generation + 1, busy := false, told := [] })
  | .identify agentId running =>
    some (w.updateAgent agentId fun session => { session with running := running })
  | .turnStart agentId =>
    if (w.agents agentId).busy then none
    else some (w.updateAgent agentId fun session =>
      { session with turn := session.turn + 1, busy := true })
  | .block agentId blocked =>
    some (w.updateAgent agentId fun session => { session with blocked := blocked })
  | .notify agentId deliveryId =>
    some (w.accept agentId deliveryId (w.agents agentId).inTurn)
  | .consume agentId messageId =>
    some ({ w with cursor := (agentId, messageId) :: w.cursor }.note
      (.consumed agentId messageId))

/-- A daemon that starts: no process runs, and of the past there is only what the Agents
consumed. -/
def World.start (computerId : String) (cursor : List (String × String)) : World :=
  ⟨computerId, .empty, fun _ => .none, cursor, [],
    cursor.map fun entry => .consumed entry.1 entry.2⟩

end Coforge.Mentions
