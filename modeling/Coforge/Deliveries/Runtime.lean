import Coforge.Attention.System
import Coforge.Lib.Trace

/-!
# Deliveries in the daemon runtime

What the runtime does with the ordinary deliveries of one Agent: an arriving one is announced
through the Agent's input queue, waits in the delivery queue for a later notice, waits for a
pending Start, or is sent back. The attention index decides and acknowledges what passes through
the input queue; the runtime acknowledges what it takes into its own keeping.

`Host` is what the runtime reads of the Agent's process and of its timers, and changes freely. The
trace lists the acknowledgements with the generation they were made in, and what they can rest on;
it is kept for the statements only.
-/

namespace Coforge.Deliveries

open Attention

/-- What the runtime reads of the Agent when it decides about a delivery. -/
structure Host where
  stopping : Bool
  runnerHold : Bool
  session : Bool
  launching : Bool
  wakeLaunch : Bool
  restartConfig : Bool
  startPending : Bool
  wakeBlocked : Bool
  shouldHold : Bool
deriving DecidableEq

/-- What happened: the index was found to have consumed a delivery, the session of a generation
accepted a notice, the delivery queue took a delivery, or a purge dropped it. -/
inductive Happening where
  | consumed (message : Delivery)
  | accepted (generation : Nat) (deliveryIds : List String)
  | enqueued (message : Delivery)
  | purged (message : Delivery)
  | acknowledged (deliveryId : String) (generation : Option Nat)
deriving DecidableEq

/-- The deliveries that wait for a session. A closed queue takes none until its drain ends. -/
structure InputQueue where
  items : List Delivery
  closed : Bool

structure DaemonRuntime where
  host : Host
  attention : World
  /-- What the delivery queue holds. -/
  held : List Delivery
  inputs : InputQueue
  startBuffer : List Delivery
  trace : List Happening

namespace DaemonRuntime

def note (r : DaemonRuntime) (event : Happening) : DaemonRuntime := { r with trace := event :: r.trace }

def generation (r : DaemonRuntime) : Option Nat := r.attention.generation.map Generation.id

/-- The index looks whether the Agent consumed a delivery. -/
def observe (r : DaemonRuntime) (message : Delivery) : DaemonRuntime :=
  if r.attention.hasSeen message.target message.sequence then r.note (.consumed message) else r

/-- What the index did to the outside. -/
def perform (r : DaemonRuntime) : Effect → DaemonRuntime
  | .acknowledged deliveryId => r.note (.acknowledged deliveryId r.generation)
  | .enqueued message        => { r with held := r.held ++ [message] }.note (.enqueued message)

/-- The index goes on to a state, and its new effects are performed. -/
def attend (r : DaemonRuntime) (w : World) : DaemonRuntime :=
  (w.effects.drop r.attention.effects.length).foldl perform { r with attention := w }

def acknowledge (r : DaemonRuntime) (message : Delivery) : DaemonRuntime :=
  r.note (.acknowledged message.deliveryId r.generation)

/-- The daemon takes a delivery into its own keeping, so it acknowledges it. -/
def takeCustody (r : DaemonRuntime) (message : Delivery) : DaemonRuntime :=
  ({ r with held := r.held ++ [message] }.note (.enqueued message)).acknowledge message

def enqueueAgentInput (r : DaemonRuntime) (message : Delivery) : DaemonRuntime :=
  if r.inputs.closed then r
  else { r with inputs := { r.inputs with items := r.inputs.items ++ [message] } }

def closeAgentInputQueue (r : DaemonRuntime) : DaemonRuntime := { r with inputs := ⟨[], true⟩ }

/-- The index forgets the Agent. -/
def clearAgent (r : DaemonRuntime) : DaemonRuntime :=
  r.attend { r.attention with index := r.attention.index.clearAgent, generation := none }

/-- Relaunches an exited Agent. -/
def wakeAgent (r : DaemonRuntime) : DaemonRuntime :=
  { r.clearAgent with host := { r.host with launching := true, wakeLaunch := true } }

/-! ### A delivery arrives -/

def hasConsumed (r : DaemonRuntime) (message : Delivery) : Bool :=
  hasDeliveryScope message && r.attention.hasSeen message.target message.sequence

/-- The index is asked whether the Agent consumed a delivery, for which it loads its state. -/
def look (r : DaemonRuntime) (message : Delivery) : DaemonRuntime :=
  if hasDeliveryScope message then { r.observe message with attention := r.attention.hydrate }
  else r

/-- A delivery for an Agent with no hold, session or launch in flight. -/
def deliverToExitedAgent (r : DaemonRuntime) (message : Delivery) : DaemonRuntime :=
  let consumed := r.hasConsumed message
  let r := r.look message
  if consumed then r.acknowledge message
  else if !r.host.restartConfig && r.host.startPending then
    { r with startBuffer := r.startBuffer ++ [message] }
  else if !r.host.restartConfig then r.closeAgentInputQueue
  else if r.host.wakeBlocked then r.takeCustody message
  else if r.held ≠ [] then (r.takeCustody message).wakeAgent
  else (r.enqueueAgentInput message).wakeAgent

def handleAgentMessage (r : DaemonRuntime) (message : Delivery) : DaemonRuntime :=
  if message.workspaceId ≠ r.attention.workspaceId || r.host.stopping then r
  else if !r.host.runnerHold && !r.host.session && !r.host.launching then
    r.deliverToExitedAgent message
  else if !r.host.runnerHold && !r.host.session && r.host.wakeLaunch && r.held ≠ [] then
    r.takeCustody message
  else r.enqueueAgentInput message

/-! ### The queues -/

/-- The oldest delivery of the input queue goes to the index. -/
def drainAgentInput (r : DaemonRuntime) (now : Nat) : Option DaemonRuntime :=
  match r.inputs.items with
  | [] => none
  | message :: rest =>
    if r.inputs.closed || r.host.runnerHold || !r.host.session then none
    else
      let r := { r with inputs := { r.inputs with items := rest } }.observe message
      some (r.attend (r.attention.receive message r.host.shouldHold r.host.session now))

/-- What the delivery queue holds is presented as one notice. -/
def flushHeld (r : DaemonRuntime) (now : Nat) : DaemonRuntime :=
  let held := r.held
  let r := held.foldl observe { r with held := [] }
  r.attend (r.attention.flush held r.host.session now)

/-- A failed launch hands what waits in its input queue to the delivery queue. -/
def keepDeliveriesForNextLaunch (r : DaemonRuntime) : DaemonRuntime :=
  r.inputs.items.foldl takeCustody { r with inputs := { r.inputs with items := [] } }

/-- A purge drops a delivery that waited, and acknowledges it so that it does not come back. -/
def purge (r : DaemonRuntime) (message : Delivery) : DaemonRuntime :=
  (r.note (.purged message)).acknowledge message

/-- `handleAgentInboxPurge` on the conversations the Agent can no longer read. -/
def handleAgentInboxPurge (r : DaemonRuntime) (conversationIds : List String) (targets : List Target) :
    DaemonRuntime :=
  let purged := r.inputs.items.filter fun m => m.conversationId ∈ conversationIds
  let kept := r.inputs.items.filter fun m => m.conversationId ∉ conversationIds
  let r := purged.foldl purge { r with inputs := { r.inputs with items := kept } }
  { r with
    held := r.held.filter fun m => m.conversationId ∉ conversationIds
    attention := { r.attention with index := r.attention.index.clearTargets targets } }

end DaemonRuntime

/-! ### Steps -/

/-- What happens to the deliveries of an Agent. `attention` is a stretch of the index that the
queues do not lead to; `stop` is an explicit Stop once the process is gone, and `exit` a process
that exits on its own. -/
inductive Label where
  | deliver (message : Delivery)
  | drainInput (now : Nat)
  | drainEnds
  | flushHeld (now : Nat)
  | discardPending
  | launch
  | launchFailed
  | releaseStartBuffer
  | closeInputs
  | stop
  | exit
  | purge (conversationIds : List String) (targets : List Target)
  | attention (l : Attention.Label)
  | host (host : Host)

/-- The stretches of the index that do not start from a queue. -/
def Internal : Attention.Label → Bool
  | .receive .. | .flush .. | .clearAgent => false
  | _ => true

/-- What the sessions accepted in a stretch of the index. -/
def accepted (w : World) : Attention.Label → Option Happening
  | .answer notice true => w.notices[notice]?.map fun n => .accepted n.generation n.announced
  | .answerRecovery recovery true =>
    w.recoveries[recovery]?.join.map fun r =>
      .accepted r.generation (r.messages.map RecoveryMessage.deliveryId)
  | _ => none

open DaemonRuntime in
def step (r : DaemonRuntime) : Label → Option DaemonRuntime
  | .deliver message => some (r.handleAgentMessage message)
  | .drainInput now => r.drainAgentInput now
  | .drainEnds => some { r with inputs := { r.inputs with closed := false } }
  | .flushHeld now => some (r.flushHeld now)
  | .discardPending => some { r with held := [] }
  | .launch => some { r.clearAgent with host := { r.host with launching := true } }
  | .launchFailed => some r.keepDeliveriesForNextLaunch.closeAgentInputQueue
  | .releaseStartBuffer =>
    if r.host.session then
      some (r.startBuffer.foldl handleAgentMessage { r with startBuffer := [] })
    else some { r with startBuffer := [] }
  | .closeInputs => some r.closeAgentInputQueue
  | .stop => some { r.clearAgent with held := [] }
  | .exit => some r.clearAgent
  | .purge conversationIds targets => some (r.handleAgentInboxPurge conversationIds targets)
  | .attention l =>
    if Internal l then
      (Attention.step r.attention l).map fun w =>
        ((accepted r.attention l).elim r r.note).attend w
    else none
  | .host host => some { r with host := host }

/-- A daemon that starts, over what the store of the Agent holds. -/
def DaemonRuntime.start (host : Host) (workspaceId : String) (durable : Option ConsumedSeqState) :
    DaemonRuntime :=
  ⟨host, .init workspaceId durable, [], ⟨[], false⟩, [], []⟩

end Coforge.Deliveries
