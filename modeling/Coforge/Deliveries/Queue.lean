import Coforge.Attention.Index
import Coforge.Control.Record
import Coforge.Lib.Run

/-!
# The delivery queue

`AgentDeliveryQueue` keeps the deliveries that an Agent is not told of right now, for all Agents of
the daemon. Two things hold them back: an explicit hold, and a turn that runs in a mode that cannot
take a notice. The end of a turn and the release of a hold let everything go, unless the other one
is still in force.

An operation takes deliveries out (`taken`) and puts one in (`entering`). `conserved` is about every
sequence of operations: nothing is lost or let go twice, what leaves keeps its order, and a queue
that holds something is held back by someone, or its Agent's process exited since it was empty.
-/

namespace Coforge.Deliveries

open List
open Attention (Delivery)

inductive AgentDeliveryMode where
  | steer | queueUntilIdle
deriving DecidableEq

inductive DeliveryHoldReason where
  | rateLimitBackoff | runtimeErrorBackoff | fingerprintFence
deriving DecidableEq

structure FallbackNotice where
  text : String
  deliveryIds : Option (List String)
deriving DecidableEq

/-- `AGENT_DELIVERY_MODE`: every provider handles a notice in a running turn itself. -/
def agentDeliveryMode : Control.RuntimeProvider → AgentDeliveryMode
  | .coforge     => .steer
  | .pi          => .steer
  | .codex       => .steer
  | .claudeCode  => .steer
  | .cursor      => .steer
  | .kiro        => .steer
  | .opencode    => .steer
  | .grok        => .steer
  | .antigravity => .steer

structure AgentDeliveryQueue where
  mode : String → Option AgentDeliveryMode
  busy : String → Bool
  held : String → List Delivery
  heldAppItems : String → List String
  heldFallbackNotices : String → List FallbackNotice
  explicitHolds : String → Option DeliveryHoldReason

namespace AgentDeliveryQueue

def empty : AgentDeliveryQueue where
  mode _ := none
  busy _ := false
  held _ := []
  heldAppItems _ := []
  heldFallbackNotices _ := []
  explicitHolds _ := none

/-! ### Methods -/

/-- An explicit hold, or a running turn that cannot take a notice. -/
def shouldHold (q : AgentDeliveryQueue) (agentId : String) : Bool :=
  (q.explicitHolds agentId).isSome ||
    (q.mode agentId == some .queueUntilIdle && q.busy agentId)

def pending (q : AgentDeliveryQueue) (agentId : String) : List Delivery := q.held agentId

def hasQueued (q : AgentDeliveryQueue) (agentId : String) : Bool := 0 < (q.held agentId).length

def setMode (q : AgentDeliveryQueue) (agentId : String) (mode : AgentDeliveryMode) :
    AgentDeliveryQueue :=
  { q with mode := Function.update q.mode agentId (some mode) }

def setProvider (q : AgentDeliveryQueue) (agentId : String) (provider : Control.RuntimeProvider) :
    AgentDeliveryQueue :=
  q.setMode agentId (agentDeliveryMode provider)

def setBusy (q : AgentDeliveryQueue) (agentId : String) (busy : Bool) : AgentDeliveryQueue :=
  { q with busy := Function.update q.busy agentId busy }

def setHeld (q : AgentDeliveryQueue) (agentId : String) (list : List Delivery) :
    AgentDeliveryQueue :=
  { q with held := Function.update q.held agentId list }

def drain (q : AgentDeliveryQueue) (agentId : String) : List Delivery × AgentDeliveryQueue :=
  (q.held agentId, q.setHeld agentId [])

/-- The turn ends: everything goes, unless an explicit hold is in force. -/
def idle (q : AgentDeliveryQueue) (agentId : String) : List Delivery × AgentDeliveryQueue :=
  let q := q.setBusy agentId false
  if (q.explicitHolds agentId).isSome then ([], q) else q.drain agentId

def enqueue (q : AgentDeliveryQueue) (agentId : String) (message : Delivery) : AgentDeliveryQueue :=
  q.setHeld agentId (q.held agentId ++ [message])

def discardPending (q : AgentDeliveryQueue) (agentId : String) :
    List Delivery × AgentDeliveryQueue :=
  q.drain agentId

/-- The deliveries of conversations that the Agent can no longer read. -/
def discardConversations (q : AgentDeliveryQueue) (agentId : String)
    (conversationIds : List String) : List Delivery × AgentDeliveryQueue :=
  ((q.held agentId).filter fun message => message.conversationId ∈ conversationIds,
    q.setHeld agentId
      ((q.held agentId).filter fun message => message.conversationId ∉ conversationIds))

/-- A set that keeps the order in which its items came. -/
def holdAppItem (q : AgentDeliveryQueue) (agentId itemId : String) : AgentDeliveryQueue :=
  { q with
    heldAppItems := Function.update q.heldAppItems agentId
      (if itemId ∈ q.heldAppItems agentId then q.heldAppItems agentId
        else q.heldAppItems agentId ++ [itemId]) }

def releaseAppItems (q : AgentDeliveryQueue) (agentId : String) :
    List String × AgentDeliveryQueue :=
  (q.heldAppItems agentId,
    { q with heldAppItems := Function.update q.heldAppItems agentId [] })

def holdFallbackNotice (q : AgentDeliveryQueue) (agentId : String) (notice : FallbackNotice) :
    AgentDeliveryQueue :=
  { q with
    heldFallbackNotices := Function.update q.heldFallbackNotices agentId
      (q.heldFallbackNotices agentId ++ [notice]) }

def releaseFallbackNotices (q : AgentDeliveryQueue) (agentId : String) :
    List FallbackNotice × AgentDeliveryQueue :=
  (q.heldFallbackNotices agentId,
    { q with heldFallbackNotices := Function.update q.heldFallbackNotices agentId [] })

def setHold (q : AgentDeliveryQueue) (agentId : String) (reason : Option DeliveryHoldReason) :
    AgentDeliveryQueue :=
  { q with explicitHolds := Function.update q.explicitHolds agentId reason }

def hold (q : AgentDeliveryQueue) (agentId : String) (reason : DeliveryHoldReason) :
    AgentDeliveryQueue :=
  q.setHold agentId (some reason)

/-- The hold ends: everything goes, unless a turn is still running. -/
def release (q : AgentDeliveryQueue) (agentId : String) : List Delivery × AgentDeliveryQueue :=
  let q := q.setHold agentId none
  if q.busy agentId then ([], q) else q.drain agentId

/-- The running turn is gone, and what is held stays for the next launch. -/
def onProcessExit (q : AgentDeliveryQueue) (agentId : String) : AgentDeliveryQueue :=
  q.setBusy agentId false

def clearAgent (q : AgentDeliveryQueue) (agentId : String) : AgentDeliveryQueue where
  mode := Function.update q.mode agentId none
  busy := Function.update q.busy agentId false
  held := Function.update q.held agentId []
  heldAppItems := Function.update q.heldAppItems agentId []
  heldFallbackNotices := Function.update q.heldFallbackNotices agentId []
  explicitHolds := Function.update q.explicitHolds agentId none

end AgentDeliveryQueue

/-! ### Operations -/

/-- The methods that change the queue, as an Agent's runtime calls them. -/
inductive QueueOperation where
  | setProvider (provider : Control.RuntimeProvider)
  | setMode (mode : AgentDeliveryMode)
  | busy
  | idle
  | enqueue (message : Delivery)
  | discardPending
  | discardConversations (conversationIds : List String)
  | holdAppItem (itemId : String)
  | releaseAppItems
  | holdFallbackNotice (notice : FallbackNotice)
  | releaseFallbackNotices
  | hold (reason : DeliveryHoldReason)
  | release
  | onProcessExit
  | clearAgent
deriving DecidableEq

namespace AgentDeliveryQueue

/-- The deliveries an operation on an Agent returns, and the queue it leaves. -/
def perform (q : AgentDeliveryQueue) (agentId : String) :
    QueueOperation → List Delivery × AgentDeliveryQueue
  | .setProvider provider                 => ([], q.setProvider agentId provider)
  | .setMode mode                         => ([], q.setMode agentId mode)
  | .busy                                 => ([], q.setBusy agentId true)
  | .idle                                 => q.idle agentId
  | .enqueue message                      => ([], q.enqueue agentId message)
  | .discardPending                       => q.discardPending agentId
  | .discardConversations conversationIds => q.discardConversations agentId conversationIds
  | .holdAppItem itemId                   => ([], q.holdAppItem agentId itemId)
  | .releaseAppItems                      => ([], (q.releaseAppItems agentId).2)
  | .holdFallbackNotice notice            => ([], q.holdFallbackNotice agentId notice)
  | .releaseFallbackNotices               => ([], (q.releaseFallbackNotices agentId).2)
  | .hold reason                          => ([], q.hold agentId reason)
  | .release                              => q.release agentId
  | .onProcessExit                        => ([], q.onProcessExit agentId)
  | .clearAgent                           => ([], q.clearAgent agentId)

/-- The queue after an operation on an Agent. -/
def step (q : AgentDeliveryQueue) (call : String × QueueOperation) : AgentDeliveryQueue :=
  (q.perform call.1 call.2).2

def run (q : AgentDeliveryQueue) (calls : List (String × QueueOperation)) : AgentDeliveryQueue :=
  calls.foldl step q

/-- The deliveries of an Agent that an operation takes out: those it returns, and those that a
cleared Agent loses. -/
def taken (q : AgentDeliveryQueue) (call : String × QueueOperation) (agentId : String) :
    List Delivery :=
  if call.1 = agentId then
    if call.2 = .clearAgent then q.held agentId else (q.perform agentId call.2).1
  else []

end AgentDeliveryQueue

/-- The delivery that a call puts into an Agent's queue. -/
def entering (call : String × QueueOperation) (agentId : String) : List Delivery :=
  match call with
  | (a, .enqueue message) => if a = agentId then [message] else []
  | _                     => []

/-- A call that drops an Agent's deliveries of some conversations. -/
def purges (call : String × QueueOperation) (agentId : String) : Bool :=
  match call with
  | (a, .discardConversations _) => a = agentId
  | _                            => false

/-! ### What goes in and out -/

/-- What an Agent's deliveries are to a whole run: those that entered, in their order. -/
def entered (calls : List (String × QueueOperation)) (agentId : String) : List Delivery :=
  calls.flatMap fun call => entering call agentId

namespace AgentDeliveryQueue

/-- The deliveries of an Agent that left in a run, in the order in which they left. -/
def departed (q : AgentDeliveryQueue) (agentId : String) :
    List (String × QueueOperation) → List Delivery
  | []            => []
  | call :: calls => q.taken call agentId ++ departed (q.step call) agentId calls

/-- Those of them that no purge took out. -/
def released (q : AgentDeliveryQueue) (agentId : String) :
    List (String × QueueOperation) → List Delivery
  | []            => []
  | call :: calls =>
    (if purges call agentId then [] else q.taken call agentId) ++
      released (q.step call) agentId calls

/-- Every delivery comes while the Agent's deliveries are held back. -/
def Guarded (q : AgentDeliveryQueue) (calls : List (String × QueueOperation)) : Prop :=
  ∀ pre agentId message post, calls = pre ++ (agentId, .enqueue message) :: post →
    (q.run pre).shouldHold agentId = true

end AgentDeliveryQueue

open AgentDeliveryQueue

/-- An explicit hold is in force, or a turn is running. -/
def HeldBy (q : AgentDeliveryQueue) (agentId : String) : Prop :=
  (q.explicitHolds agentId).isSome = true ∨ q.busy agentId = true

/-- The Agent's process exited, and its queue was never empty since. -/
def LeftByExit (q : AgentDeliveryQueue) (agentId : String)
    (calls : List (String × QueueOperation)) : Prop :=
  ∃ pre post, calls = pre ++ (agentId, .onProcessExit) :: post ∧
    ∀ mid, mid <+: post → (q.run (pre ++ (agentId, .onProcessExit) :: mid)).held agentId ≠ []

/-- What a run of calls on an empty queue keeps for an Agent. -/
structure Conserved (calls : List (String × QueueOperation)) (agentId : String) : Prop where
  balance : (empty.departed agentId calls ++ (empty.run calls).held agentId).Perm
    (entered calls agentId)
  once : (entered calls agentId).Nodup → (empty.departed agentId calls).Nodup
  order : (empty.released agentId calls ++ (empty.run calls).held agentId).Sublist
    (entered calls agentId)
  together : ∀ pre call post, calls = pre ++ call :: post →
    ((empty.run pre).taken call agentId).Sublist ((empty.run pre).held agentId)
  notStranded : empty.Guarded calls → (empty.run calls).held agentId ≠ [] →
    HeldBy (empty.run calls) agentId ∨ LeftByExit empty agentId calls

/-! ### One call -/

section Setters

variable (q : AgentDeliveryQueue) (agentId a : String)

@[simp] lemma held_setHeld (list : List Delivery) :
    (q.setHeld a list).held agentId = if agentId = a then list else q.held agentId :=
  Function.update_apply ..

@[simp] lemma held_setBusy (busy : Bool) : (q.setBusy a busy).held = q.held := rfl

@[simp] lemma held_setHold (reason : Option DeliveryHoldReason) :
    (q.setHold a reason).held = q.held := rfl

@[simp] lemma busy_setHeld (list : List Delivery) : (q.setHeld a list).busy = q.busy := rfl

@[simp] lemma busy_setBusy (busy : Bool) :
    (q.setBusy a busy).busy agentId = if agentId = a then busy else q.busy agentId :=
  Function.update_apply ..

@[simp] lemma busy_setHold (reason : Option DeliveryHoldReason) :
    (q.setHold a reason).busy = q.busy := rfl

@[simp] lemma explicitHolds_setHeld (list : List Delivery) :
    (q.setHeld a list).explicitHolds = q.explicitHolds := rfl

@[simp] lemma explicitHolds_setBusy (busy : Bool) :
    (q.setBusy a busy).explicitHolds = q.explicitHolds := rfl

@[simp] lemma explicitHolds_setHold (reason : Option DeliveryHoldReason) :
    (q.setHold a reason).explicitHolds agentId =
      if agentId = a then reason else q.explicitHolds agentId :=
  Function.update_apply ..

end Setters

/-- What a call does to an Agent's deliveries, and to what holds them back. -/
inductive Change (q q' : AgentDeliveryQueue) (agentId : String) (call : String × QueueOperation) :
    Prop where
  | enters (message : Delivery) (hcall : call = (agentId, .enqueue message))
      (hheld : q'.held agentId = q.held agentId ++ [message])
      (htaken : q.taken call agentId = []) (hholds : HeldBy q agentId → HeldBy q' agentId)
  | purges (conversationIds : List String)
      (hcall : call = (agentId, .discardConversations conversationIds))
      (hheld : q'.held agentId =
        (q.held agentId).filter fun message => message.conversationId ∉ conversationIds)
      (htaken : q.taken call agentId =
        (q.held agentId).filter fun message => message.conversationId ∈ conversationIds)
      (hholds : HeldBy q agentId → HeldBy q' agentId)
  | empties (hpurge : purges call agentId = false) (hentering : entering call agentId = [])
      (hheld : q'.held agentId = []) (htaken : q.taken call agentId = q.held agentId)
  | stays (hpurge : purges call agentId = false) (hentering : entering call agentId = [])
      (hheld : q'.held agentId = q.held agentId) (htaken : q.taken call agentId = [])
      (hholds : call ≠ (agentId, .onProcessExit) → HeldBy q agentId → HeldBy q' agentId)

section Call

variable {q : AgentDeliveryQueue} {agentId : String}

lemma step_of_ne {a : String} (op : QueueOperation) (h : a ≠ agentId) :
    (q.step (a, op)).held agentId = q.held agentId ∧
      (q.step (a, op)).busy agentId = q.busy agentId ∧
      (q.step (a, op)).explicitHolds agentId = q.explicitHolds agentId := by
  have hne : agentId ≠ a := h.symm
  cases op with
  | idle =>
    simp only [step, perform, idle]
    split_ifs <;> simp [drain, hne]
  | release =>
    simp only [step, perform, release]
    split_ifs <;> simp [drain, hne]
  | discardPending => simp [step, perform, AgentDeliveryQueue.discardPending, drain, hne]
  | clearAgent => simp [step, perform, AgentDeliveryQueue.clearAgent, hne]
  | _ =>
    simp [step, perform, setProvider, setMode, enqueue, discardConversations, holdAppItem,
      releaseAppItems, holdFallbackNotice, releaseFallbackNotices, hold, onProcessExit, hne]

lemma change_drain {call : QueueOperation} {q' : AgentDeliveryQueue}
    (hpurge : purges (agentId, call) agentId = false) (hentering : entering (agentId, call) agentId = [])
    (hstep : q.step (agentId, call) = q'.setHeld agentId [])
    (htaken : q.taken (agentId, call) agentId = q.held agentId) :
    Change q (q.step (agentId, call)) agentId (agentId, call) := by
  refine .empties hpurge hentering ?_ htaken
  rw [hstep, held_setHeld, if_pos rfl]

theorem change (q : AgentDeliveryQueue) (agentId : String) (call : String × QueueOperation) :
    Change q (q.step call) agentId call := by
  obtain ⟨a, op⟩ := call
  by_cases ha : a = agentId
  · subst ha
    cases op with
    | enqueue message => exact .enters message rfl (by simp [step, perform, enqueue]) (by simp [taken, perform]) id
    | discardConversations conversationIds =>
      exact .purges conversationIds rfl (by simp [step, perform, discardConversations])
        (by simp [taken, perform, discardConversations]) id
    | idle =>
      by_cases hhold : (q.explicitHolds a).isSome
      · -- the hold goes on
        have hstep : q.perform a .idle = ([], q.setBusy a false) := if_pos hhold
        refine .stays rfl rfl (by simp [step, hstep]) (by simp [taken, hstep]) ?_
        intro _ _
        exact Or.inl (by simpa [step, hstep] using hhold)
      · have hstep : q.perform a .idle = (q.setBusy a false).drain a := if_neg hhold
        refine change_drain rfl rfl (congrArg Prod.snd hstep) ?_
        simp [taken, hstep, drain]
    | release =>
      by_cases hbusy : q.busy a = true
      · -- the turn goes on
        have hstep : q.perform a .release = ([], q.setHold a none) := if_pos hbusy
        refine .stays rfl rfl (by simp [step, hstep]) (by simp [taken, hstep]) ?_
        intro _ _
        exact Or.inr (by simpa [step, hstep] using hbusy)
      · have hstep : q.perform a .release = (q.setHold a none).drain a := if_neg hbusy
        refine change_drain rfl rfl (congrArg Prod.snd hstep) ?_
        simp [taken, hstep, drain]
    | discardPending =>
      exact change_drain rfl rfl rfl (by simp [taken, perform,
        AgentDeliveryQueue.discardPending, drain])
    | clearAgent =>
      refine .empties rfl rfl ?_ (by simp [taken])
      simp [step, perform, AgentDeliveryQueue.clearAgent]
    | onProcessExit =>
      exact .stays rfl rfl rfl (by simp [taken, perform]) fun h => absurd rfl h
    | busy =>
      refine .stays rfl rfl rfl (by simp [taken, perform]) fun _ _ => ?_
      exact Or.inr (by simp [step, perform])
    | hold reason =>
      refine .stays rfl rfl rfl (by simp [taken, perform]) fun _ _ => ?_
      exact Or.inl (by simp [step, perform, AgentDeliveryQueue.hold])
    | _ => exact .stays rfl rfl rfl (by simp [taken, perform]) fun _ h => h
  · obtain ⟨hheld, hbusy, hholds⟩ := @step_of_ne q agentId a op ha
    refine .stays ?_ ?_ hheld (if_neg ha) ?_
    · cases op <;> simp [purges, ha]
    · cases op <;> simp [entering, ha]
    · intro _ hby
      rwa [HeldBy, hbusy, hholds]

end Call

/-! ### A whole run -/

section Run

variable {q : AgentDeliveryQueue} {agentId : String} {call : String × QueueOperation}
  {calls : List (String × QueueOperation)}

lemma run_append (q : AgentDeliveryQueue) (pre post : List (String × QueueOperation)) :
    q.run (pre ++ post) = (q.run pre).run post := foldl_append

lemma entering_enqueue (agentId : String) (message : Delivery) :
    entering (agentId, .enqueue message) agentId = [message] := if_pos rfl

lemma balance_step (q : AgentDeliveryQueue) (agentId : String) (call : String × QueueOperation) :
    (q.taken call agentId ++ (q.step call).held agentId).Perm
      (q.held agentId ++ entering call agentId) := by
  cases change q agentId call with
  | enters message hcall hheld htaken =>
    rw [htaken, hheld, hcall, entering_enqueue, nil_append]
  | purges conversationIds hcall hheld htaken =>
    have hentering : entering call agentId = [] := hcall ▸ rfl
    rw [hheld, htaken, hentering, append_nil]
    simpa only [decide_not] using filter_append_perm _ _
  | empties hpurge hentering hheld htaken =>
    rw [htaken, hheld, hentering]
  | stays hpurge hentering hheld htaken =>
    rw [htaken, hheld, hentering, append_nil, nil_append]

lemma taken_sublist (q : AgentDeliveryQueue) (agentId : String)
    (call : String × QueueOperation) : (q.taken call agentId).Sublist (q.held agentId) := by
  cases change q agentId call with
  | enters message hcall hheld htaken => exact htaken ▸ nil_sublist _
  | purges conversationIds hcall hheld htaken => exact htaken ▸ filter_sublist
  | empties hpurge hentering hheld htaken => exact htaken ▸ Sublist.refl _
  | stays hpurge hentering hheld htaken => exact htaken ▸ nil_sublist _

lemma order_step (q : AgentDeliveryQueue) (agentId : String) (call : String × QueueOperation) :
    ((if purges call agentId then [] else q.taken call agentId) ++
      (q.step call).held agentId).Sublist (q.held agentId ++ entering call agentId) := by
  cases change q agentId call with
  | enters message hcall hheld htaken =>
    rw [htaken, ite_self, hheld, hcall, entering_enqueue, nil_append]
  | purges conversationIds hcall hheld htaken =>
    have hpurge : purges call agentId = true := hcall ▸ decide_eq_true rfl
    rw [if_pos hpurge, hheld]
    exact filter_sublist.trans (sublist_append_left _ _)
  | empties hpurge hentering hheld htaken =>
    rw [if_neg (by simp [hpurge]), htaken, hheld, hentering]
  | stays hpurge hentering hheld htaken =>
    rw [if_neg (by simp [hpurge]), htaken, hheld, hentering, append_nil, nil_append]

lemma balance_run (q : AgentDeliveryQueue) (agentId : String)
    (calls : List (String × QueueOperation)) :
    (q.departed agentId calls ++ (q.run calls).held agentId).Perm
      (q.held agentId ++ entered calls agentId) := by
  induction calls generalizing q with
  | nil => simp [departed, run, entered]
  | cons call calls ih =>
    have hrest := (ih (q.step call)).append_left (q.taken call agentId)
    have hstep := (balance_step q agentId call).append_right (entered calls agentId)
    rw [← append_assoc, ← append_assoc] at hrest
    rw [append_assoc (q.held agentId)] at hstep
    exact hrest.trans hstep

lemma order_run (q : AgentDeliveryQueue) (agentId : String)
    (calls : List (String × QueueOperation)) :
    (q.released agentId calls ++ (q.run calls).held agentId).Sublist
      (q.held agentId ++ entered calls agentId) := by
  induction calls generalizing q with
  | nil => simp [released, run, entered]
  | cons call calls ih =>
    have hrest := (ih (q.step call)).append_left
      (if purges call agentId then [] else q.taken call agentId)
    have hstep := (order_step q agentId call).append_right (entered calls agentId)
    rw [← append_assoc, ← append_assoc] at hrest
    rw [append_assoc (q.held agentId)] at hstep
    exact hrest.trans hstep

lemma heldBy_step (hback : q.held agentId ≠ [] → HeldBy q agentId)
    (hguard : ∀ message, call = (agentId, .enqueue message) → q.shouldHold agentId = true)
    (hexit : call ≠ (agentId, .onProcessExit)) (hheld' : (q.step call).held agentId ≠ []) :
    HeldBy (q.step call) agentId := by
  cases change q agentId call with
  | enters message hcall hheld htaken hholds =>
    refine hholds ?_
    have hshould := hguard message hcall
    rw [shouldHold, Bool.or_eq_true, Bool.and_eq_true] at hshould
    exact hshould.imp_right And.right
  | purges conversationIds hcall hheld htaken hholds =>
    refine hholds (hback fun hnil => hheld' ?_)
    rw [hheld, hnil, filter_nil]
  | empties hpurge hentering hheld htaken => exact absurd hheld hheld'
  | stays hpurge hentering hheld htaken hholds =>
    exact hholds hexit (hback (hheld ▸ hheld'))

lemma guarded_nil : q.Guarded [] := by
  intro pre agentId message post heq
  simp at heq

lemma guarded_concat : q.Guarded (calls ++ [call]) ↔ q.Guarded calls ∧
    ∀ agentId message, call = (agentId, .enqueue message) →
      (q.run calls).shouldHold agentId = true := by
  constructor
  · intro h
    refine ⟨fun pre agentId message post heq => ?_, fun agentId message hcall => ?_⟩
    · exact h pre agentId message (post ++ [call]) (by rw [heq]; simp)
    · exact h calls agentId message [] (by rw [hcall])
  · rintro ⟨hcalls, hcall⟩ pre agentId message post heq
    rcases eq_nil_or_concat post with rfl | ⟨post, last, rfl⟩
    · obtain ⟨rfl, hlast⟩ := append_inj' heq rfl
      exact hcall agentId message (cons.inj hlast).1
    · have heq : calls ++ [call] = (pre ++ (agentId, .enqueue message) :: post) ++ [last] := by
        rw [heq]
        simp
      exact hcalls pre agentId message post (append_inj' heq rfl).1

lemma heldBy_run (calls : List (String × QueueOperation)) (hguarded : empty.Guarded calls)
    (hheld : (empty.run calls).held agentId ≠ []) :
    HeldBy (empty.run calls) agentId ∨ LeftByExit empty agentId calls := by
  induction calls using reverseRecOn with
  | nil => exact absurd rfl hheld
  | append_singleton calls call ih =>
    have hrun : empty.run (calls ++ [call]) = (empty.run calls).step call := run_append ..
    by_cases hexit : call = (agentId, .onProcessExit)
    · -- the exit itself leaves what is held
      refine Or.inr ⟨calls, [], by rw [hexit], fun mid hmid => ?_⟩
      rw [prefix_nil.mp hmid, ← hexit]
      exact hheld
    by_cases hleft : LeftByExit empty agentId calls
    · obtain ⟨pre, post, rfl, hsince⟩ := hleft
      refine Or.inr ⟨pre, post ++ [call], by simp, fun mid hmid => ?_⟩
      rcases prefix_concat_iff.mp hmid with rfl | hmid
      · simpa using hheld
      · exact hsince mid hmid
    · rw [hrun] at hheld ⊢
      refine Or.inl (heldBy_step (fun hne => ?_) (fun message hcall => ?_) hexit hheld)
      · exact (ih (guarded_concat.mp hguarded).1 hne).resolve_right hleft
      · exact (guarded_concat.mp hguarded).2 agentId message hcall

end Run

/-- Every sequence of calls on an empty queue keeps each Agent's deliveries. -/
theorem conserved (calls : List (String × QueueOperation)) (agentId : String) :
    Conserved calls agentId := by
  have hbalance := balance_run empty agentId calls
  refine ⟨hbalance, ?_, order_run empty agentId calls, ?_, heldBy_run calls⟩
  · intro hnodup
    exact (nodup_append.mp (hbalance.nodup_iff.mpr hnodup)).1
  · intro pre call post _
    exact taken_sublist _ agentId call

/-! ### A purge, and an exit -/

/-- A delivery of a conversation. -/
def deliveryOf (conversationId deliveryId : String) : Delivery where
  workspaceId := "w"
  agentId := "a"
  conversationId := conversationId
  messageId := deliveryId
  deliveryId := deliveryId
  body := ""
  target := conversationId
  sequence := 1
  latestSenderKind := none
  latestSenderHandle := ""
  nonMemberMention := false

/-- A delivery that a running turn holds back. -/
def heldCalls : List (String × QueueOperation) :=
  [("a", .setMode .queueUntilIdle), ("a", .busy), ("a", .enqueue (deliveryOf "c" "1"))]

/-- A purge of another conversation takes the newer of two deliveries first. -/
def purgedCalls : List (String × QueueOperation) :=
  heldCalls ++ [("a", .enqueue (deliveryOf "d" "2")), ("a", .discardConversations ["d"]),
    ("a", .idle)]

/-- The process exits, and the next launch takes its mode. -/
def exitedCalls : List (String × QueueOperation) :=
  heldCalls ++ [("a", .onProcessExit), ("a", .setMode .queueUntilIdle)]

lemma guarded_heldCalls : empty.Guarded heldCalls := by
  refine (@guarded_concat _ _ [_, _]).mpr ⟨?_, ?_⟩
  · exact (@guarded_concat _ _ [_]).mpr
      ⟨(@guarded_concat _ _ []).mpr ⟨guarded_nil, by simp⟩, by simp⟩
  · intro agentId message hcall
    obtain ⟨rfl, -⟩ := Prod.mk.inj hcall
    rfl

/-- What leaves does not keep its order where a purge takes what entered later, and what an exit
leaves stays through the calls that follow it. -/
theorem leaves_out_of_order : ¬ (empty.departed "a" purgedCalls).Sublist (entered purgedCalls "a") ∧
      empty.Guarded exitedCalls ∧ (empty.run exitedCalls).held "a" ≠ [] ∧
        ¬ HeldBy (empty.run exitedCalls) "a" := by
  refine ⟨?_, ?_, ?_, ?_⟩
  · have hdeparted : empty.departed "a" purgedCalls =
        [deliveryOf "d" "2", deliveryOf "c" "1"] := by decide
    have hentered : entered purgedCalls "a" = [deliveryOf "c" "1", deliveryOf "d" "2"] := by decide
    rw [hdeparted, hentered]
    decide
  · exact guarded_concat.mpr ⟨guarded_concat.mpr ⟨guarded_heldCalls, by simp⟩, by simp⟩
  · decide
  · rintro (hhold | hbusy)
    · exact absurd hhold (by decide)
    · exact absurd hbusy (by decide)

end Coforge.Deliveries
