import Coforge.AttentionRule.Readers
import Coforge.Lib.Keyed
import Mathlib

/-!
# Drains and history reads

A drain selects a page of unread rows in one order over all targets, and then, as it commits, marks
the rows the Agent read from outside and moves its boundary in each target to the newest row of the
page. A history read captures the boundary, selects a page of one target, and moves the boundary
where the page joins what was read. Nothing locks a row in between, so other reads and new messages
come between these statements.
-/

namespace Coforge.AttentionRule

/-! ### The boundaries -/

def advanceTopLevel (t : Tables) (agentId conversationId : Uuid) (sequence : Nat) : Tables :=
  { t with members := t.members.map fun a =>
      if a.conversationId = conversationId ∧ a.agentId = some agentId ∧
          a.agentReadThroughSequence < sequence then
        { a with agentReadThroughSequence := sequence }
      else a }

/-- An upsert that keeps the greater sequence. -/
def advanceThreadRead (t : Tables) (memberId rootId : Uuid) (sequence : Nat) : Tables :=
  { t with threadReads :=
      if (t.threadRead memberId rootId).isSome then
        t.threadReads.map fun r =>
          if r.memberId = memberId ∧ r.rootMessageId = rootId then
            { r with readThroughSequence := max r.readThroughSequence sequence }
          else r
      else t.threadReads ++ [⟨memberId, rootId, sequence⟩] }

/-! ### `drainAgentEvents` -/

/-- The order of the rows: by conversation, by the sequence of the thread's root, by sequence. -/
def UnreadRow.le (a b : UnreadRow) : Prop :=
  a.message.conversationId < b.message.conversationId ∨
    a.message.conversationId = b.message.conversationId ∧ (a.rootSequence < b.rootSequence ∨
      a.rootSequence = b.rootSequence ∧ a.message.sequence ≤ b.message.sequence)

instance : DecidableRel UnreadRow.le := fun _ _ => inferInstanceAs (Decidable (_ ∨ _))

def UnreadRow.target (row : UnreadRow) : Target :=
  ⟨row.message.conversationId, row.message.threadRootId⟩

def bounded (limit : Int) : Nat := (min (max limit 1) 100).toNat

/-- What a drain selected. -/
structure Drain where
  page : List UnreadRow
  hasMore : Bool
  deriving DecidableEq, Repr

/-- The rows, one more than the page holds. -/
def drainRows (t : Tables) (workspaceId agentId : Uuid) (limit : Int) (target : Option Target) :
    List UnreadRow :=
  ((unreadAgentMessagesFragment t workspaceId agentId target).insertionSort UnreadRow.le).take
    (bounded limit + 1)

def drainPage (t : Tables) (workspaceId agentId : Uuid) (limit : Int) (target : Option Target) :
    Drain :=
  let rows := drainRows t workspaceId agentId limit target
  ⟨rows.take (bounded limit), bounded limit < rows.length⟩

/-- A message that reached the Agent from outside is read once. -/
def markRead (t : Tables) (workspaceId agentId : Uuid) (ids : List Uuid) : Tables :=
  { t with mentionActions := t.mentionActions.map fun a =>
      if a.workspaceId = workspaceId ∧ a.targetAgentId = some agentId ∧ a.messageId ∈ ids ∧
          a.notified ∧ a.targetRead = false then
        { a with targetRead := true }
      else a }

def addToGroup (groups : List (Target × Nat)) (row : UnreadRow) : List (Target × Nat) :=
  match Keyed.find Prod.fst row.target groups with
  | none => Keyed.put Prod.fst (row.target, row.message.sequence) groups
  | some existing =>
    if existing.2 < row.message.sequence then
      Keyed.put Prod.fst (row.target, row.message.sequence) groups
    else groups

/-- The targets of a page with the newest sequence of each. -/
def targetGroups (page : List UnreadRow) : List (Target × Nat) :=
  (page.filter fun row => !row.nonMemberMention).foldl addToGroup []

/-- Throws where the Agent has no membership to keep a thread's boundary under. -/
def advanceTarget (agentId : Uuid) (t : Tables) (group : Target × Nat) : Option Tables :=
  match group.1.threadRootId with
  | some rootId => (t.agentMember agentId group.1.conversationId).map fun member =>
      advanceThreadRead t member.id rootId group.2
  | none => some (advanceTopLevel t agentId group.1.conversationId group.2)

/-- The writes of a drain. -/
def settle (t : Tables) (workspaceId agentId : Uuid) (page : List UnreadRow) : Option Tables :=
  let nonMemberIds := (page.filter UnreadRow.nonMemberMention).map fun row => row.message.id
  (targetGroups page).foldlM (advanceTarget agentId) (markRead t workspaceId agentId nonMemberIds)

/-! ### `readMessagesPage` -/

inductive Anchor where
  | before | after | around
  deriving DecidableEq, Repr

structure PageOptions where
  anchor : Option (Anchor × Uuid) := none
  fromSequence : Option Nat := none
  throughSequence : Option Nat := none
  limit : Option Int := none
  deriving DecidableEq, Repr

/-- A read whose member, boundary and anchor were found. -/
structure OpenedRead where
  target : Target
  isChannel : Bool
  memberId : Uuid
  readThrough : Nat
  anchor : Option (Anchor × Nat)
  options : PageOptions
  deriving DecidableEq, Repr

def openRead (t : Tables) (agentId : Uuid) (target : Target) (options : PageOptions) :
    Option OpenedRead :=
  (t.conversation target.conversationId).bind fun c =>
    (t.agentMember agentId target.conversationId).bind fun own =>
      let opened (anchor : Option (Anchor × Nat)) : OpenedRead :=
        { target := target, isChannel := c.channelName.isSome, memberId := own.id
          readThrough := t.boundary own target.threadRootId, anchor := anchor, options := options }
      match options.anchor with
      | none => some (opened none)
      | some (kind, id) =>
        (t.messages.find? fun m => m.conversationId = target.conversationId ∧ m.id = id).bind
          fun m =>
            if m.threadRootId = target.threadRootId then some (opened (some (kind, m.sequence)))
            else none

/-- The newest sequence of a page that joins what the Agent had read. -/
def agentHistoryModelSeenBoundary (anchor : Option (Anchor × Nat)) (fromSequence : Option Nat)
    (readThrough : Nat) (minSequence maxSequence : Option Nat) (hasOlder : Bool) : Option Nat :=
  if fromSequence.isSome then none
  else
    match minSequence, maxSequence with
    | some least, some newest =>
      let joins :=
        match anchor with
        | none => true
        | some (.after, anchorSequence) => anchorSequence ≤ readThrough
        | some (.before, _) => !hasOlder || least ≤ readThrough
        | some (.around, _) => false
      if joins then some newest else none
    | _, _ => none

structure HistoryPage where
  messages : List Message
  hasOlder : Bool
  hasNewer : Bool
  modelSeenUpToSeq : Option Nat
  deriving DecidableEq, Repr

def ascending (ms : List Message) : List Message :=
  ms.insertionSort fun a b => a.sequence ≤ b.sequence

def descending (ms : List Message) : List Message :=
  ms.insertionSort fun a b => b.sequence ≤ a.sequence

/-- The messages of a read's target; of a channel up to a sequence, only the Agent's deliveries. -/
def OpenedRead.scope (r : OpenedRead) (t : Tables) (agentId : Uuid) : List Message :=
  t.messages.filter fun m => r.target.holds m ∧
    (r.isChannel ∧ r.options.throughSequence.isSome → t.delivered agentId m)

/-- The messages on both sides of an anchor. -/
def pageAround (r : OpenedRead) (t : Tables) (agentId : Uuid) (anchorSequence limit : Nat) :
    HistoryPage :=
  let beforeCount := (limit - 1) / 2
  let afterCount := limit - 1 - beforeCount
  let scope := r.scope t agentId
  let beforeRows := (descending (scope.filter fun m => m.sequence < anchorSequence)).take
    (beforeCount + 1)
  let anchorRows := (scope.filter fun m => m.sequence = anchorSequence).take 1
  let afterRows := (ascending (scope.filter fun m => anchorSequence < m.sequence)).take
    (afterCount + 1)
  { messages := (beforeRows.take beforeCount).reverse ++ anchorRows ++ afterRows.take afterCount
    hasOlder := beforeCount < beforeRows.length
    hasNewer := afterCount < afterRows.length
    modelSeenUpToSeq := none }

/-- Where an unanchored read starts: right after the boundary, unless a window is asked for. -/
def OpenedRead.effectiveFrom (r : OpenedRead) : Option Nat :=
  if r.anchor.isSome then r.options.fromSequence
  else some (r.options.fromSequence.getD (r.readThrough + 1))

def OpenedRead.isBefore (r : OpenedRead) : Bool :=
  r.anchor.any fun anchor => anchor.1 = .before

def OpenedRead.isAfter (r : OpenedRead) : Bool :=
  r.anchor.any fun anchor => anchor.1 = .after

/-- The sequences that a read asks for. -/
def OpenedRead.asks (r : OpenedRead) (m : Message) : Bool :=
  (r.effectiveFrom.all fun start => start ≤ m.sequence) &&
    (r.options.throughSequence.all fun through => m.sequence ≤ through) &&
      (r.anchor.all fun anchor =>
        match anchor.1 with
        | .before => m.sequence < anchor.2
        | .after => anchor.2 < m.sequence
        | .around => true)

def OpenedRead.limit (r : OpenedRead) : Nat := bounded (r.options.limit.getD 50)

/-- The rows of a read, one more than the page holds. -/
def OpenedRead.rows (r : OpenedRead) (t : Tables) (agentId : Uuid) : List Message :=
  let asked := (r.scope t agentId).filter r.asks
  (if r.isBefore then descending asked else ascending asked).take (r.limit + 1)

def readPage (t : Tables) (agentId : Uuid) (r : OpenedRead) : HistoryPage :=
  match r.anchor with
  | some (.around, anchorSequence) => pageAround r t agentId anchorSequence r.limit
  | _ =>
    let rows := r.rows t agentId
    let hasMore : Bool := r.limit < rows.length
    let messages := ascending (rows.take r.limit)
    let hasOlder := if r.isAfter then true else if r.isBefore then hasMore else false
    { messages := messages
      hasOlder := hasOlder
      hasNewer := if r.isBefore then true else hasMore
      modelSeenUpToSeq := agentHistoryModelSeenBoundary r.anchor r.options.fromSequence
        r.readThrough (messages.head?.map Message.sequence)
        (messages.getLast?.map Message.sequence) hasOlder }

/-- The write of a read: its boundary, where it lies above the one the read found. -/
def finishRead (t : Tables) (agentId : Uuid) (r : OpenedRead) (page : HistoryPage) : Tables :=
  match page.modelSeenUpToSeq.filter fun sequence => r.readThrough < sequence with
  | none => t
  | some sequence =>
    match r.target.threadRootId with
    | some rootId => advanceThreadRead t r.memberId rootId sequence
    | none => advanceTopLevel t agentId r.target.conversationId sequence

/-! ### Reads side by side -/

/-- The tables, the drains and the reads in flight, and what was returned: the pages of drains with
what they said of more, the last one first, and the messages of history pages. -/
structure World where
  tables : Tables
  drains : List Drain := []
  opened : List OpenedRead := []
  selected : List (OpenedRead × HistoryPage) := []
  answers : List (List Message × Bool) := []
  paged : List Message := []

inductive Event where
  | arrives (m : Message) (deliveries : List AgentMessageDelivery)
  | select (limit : Int) (target : Option Target)
  | commit (i : Nat)
  | rollback (i : Nat)
  | openRead (target : Target) (options : PageOptions)
  | selectPage (i : Nat)
  | finishRead (i : Nat)

/-- A new message keeps the schema, and its sequence exceeds every earlier one of its
conversation. -/
def Fits (t : Tables) (m : Message) (deliveries : List AgentMessageDelivery) : Prop :=
  (∀ x ∈ t.messages, x.id ≠ m.id) ∧
    (∃ c ∈ t.conversations, c.id = m.conversationId ∧ c.workspaceId = m.workspaceId) ∧
    (∀ rootId ∈ m.threadRootId, ∃ root ∈ t.messages,
      root.id = rootId ∧ root.conversationId = m.conversationId) ∧
    (∀ x ∈ t.messages, x.conversationId = m.conversationId → x.sequence < m.sequence) ∧
    (∀ d ∈ deliveries, d.messageId = m.id ∧ d.conversationId = m.conversationId ∧
      d.sequence = m.sequence ∧ ∀ x ∈ t.deliveries, x.deliveryId ≠ d.deliveryId) ∧
    (deliveries.map AgentMessageDelivery.deliveryId).Nodup ∧
    (deliveries.map AgentMessageDelivery.agentId).Nodup

instance (t : Tables) (m : Message) (deliveries : List AgentMessageDelivery) :
    Decidable (Fits t m deliveries) := inferInstanceAs (Decidable (_ ∧ _))

section Step

variable (workspaceId agentId : Uuid)

def step (w : World) : Event → Option World
  | .arrives m deliveries =>
    if Fits w.tables m deliveries then
      some { w with tables := { w.tables with
        messages := w.tables.messages ++ [m]
        deliveries := w.tables.deliveries ++ deliveries } }
    else none
  | .select limit target =>
    some { w with drains := drainPage w.tables workspaceId agentId limit target :: w.drains }
  | .commit i =>
    w.drains[i]?.map fun drain =>
      match settle w.tables workspaceId agentId drain.page with
      | none => { w with drains := w.drains.eraseIdx i }
      | some tables =>
        { w with
          tables := tables
          drains := w.drains.eraseIdx i
          answers := (drain.page.map UnreadRow.message, drain.hasMore) :: w.answers }
  | .rollback i => w.drains[i]?.map fun _ => { w with drains := w.drains.eraseIdx i }
  | .openRead target options =>
    (openRead w.tables agentId target options).map fun r => { w with opened := r :: w.opened }
  | .selectPage i =>
    w.opened[i]?.map fun r =>
      { w with
        opened := w.opened.eraseIdx i
        selected := (r, readPage w.tables agentId r) :: w.selected }
  | .finishRead i =>
    w.selected[i]?.map fun x =>
      { w with
        tables := finishRead w.tables agentId x.1 x.2
        selected := w.selected.eraseIdx i
        paged := x.2.messages ++ w.paged }

end Step

end Coforge.AttentionRule
