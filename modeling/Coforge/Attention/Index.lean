import Coforge.Lib.Ascending
import Mathlib

/-!
# The attention index of an Agent

The daemon keeps, for each Agent and target, what the Agent has been shown and what it has not.
The first is the consumed state: a contiguous frontier, the sequences above it shown one by one,
and when the target was last reviewed. It has a durable copy. The second is volatile: the
attention record a notice is counted from, the set of pending sequences, and a short window of
the newest deliveries.

The index is modelled for one Agent. Its maps are functions of the target, and what an operation
does for each target of a set it does for all of them at once, since each target's part touches
that target's entries only.
-/

namespace Coforge.Attention

/-- A message target: a channel, a thread or a direct conversation. -/
abbrev Target := String

/-! ### Exact sequences -/

def heldContextLimit : Nat := 3

def seenExactSeqsLimit : Nat := 2500

def mergeSeenExactSeqs (after : Nat) (left right : List Nat) : List Nat :=
  History.sliceLast seenExactSeqsLimit (Ascending.mergeAbove after left right)

/-- The exact sequences of a target, ascending and each of them once. -/
structure Exact where
  seqs : List Nat
  ascending : seqs.Pairwise (· < ·)

namespace Exact

@[ext] lemma ext {e f : Exact} (h : e.seqs = f.seqs) : e = f := by
  cases e
  cases f
  congr

instance : DecidableEq Exact := fun e f => decidable_of_iff (e.seqs = f.seqs) ⟨ext, congrArg seqs⟩

def empty : Exact := ⟨[], List.Pairwise.nil⟩

instance : EmptyCollection Exact := ⟨empty⟩

instance : Inhabited Exact := ⟨∅⟩

instance : Membership Nat Exact := ⟨fun e n => n ∈ e.seqs⟩

lemma mem_def {e : Exact} {n : Nat} : n ∈ e ↔ n ∈ e.seqs := Iff.rfl

@[simp] lemma not_mem_empty (n : Nat) : n ∉ (∅ : Exact) := List.not_mem_nil

/-- `containsSorted`. -/
def contains (e : Exact) (n : Nat) : Bool := Ascending.holds e.seqs n

@[simp] lemma contains_iff {e : Exact} {n : Nat} : e.contains n ↔ n ∈ e :=
  Ascending.holds_iff e.ascending

/-- What is left of the exact sequences once the frontier has reached `frontier`. -/
def above (frontier : Nat) (e : Exact) : Exact :=
  ⟨Ascending.above frontier e.seqs, Ascending.pairwise_above e.ascending frontier⟩

@[simp] lemma mem_above {e : Exact} {frontier n : Nat} :
    n ∈ e.above frontier ↔ n ∈ e ∧ frontier < n :=
  Ascending.mem_above e.ascending

/-- The incoming sequences in ascending order. They usually are already. -/
def sortIncoming (sequences : List Nat) : List Nat := sequences.mergeSort

lemma pairwise_sortIncoming (sequences : List Nat) : (sortIncoming sequences).Pairwise (· ≤ ·) := by
  have h := @List.pairwise_mergeSort _ (fun a b : Nat => decide (a ≤ b))
    (by simpa using fun a b c : Nat => le_trans) (by simpa using le_total) sequences
  simpa [sortIncoming] using h

/-- The exact sequences above a frontier with incoming ones added. -/
def merge (frontier : Nat) (e : Exact) (sequences : List Nat) : Exact where
  seqs := mergeSeenExactSeqs frontier e.seqs (sortIncoming sequences)
  ascending := (Ascending.pairwise_mergeAbove frontier (e.ascending.imp fun h => h.le)
    (pairwise_sortIncoming sequences)).sublist (History.sliceLast_sublist _ _)

end Exact

/-! ### The consumed state -/

/-- The consumed cursor of one target. A missing `seq` or `reviewedSeq` is read as 0. -/
structure ConsumedSeqEntry where
  seq : Nat
  exactSeqs : Exact
  readOrder : Option Nat
  reviewedSeq : Nat
deriving DecidableEq, Inhabited

def ConsumedSeqEntry.empty : ConsumedSeqEntry := ⟨0, ∅, none, 0⟩

/-- The durable copy of an Agent's consumed state. -/
structure ConsumedSeqState where
  targets : Target → ConsumedSeqEntry
  aliases : Target → Option Target
  nextReadOrder : Nat

def ConsumedSeqState.empty : ConsumedSeqState := ⟨fun _ => .empty, fun _ => none, 1⟩

/-! ### Deliveries -/

inductive MessageSenderKind where
  | human
  | agent
  | system
deriving DecidableEq

/-- A message delivered to the Agent. A delivery without a target has the empty one. -/
structure Delivery where
  workspaceId : String
  agentId : String
  conversationId : String
  messageId : String
  deliveryId : String
  body : String
  target : Target
  sequence : Nat
  latestSenderKind : Option MessageSenderKind
  latestSenderHandle : String
  nonMemberMention : Bool
deriving DecidableEq

def isLowerHex (c : Char) : Bool := c.isDigit || ('a' ≤ c && c ≤ 'f')

def isHandleStart (c : Char) : Bool := c.isDigit || c.isLower

def isHandleChar (c : Char) : Bool := isHandleStart c || c = '_' || c = '-'

/-- Eight hexadecimal digits, or a whole UUID. -/
def isThreadRoot (root : List Char) : Bool :=
  let groups := root.splitOn '-'
  groups.all (fun group => group.all isLowerHex) &&
    (groups.map List.length = [8] || groups.map List.length = [8, 4, 4, 4, 12])

/-- `#name`, or `#name:root` for a thread. -/
def isChannelMessageTarget (target : Target) : Bool :=
  match target.toList with
  | '#' :: first :: rest =>
    let name := rest.takeWhile isHandleChar
    isHandleStart first && name.length ≤ 31 &&
      match rest.dropWhile isHandleChar with
      | []          => true
      | ':' :: root => isThreadRoot root
      | _           => false
  | _ => false

/-- The root of a thread target, after its first `:`. -/
def threadRootTarget (target : Target) : Option String :=
  match target.toList.dropWhile (· ≠ ':') with
  | []        => none
  | _ :: root => some (String.ofList root)

def isUuidLike (value : List Char) : Bool :=
  let groups := value.splitOn '-'
  groups.all (fun group => group.all fun c => isLowerHex c.toLower) &&
    groups.map List.length = [8, 4, 4, 4, 12]

def isPrintableSenderHandle (handle : String) : Bool :=
  (match handle.toList with
    | []        => false
    | c :: rest => isHandleStart c && rest.all isHandleChar) &&
    handle.length ≤ 64 && !isUuidLike handle.toList

def isValidMessageSender : MessageSenderKind → String → Bool
  | .system, handle => handle = ""
  | _, handle       => isPrintableSenderHandle handle

def printableSender (kind : Option MessageSenderKind) (handle : String) :
    Option (MessageSenderKind × String) :=
  kind.bind fun k => if isValidMessageSender k handle then some (k, handle) else none

/-- The fields every delivery must carry before it can touch attention. -/
def hasDeliveryScope (message : Delivery) : Bool :=
  message.conversationId ≠ "" && message.agentId ≠ "" && message.messageId ≠ "" &&
    message.body ≠ "" && message.target ≠ "" &&
    (message.target.startsWith "@" || isChannelMessageTarget message.target) &&
    2 ≤ message.target.length && 1 ≤ message.sequence

/-! ### Unreviewed messages -/

inductive AttentionFlag where
  | channel
  | thread
  | dm
  | nonMemberMention
deriving DecidableEq

structure MessageAttention where
  target : Target
  pendingCount : Nat
  firstPendingSequence : Nat
  latestSequence : Nat
  latestSender : Option (MessageSenderKind × String)
  flags : List AttentionFlag
deriving DecidableEq

/-- A delivery with the moment the daemon learned about it. -/
structure PendingWindowEntry where
  delivery : Delivery
  receivedAt : Nat
deriving DecidableEq

/-- What the Agent has not been shown of one target: its attention, its pending sequences (`none`
where there is no set), the window of its newest deliveries and the conversation they are in. -/
structure Unreviewed where
  attention : Option MessageAttention
  pendingSequences : Option (Finset Nat)
  pendingWindow : List PendingWindowEntry
  conversation : Option String
deriving DecidableEq

def Unreviewed.empty : Unreviewed := ⟨none, none, [], none⟩

/-- The pending sequences, none where there is no set. -/
def Unreviewed.pending (u : Unreviewed) : Finset Nat := u.pendingSequences.getD ∅

@[simp] lemma Unreviewed.pending_empty : Unreviewed.empty.pending = ∅ := rfl

/-! ### The index -/

structure Index where
  consumed : Target → ConsumedSeqEntry
  unreviewed : Target → Unreviewed
  aliases : Target → Option Target
  conversationTargets : String → Target → Bool
  readContextCounter : Nat
  hydrated : Bool
  /-- The durable state, where the index was given a store. -/
  durable : Option ConsumedSeqState
  /-- Writes of the durable state are best-effort. -/
  diskFails : Bool

namespace Index

/-- The index of an Agent that nothing has touched yet. -/
def init (durable : Option ConsumedSeqState) : Index where
  consumed := fun _ => .empty
  unreviewed := fun _ => .empty
  aliases := fun _ => none
  conversationTargets := fun _ _ => false
  readContextCounter := 0
  hydrated := false
  durable := durable
  diskFails := false

/-- The entry of one target rewritten. -/
def withConsumed (s : Index) (target : Target) (entry : ConsumedSeqEntry) : Index :=
  { s with consumed := fun t => if t = target then entry else s.consumed t }

def withUnreviewed (s : Index) (target : Target) (entry : Unreviewed) : Index :=
  { s with unreviewed := fun t => if t = target then entry else s.unreviewed t }

/-! ### The durable copy -/

/-- Loads the durable state into the index's own maps, once. -/
def hydrate (s : Index) : Index :=
  match s.durable with
  | none => s
  | some state =>
    if s.hydrated then s
    else { s with
      hydrated := true
      consumed := state.targets
      aliases := state.aliases
      readContextCounter := state.nextReadOrder - 1 }

/-- Writes one snapshot of the consumed state. -/
def persist (s : Index) : Index :=
  if s.durable.isNone || s.diskFails then s
  else { s with durable := some ⟨s.consumed, s.aliases, s.readContextCounter + 1⟩ }

/-! ### Reads -/

def modelSeenSequence (s : Index) (target : Target) : Nat := (s.hydrate.consumed target).seq

def seenExactSequences (s : Index) (target : Target) : List Nat :=
  (s.hydrate.consumed target).exactSeqs.seqs

def resolveTarget (s : Index) (target : Target) : Target := (s.hydrate.aliases target).getD target

/-- Whether the Agent has been shown a message of a canonical target. -/
def hasSeen (s : Index) (target : Target) (sequence : Nat) : Bool :=
  sequence ≤ s.modelSeenSequence target ||
    (s.hydrate.consumed target).exactSeqs.contains sequence

def attention (s : Index) (target : Target) : Option MessageAttention :=
  (s.unreviewed target).attention

def pendingMessageCount (s : Index) (target : Target) : Nat :=
  ((s.attention target).map MessageAttention.pendingCount).getD 0

def pendingMaxSequence (s : Index) (target : Target) : Nat :=
  (s.unreviewed target).pending.sup id

/-- The newest unreviewed deliveries, oldest first. -/
def pendingWindow (s : Index) (target : Target) (limit : Nat) : List PendingWindowEntry :=
  History.sliceLast limit (s.unreviewed target).pendingWindow

/-! ### Recording a delivery -/

def recordConversation (s : Index) (target : Target) (conversationId : String) : Index :=
  if (s.unreviewed target).conversation = some conversationId then s
  else
    { s.withUnreviewed target { s.unreviewed target with conversation := some conversationId } with
      conversationTargets := fun c t =>
        (c = conversationId && t = target) || s.conversationTargets c t }

def targetFlag (target : Target) : AttentionFlag :=
  if isChannelMessageTarget target then .channel
  else if target.toList.contains ':' then .thread
  else .dm

def attentionFlags (target : Target) (nonMemberMention : Bool)
    (previous : Option MessageAttention) : List AttentionFlag :=
  targetFlag target ::
    if nonMemberMention || previous.any fun a => a.flags.contains .nonMemberMention then
      [.nonMemberMention] else []

/-- The attention of a target after one more delivery. -/
def nextAttention (message : Delivery) (previous : Option MessageAttention) : MessageAttention where
  target := message.target
  pendingCount := (previous.map MessageAttention.pendingCount).getD 0 + 1
  firstPendingSequence :=
    (previous.map MessageAttention.firstPendingSequence).getD message.sequence
  latestSequence := max ((previous.map MessageAttention.latestSequence).getD 0) message.sequence
  latestSender := printableSender message.latestSenderKind message.latestSenderHandle
  flags := attentionFlags message.target message.nonMemberMention previous

/-- Records one delivery the Agent has not been shown yet. -/
def recordAttention (s : Index) (message : Delivery) (now : Nat) : Index :=
  let u := s.unreviewed message.target
  let s := s.withUnreviewed message.target { u with
    attention := some (nextAttention message u.attention)
    pendingSequences := some (insert message.sequence u.pending)
    pendingWindow := History.sliceLast heldContextLimit (u.pendingWindow ++ [⟨message, now⟩]) }
  s.recordConversation message.target message.conversationId

/-! ### Settling -/

/-- One target's entry after the sequences that `settled` covers were dropped from it. -/
def settleEntry (settled : Nat → Bool) (u : Unreviewed) : Unreviewed :=
  let pending := u.pending.filter fun n => !settled n
  let kept : Unreviewed := { u with
    pendingSequences := u.pendingSequences.map fun _ => pending
    pendingWindow := u.pendingWindow.filter fun entry => !settled entry.delivery.sequence }
  match u.attention with
  | none => kept
  | some a =>
    if pending = ∅ then .empty
    else if pending.card = a.pendingCount then kept
    else { kept with attention := some { a with
      pendingCount := pending.card
      firstPendingSequence := pending.fold min (pending.sup id) id } }

/-- Whether settling an entry clears it. -/
def settleClears (settled : Nat → Bool) (u : Unreviewed) : Bool :=
  u.attention.isSome && u.pending.filter (fun n => !settled n) = ∅

/-- A cleared target leaves the conversation it is recorded in. -/
def forgetConversations (s : Index) (cleared : Target → Bool) : String → Target → Bool :=
  fun c t => s.conversationTargets c t &&
    !(cleared t && (s.unreviewed t).conversation = some c)

/-- Drops what `settled` covers from each of the targets, and the attention of those that have
nothing pending left. -/
def settleTargets (s : Index) (targets : Target → Bool) (settled : Nat → Bool) : Index :=
  { s with
    unreviewed := fun t =>
      if targets t then settleEntry settled (s.unreviewed t) else s.unreviewed t
    conversationTargets :=
      s.forgetConversations fun t => targets t && settleClears settled (s.unreviewed t) }

def settlePending (s : Index) (target : Target) (settled : Nat → Bool) : Index :=
  s.settleTargets (fun t => t = target) settled

/-- Settles everything of a target the Agent has seen. -/
def settleSeen (s : Index) (target : Target) : Index :=
  let c := s.consumed target
  s.settlePending target fun n => n ≤ c.seq || c.exactSeqs.contains n

/-! ### Clearing -/

def clearAll (s : Index) (targets : Target → Bool) : Index :=
  { s with
    unreviewed := fun t => if targets t then .empty else s.unreviewed t
    conversationTargets := s.forgetConversations targets }

def clear (s : Index) (target : Target) : Index := s.clearAll fun t => t = target

def clearThrough (s : Index) (target : Target) (sequence : Nat) : Index :=
  match s.attention target with
  | none   => s.clear target
  | some a => if a.latestSequence ≤ sequence then s.clear target else s

/-- Forgets the attention of channels the Agent can no longer read, and of the threads under
them. -/
def clearTargets (s : Index) (targets : List Target) : Index :=
  s.clearAll fun t =>
    let u := s.unreviewed t
    (u.attention.isSome || u.pendingSequences.isSome || u.pendingWindow ≠ []) &&
      targets.any fun channel => t = channel || t.startsWith (channel ++ ":")

/-- Forgets the Agent. Its durable state stays. -/
def clearAgent (s : Index) : Index :=
  { init s.durable with diskFails := s.diskFails }

/-! ### Consuming -/

/-- Adds sequences above the frontier to a target's exact ones. Whether anything changed. -/
def addExact (s : Index) (target : Target) (sequences : List Nat) : Index × Bool :=
  if sequences = [] then (s, false)
  else
    let c := s.consumed target
    let merged := c.exactSeqs.merge c.seq sequences
    if merged = c.exactSeqs then (s, false)
    else (s.withConsumed target { c with exactSeqs := merged }, true)

/-- Moves a target's frontier up, drops the exact sequences it now covers and settles what is
pending at or below it. Whether it moved. -/
def advanceFrontier (s : Index) (target : Target) (sequence : Nat) : Index × Bool :=
  let c := s.consumed target
  if sequence ≤ c.seq then (s, false)
  else
    let s := s.withConsumed target
      { c with seq := sequence, exactSeqs := c.exactSeqs.above sequence }
    (s.settlePending target fun n => n ≤ sequence, true)

/-- A review of a target orders it after every other one. -/
def takeReadOrder (s : Index) (target : Target) (sequence : Nat) : Index :=
  let c := s.consumed target
  { s.withConsumed target { c with
      reviewedSeq := if 0 < sequence then max c.reviewedSeq sequence else c.reviewedSeq
      readOrder := some (s.readContextCounter + 1) } with
    readContextCounter := s.readContextCounter + 1 }

/-- Maps a spelling to a canonical target, and repoints every spelling that named it. -/
def setAlias (s : Index) (spelling canonical : Target) : Index × Bool :=
  if spelling = "" || canonical = "" || spelling = canonical then (s, false)
  else
    let named := (s.aliases canonical).getD canonical
    -- `canonical` was itself a spelling of `spelling`: the newer mapping wins
    let aliases := if named = spelling then fun t => if t = canonical then none else s.aliases t
      else s.aliases
    let target := if named = spelling then canonical else named
    let repointed : Target → Option Target := fun t =>
      if t = spelling || aliases t = some spelling then some target else aliases t
    if aliases spelling = some target then ({ s with aliases := aliases }, false)
    else ({ s with aliases := repointed }, true)

def sameThreadRoot (left : Option String) (right : String) : Bool :=
  match left with
  | none => false
  | some left =>
    let a := left.toLower
    let b := right.toLower
    a = b || if a.length < b.length then b.startsWith a else a.startsWith b

inductive ChannelType where
  | dm
  | thread
deriving DecidableEq

/-- The conversation a history read consumed, as the server names it. -/
structure ConsumptionScope where
  conversationId : String
  channelType : ChannelType
  target : Target

/-- Whether a target of the conversation is in the scope: a direct conversation has no threads,
and a thread is known by its root. -/
def ConsumptionScope.covers (scope : ConsumptionScope) (target : Target) : Bool :=
  let root := threadRootTarget target
  match scope.channelType with
  | .dm     => root.isNone
  | .thread => (threadRootTarget scope.target).any fun scopeRoot => sameThreadRoot root scopeRoot

/-- Settles, in every other target of the scope, exactly the messages a read returned. -/
def settleScope (s : Index) (scope : ConsumptionScope) (shown : List Nat) (settled : Target) :
    Index :=
  if shown = [] then s
  else s.settleTargets
    (fun t => s.conversationTargets scope.conversationId t && t ≠ settled && scope.covers t)
    (Ascending.holds shown)

/-! ### Bookkeeping of reads and sends -/

def recordModelSeen (s : Index) (target : Target) (sequence : Nat) : Index :=
  if sequence < 1 then s
  else
    let (s, changed) := s.hydrate.advanceFrontier target sequence
    if changed then s.persist else s

def recordReadContext (s : Index) (target : Target) (sequence : Nat) : Index :=
  (s.hydrate.takeReadOrder target sequence).persist

/-- One target of what a `check` showed. -/
def recordExactTarget (r : Index × Bool) (shown : Target × List Nat) : Index × Bool :=
  if shown.1 = "" then r
  else
    let (s, added) := r.1.addExact shown.1 shown.2
    if added then (s.settleSeen shown.1, true) else (s, r.2)

/-- Records the messages the Agent was shown one by one. -/
def recordExactSeen (s : Index) (shown : List (Target × List Nat)) : Index :=
  let (s, changed) := shown.foldl recordExactTarget (s.hydrate, false)
  if changed then s.persist else s

/-- What one history read showed the Agent. -/
structure HistoryRead where
  spelling : Target
  target : Target
  shown : List Nat
  through : Nat
  review : Option Nat
  scope : Option ConsumptionScope

def recordHistoryRead (s : Index) (read : HistoryRead) : Index :=
  let (s, aliased) := s.hydrate.setAlias read.spelling read.target
  let (s, moved) := if 0 < read.through then s.advanceFrontier read.target read.through
    else (s, false)
  let (s, added) := s.addExact read.target read.shown
  let s := s.settleSeen read.target
  let s := match read.review with
    | none          => s
    | some sequence => s.takeReadOrder read.target sequence
  let s := match read.scope with
    | none       => s
    | some scope => s.settleScope scope read.shown read.target
  if aliased || moved || added || read.review.isSome then s.persist else s

/-- The consume effect of a send: the frontier moves, and a presented context also reviews the
target. -/
def recordSendContext (s : Index) (target : Target) (through : Nat) (review : Option Nat) :
    Index :=
  if through < 1 then s
  else
    let (s, changed) := s.hydrate.advanceFrontier target through
    let s := match review with
      | none          => s
      | some sequence => s.takeReadOrder target sequence
    if changed || review.isSome then s.persist else s

def recordTargetAlias (s : Index) (spelling canonical : Target) : Index :=
  let (s, changed) := s.hydrate.setAlias spelling canonical
  if changed then s.persist else s

end Index

end Coforge.Attention
