import Coforge.AttentionRule.History
import Mathlib

/-!
# The freshness decision of a send

Before an Agent's message is sent the server looks at what the Agent has not seen of the target. The
Agent reports a boundary, and the messages above it that it was shown one by one; the server moves
its own boundary there and reads what is left. A send goes through where nothing is left, and is
held otherwise.

`planAgentSend` decides over a port of reads (`AgentTargetFreshness`), and `agentTargetFreshness`
answers these from the tables. What a held send would be told lies in `HeldSend`; the digest that
identifies the decision is left out, and the facts it is made of are kept.
-/

namespace Coforge.AttentionRule

open List

/-- How many newer messages a held notice shows. -/
def heldContextLimit : Nat := 3

inductive FreshnessContextMode where
  | inline | withheld
  deriving DecidableEq, Repr

/-- What a send says of the freshness of its target. -/
structure AgentSendMessageInput where
  continueAnyway : Bool := false
  draftReholdCount : Option Nat := none
  seenUpToSeq : Option Nat := none
  seenExactSeqs : List Nat := []
  freshnessContextMode : Option FreshnessContextMode := none
  deriving DecidableEq, Repr

/-- What was read of a target's newest messages: those that the Agent was not shown, and the newest
sequence of all of them. -/
structure RecentContext where
  unseen : List Message
  maxSequence : Option Nat
  deriving DecidableEq, Repr

/-- The reads of one resolved target. -/
structure AgentTargetFreshness where
  readPending : Option Nat → List Nat → List Message
  countPending : Option Nat → List Nat → Nat
  maxPendingSequence : Option Nat → Option Nat
  readRecent : Nat → List Nat → RecentContext
  readThrough : Nat

inductive SendDecision where
  | forward | bypass | localHold | syncingHold
  deriving DecidableEq, Repr

inductive SendReason where
  | continueAnyway
  | exactTargetPending
  | exactTargetPendingAlreadySeen
  | modelSeenBoundary
  | targetFirstTouchRecentContextAlreadySeen
  | targetFirstTouchRecentContext
  | noExactTargetPendingOrRecentContext
  deriving DecidableEq, Repr

structure FreshnessDecisionFact where
  pendingMaxSeq : Option Nat := none
  modelSeenSeq : Option Nat := none
  heldMessageCount : Option Nat := none
  omittedMessageCount : Option Nat := none
  deriving DecidableEq, Repr

structure HeldSend where
  decision : SendDecision
  reason : SendReason
  fact : FreshnessDecisionFact
  continueAnywaySuggested : Bool
  heldMessages : List Message
  newMessageCount : Nat
  shownMessageCount : Nat
  omittedMessageCount : Nat
  seenUpToSeq : Nat
  withheldMessageCount : Option Nat := none
  deriving DecidableEq, Repr

/-- A send the plan lets through. -/
structure ForwardPlan where
  decision : SendDecision
  reason : SendReason
  fact : FreshnessDecisionFact
  advanceTo : Option Nat := none
  recentUnread : Option (List Message) := none
  deriving DecidableEq, Repr

inductive SendPlan where
  | held (send : HeldSend)
  | forward (plan : ForwardPlan)
  deriving DecidableEq, Repr

/-- A boundary or a maximum, where there is one: 0 is none. -/
def nonzero (n : Nat) : Option Nat := if n = 0 then none else some n

def maxSequence (messages : List Message) : Nat :=
  messages.foldl (fun newest message => max newest message.sequence) 0

/-- The last messages of a list, as many as a notice shows. -/
def lastShown (messages : List Message) : List Message :=
  messages.drop (messages.length - heldContextLimit)

def AgentSendMessageInput.withheld (input : AgentSendMessageInput) : Bool :=
  input.freshnessContextMode = some .withheld

def AgentSendMessageInput.continueAnywaySuggested (input : AgentSendMessageInput) : Bool :=
  1 ≤ input.draftReholdCount.getD 0

/-- A hold over what the Agent has not seen of exactly this target. -/
def localHold (freshness : AgentTargetFreshness) (seen : Nat) (input : AgentSendMessageInput)
    (unconsumed : List Message) : HeldSend :=
  let heldMessages := if input.withheld then [] else lastShown unconsumed
  let newMessageCount := freshness.countPending (nonzero seen) input.seenExactSeqs
  { decision := .localHold
    reason := .exactTargetPending
    fact :=
      { pendingMaxSeq := some (maxSequence unconsumed)
        modelSeenSeq := nonzero seen
        heldMessageCount := some heldMessages.length
        omittedMessageCount := some (newMessageCount - heldMessages.length) }
    continueAnywaySuggested := input.continueAnywaySuggested
    heldMessages := heldMessages
    newMessageCount := newMessageCount
    shownMessageCount := heldMessages.length
    omittedMessageCount := newMessageCount - heldMessages.length
    seenUpToSeq := maxSequence unconsumed
    withheldMessageCount := if input.withheld then some newMessageCount else none }

/-- A send to a target that the Agent has no boundary in, and where nothing is pending. -/
def firstTouch (freshness : AgentTargetFreshness) (input : AgentSendMessageInput) : SendPlan :=
  let recent := if input.withheld then ⟨[], none⟩
    else freshness.readRecent heldContextLimit input.seenExactSeqs
  match recent.maxSequence with
  | none =>
    .forward { decision := .forward, reason := .noExactTargetPendingOrRecentContext, fact := {} }
  | some recentMaxSeq =>
    if recent.unseen = [] then
      .forward
        { decision := .forward
          reason := .targetFirstTouchRecentContextAlreadySeen
          fact :=
            { pendingMaxSeq := some recentMaxSeq
              modelSeenSeq := some recentMaxSeq
              heldMessageCount := some 0
              omittedMessageCount := some 0 }
          advanceTo := some recentMaxSeq }
    else
      let heldMessages := lastShown recent.unseen
      .held
        { decision := .syncingHold
          reason := .targetFirstTouchRecentContext
          fact :=
            { pendingMaxSeq := some (maxSequence recent.unseen)
              heldMessageCount := some heldMessages.length
              omittedMessageCount := some (recent.unseen.length - heldMessages.length) }
          continueAnywaySuggested := input.continueAnywaySuggested
          heldMessages := heldMessages
          newMessageCount := recent.unseen.length
          shownMessageCount := heldMessages.length
          omittedMessageCount := recent.unseen.length - heldMessages.length
          seenUpToSeq := recentMaxSeq }

/-- The plan of a send, once its reported boundary was taken over as far as the target goes
(`seen`; 0 without one). -/
def planAgentSend (freshness : AgentTargetFreshness) (seen : Nat) (input : AgentSendMessageInput) :
    SendPlan :=
  let unconsumed := freshness.readPending (nonzero seen) input.seenExactSeqs
  if input.continueAnyway then
    .forward
      { decision := .bypass
        reason := .continueAnyway
        fact := { modelSeenSeq := nonzero seen }
        recentUnread := some (if input.withheld then [] else lastShown unconsumed) }
  else if unconsumed ≠ [] then .held (localHold freshness seen input unconsumed)
  else
    let pendingMaxSeq := if input.seenExactSeqs = [] then 0
      else (freshness.maxPendingSequence (nonzero seen)).getD 0
    if 0 < pendingMaxSeq then
      let known := max seen freshness.readThrough
      .forward
        { decision := .forward
          reason := .exactTargetPendingAlreadySeen
          fact :=
            { pendingMaxSeq := some pendingMaxSeq
              modelSeenSeq := nonzero known
              heldMessageCount := some 0
              omittedMessageCount := some 0 }
          advanceTo := if pendingMaxSeq ≤ known then some pendingMaxSeq else none }
    else if 0 < seen then
      .forward
        { decision := .forward, reason := .modelSeenBoundary, fact := { modelSeenSeq := some seen } }
    else firstTouch freshness input

/-! ### The reads from the tables -/

section Tables

variable (t : Tables) (agentId : Uuid) (target : Target) (isChannel : Bool)

/-- A scope less the messages that the Agent was shown one by one. -/
def AgentAttentionScope.excluding (scope : AgentAttentionScope) (sequences : List Nat) :
    AgentAttentionScope :=
  { scope with excludeSequences := sequences }

/-- The newest messages of a list, newest first. -/
def newest (messages : List Message) (limit : Nat) : List Message :=
  (descending messages).take limit

/-- A target's newest messages, those the Agent owes attention to and its own, with whether it has
seen each: its own ones and those it was shown. -/
def recentWindow (limit : Nat) (excluding : List Nat) : List (Message × Bool) :=
  let own := t.agentMember agentId target.conversationId
  let others := newest (agentAttentionSource t
    { agentId := agentId
      conversationId := target.conversationId
      threadRootId := target.threadRootId
      isChannel := isChannel
      ownMemberId := own.map ConversationMember.id }) limit
  let mine := own.elim [] fun member =>
    newest (t.messages.filter fun m => target.holds m ∧ m.senderMemberId = some member.id) limit
  ((others.map fun m => (m, decide (m.sequence ∈ excluding))) ++
    mine.map fun m => (m, true)).insertionSort (fun a b => b.1.sequence ≤ a.1.sequence) |>.take limit

/-- `agentTargetFreshness` of a resolved target. -/
def agentTargetFreshness : AgentTargetFreshness where
  readPending after excluding :=
    ascending (newest (agentAttentionSource t
      ((pendingScope t agentId target.conversationId target.threadRootId isChannel after).excluding
        excluding)) heldContextLimit)
  countPending after excluding :=
    (agentAttentionSource t
      ((pendingScope t agentId target.conversationId target.threadRootId isChannel after).excluding
        excluding)).length
  maxPendingSequence after :=
    ((agentAttentionSource t (pendingScope t agentId target.conversationId target.threadRootId
      isChannel after)).map Message.sequence).max?
  readRecent limit excluding :=
    let window := recentWindow t agentId target isChannel limit excluding
    { unseen := ascending ((window.filter fun row => !row.2).map Prod.fst)
      maxSequence := window.head?.map fun row => row.1.sequence }
  readThrough := boundaryAt t agentId target

/-- The newest sequence of a target, 0 without a message. -/
def latestSequence : Nat :=
  ((t.messages.filter target.holds).map Message.sequence).max?.getD 0

/-- The boundary a send may move to is bounded by the target's newest message. A thread's is kept
under the Agent's membership, so without one this throws. -/
def advanceAgentReadThrough (seenUpToSequence : Nat) : Option (Nat × Tables) :=
  let bounded := min seenUpToSequence (latestSequence t target)
  if bounded = 0 then some (0, t)
  else
    match target.threadRootId with
    | some rootId => (t.agentMember agentId target.conversationId).map fun member =>
        (bounded, advanceThreadRead t member.id rootId bounded)
    | none => some (bounded, advanceTopLevel t agentId target.conversationId bounded)

/-- The plan of a send to a target of the tables, and the tables its reported boundary leaves. -/
def planSend (input : AgentSendMessageInput) : Option (SendPlan × Tables) :=
  (t.conversation target.conversationId).bind fun c =>
    (input.seenUpToSeq.elim (some (0, t)) (advanceAgentReadThrough t agentId target)).map
      fun (seen, t') =>
        (planAgentSend (agentTargetFreshness t' agentId target c.channelName.isSome) seen input, t')

end Tables

/-! ### What the decision promises -/

/-- Tables whose messages are numbered from 1, as every writer numbers them. -/
structure Numbered extends Database where
  positive : ∀ m ∈ messages, 0 < m.sequence

section Promise

variable (t : Tables) (agentId : Uuid) (target : Target)

/-- A message of the target by another author that the Agent owes attention to: a user sent it or it
was delivered to the Agent, and in a channel it was delivered. -/
structure OwedByOther (m : Message) : Prop where
  message : m ∈ t.messages
  place : m.target = target
  other : ∀ own, t.agentMember agentId target.conversationId = some own →
    m.senderMemberId ≠ some own.id
  owed : t.userSent m ∨ t.delivered agentId m
  delivered : InChannel t target → t.delivered agentId m

/-- The sequences of what the Agent owes attention to above a boundary, less those it reports. -/
def unconsumedSequences (boundary : Nat) (exact : List Nat) : Set Nat :=
  {s | ∃ m, OwedByOther t agentId target m ∧ m.sequence = s ∧ boundary < s ∧ s ∉ exact}

/-- What the plan of a send means for what the Agent has seen, where it reported a boundary. -/
structure DecidesBySeen (input : AgentSendMessageInput) (reported : Nat) (plan : SendPlan) :
    Prop where
  forwards : ∀ p, plan = .forward p →
    unconsumedSequences t agentId target (min reported (latestSequence t target))
      input.seenExactSeqs = ∅
  advances : ∀ p n, plan = .forward p → p.advanceTo = some n → ∀ m,
    OwedByOther t agentId target m → m.sequence ≤ n →
      m.sequence ≤ reported ∨ m.sequence ∈ input.seenExactSeqs
  held : ∀ h, plan = .held h → IsGreatest (unconsumedSequences t agentId target
    (min reported (latestSequence t target)) input.seenExactSeqs) h.seenUpToSeq
  presents : ∀ h, plan = .held h → if input.withheld then h.heldMessages = []
    else IsGreatest {s | ∃ m ∈ h.heldMessages, m.sequence = s} h.seenUpToSeq

end Promise

/-! ### Lists of messages -/

section Lists

variable {ms : List Message} {m : Message}

lemma mem_ascending : m ∈ ascending ms ↔ m ∈ ms := mem_insertionSort _

lemma mem_descending : m ∈ descending ms ↔ m ∈ ms := mem_insertionSort _

lemma maxSequence_mem (start : Nat) (ms : List Message) :
    ms.foldl (fun newest message => max newest message.sequence) start = start ∨
      ∃ m ∈ ms, m.sequence =
        ms.foldl (fun newest message => max newest message.sequence) start := by
  induction ms generalizing start with
  | nil => exact .inl rfl
  | cons x ms ih =>
    rcases ih (max start x.sequence) with hstart | ⟨m, hm, heq⟩
    · rw [foldl_cons, hstart]
      rcases max_choice start x.sequence with hmax | hmax
      · exact .inl hmax
      · exact .inr ⟨x, mem_cons_self, hmax.symm⟩
    · exact .inr ⟨m, mem_cons_of_mem x hm, heq⟩

lemma le_maxSequence_start (start : Nat) (ms : List Message) :
    start ≤ ms.foldl (fun newest message => max newest message.sequence) start := by
  induction ms generalizing start with
  | nil => exact le_refl start
  | cons x ms ih => exact (le_max_left _ _).trans (ih _)

lemma le_maxSequence (hm : m ∈ ms) (start : Nat) :
    m.sequence ≤ ms.foldl (fun newest message => max newest message.sequence) start := by
  induction ms generalizing start with
  | nil => cases hm
  | cons x ms ih =>
    rcases mem_cons.mp hm with rfl | hm
    · exact (le_max_right _ _).trans (le_maxSequence_start _ _)
    · exact ih hm _

lemma isGreatest_maxSequence (hne : ms ≠ []) :
    IsGreatest {s | ∃ m ∈ ms, m.sequence = s} (maxSequence ms) := by
  constructor
  · obtain ⟨x, hx⟩ := exists_mem_of_ne_nil ms hne
    rcases maxSequence_mem 0 ms with hzero | hmem
    · -- every sequence is 0 then
      have hle := le_maxSequence hx 0
      rw [hzero] at hle
      exact ⟨x, hx, (Nat.le_zero.mp hle).trans hzero.symm⟩
    · exact hmem
  · rintro s ⟨m, hm, rfl⟩
    exact le_maxSequence hm 0

lemma isGreatest_newest {limit s : Nat}
    (h : IsGreatest {s | ∃ m ∈ newest ms limit, m.sequence = s} s) :
    IsGreatest {s | ∃ m ∈ ms, m.sequence = s} s := by
  obtain ⟨⟨m, hm, hs⟩, hgreatest⟩ := h
  refine ⟨⟨m, mem_descending.mp (mem_of_mem_take hm), hs⟩, ?_⟩
  rintro s' ⟨x, hx, rfl⟩
  by_contra hgt
  have hx : x ∈ descending ms := mem_descending.mpr hx
  have hin := Page.mem_take_of_not_rel (pairwise_descending ms) hx hm (by omega)
  exact hgt (hgreatest ⟨x, hin, rfl⟩)

lemma lastShown_of_length (h : ms.length ≤ heldContextLimit) : lastShown ms = ms := by
  rw [lastShown, Nat.sub_eq_zero_of_le h, drop_zero]

lemma length_newest (limit : Nat) : (ascending (newest ms limit)).length ≤ limit := by
  rw [ascending, length_insertionSort, newest, length_take]
  exact min_le_left _ _

lemma greatest_ascending {s : Nat} (h : IsGreatest {s | ∃ m ∈ ascending ms, m.sequence = s} s) :
    IsGreatest {s | ∃ m ∈ ms, m.sequence = s} s := by
  simpa only [mem_ascending] using h

lemma newest_eq_nil (h : ascending (newest ms heldContextLimit) = []) : ms = [] := by
  have hnil : newest ms heldContextLimit = [] := by
    refine eq_nil_iff_forall_not_mem.mpr fun m hm => ?_
    exact absurd (mem_ascending.mpr hm) (by simp [h])
  rcases take_eq_nil_iff.mp hnil with hlimit | hnil
  · exact absurd hlimit (by decide)
  · refine eq_nil_iff_forall_not_mem.mpr fun m hm => ?_
    exact absurd (mem_descending.mpr hm) (by simp [hnil])

end Lists

/-! ### What the reads find -/

section Reads

variable {t t' : Tables} {agentId : Uuid} {target : Target} {c : Conversation} {m : Message}

/-- The tables after the Agent's boundary was moved, as far as the reads see. -/
structure SameMessages (agentId : Uuid) (t t' : Tables) : Prop where
  constraints : t'.Constraints
  messages : t'.messages = t.messages
  userSent : ∀ m, t'.userSent m = t.userSent m
  delivered : ∀ m, t'.delivered agentId m = t.delivered agentId m
  memberId : ∀ conversationId, (t'.agentMember agentId conversationId).map ConversationMember.id =
    (t.agentMember agentId conversationId).map ConversationMember.id

lemma Advances.sameMessages {workspaceId : Uuid} (h : Advances workspaceId agentId t t')
    (ht : t.Constraints) : SameMessages agentId t t' where
  constraints := h.constraints ht
  messages := h.messages
  userSent := h.userSent
  delivered m := by rw [Tables.delivered, h.deliveries, Tables.delivered]
  memberId := h.memberId

lemma advance_spec (h : t.Constraints) {reported seen : Nat}
    (hadvance : advanceAgentReadThrough t agentId target reported = some (seen, t')) :
    seen = min reported (latestSequence t target) ∧ SameMessages agentId t t' := by
  rw [advanceAgentReadThrough] at hadvance
  by_cases hzero : min reported (latestSequence t target) = 0
  · rw [if_pos hzero] at hadvance
    cases hadvance
    exact ⟨hzero.symm, (@Advances.refl 0 agentId t).sameMessages h⟩
  rw [if_neg hzero] at hadvance
  cases hroot : target.threadRootId with
  | none =>
    rw [hroot] at hadvance
    cases hadvance
    have hadvances : Advances 0 agentId t (advanceTopLevel t agentId target.conversationId
        (min reported (latestSequence t target))) := advances_advanceTopLevel
    exact ⟨rfl, hadvances.sameMessages h⟩
  | some rootId =>
    rw [hroot] at hadvance
    obtain ⟨member, hmember, heq⟩ := Option.map_eq_some_iff.mp hadvance
    cases heq
    have hadvances : Advances 0 agentId t (advanceThreadRead t member.id rootId
        (min reported (latestSequence t target))) := advances_advanceThreadRead h hmember
    exact ⟨rfl, hadvances.sameMessages h⟩

lemma inChannel_iff (h : t.Constraints) (hc : t.conversation target.conversationId = some c) :
    InChannel t target ↔ c.channelName.isSome = true := by
  obtain ⟨hmem, hid⟩ := mem_of_conversation hc
  constructor
  · rintro ⟨c', hc', hid', hname⟩
    rwa [Join.eq_of_key h.conversation_id hmem hc' (hid.trans hid'.symm)]
  · intro hname
    exact ⟨c, hmem, hid, hname⟩

/-- A message of the target that is not the Agent's own, as the scope of the pending messages
tells it. -/
lemma bounds_pending (h : SameMessages agentId t t') {seen : Nat} {exact : List Nat}
    {isChannel : Bool} :
    ((pendingScope t' agentId target.conversationId target.threadRootId isChannel
        (some seen)).excluding exact).bounds m.sequence m = true ↔
      seen < m.sequence ∧ m.sequence ∉ exact ∧
        ∀ own, t.agentMember agentId target.conversationId = some own →
          m.senderMemberId ≠ some own.id := by
  obtain ⟨own, hown⟩ : ∃ own, own =
    (t'.agentMember agentId target.conversationId).map ConversationMember.id := ⟨_, rfl⟩
  have hother : own.all (fun id => m.senderMemberId ≠ some id) = true ↔
      ∀ member, t.agentMember agentId target.conversationId = some member →
        m.senderMemberId ≠ some member.id := by
    rw [hown, h.memberId]
    cases t.agentMember agentId target.conversationId <;> simp
  rw [← hother]
  have hscope : (pendingScope t' agentId target.conversationId target.threadRootId isChannel
      (some seen)).excluding exact = ⟨agentId, target.conversationId, target.threadRootId,
        isChannel, some seen, exact, own⟩ := by
    rw [hown]
    rfl
  rw [hscope, AgentAttentionScope.bounds, AgentAttentionScope.excluded]
  simp only [Option.all_some, Option.getD_some, Bool.and_eq_true, Bool.or_eq_true,
    decide_eq_true_eq, and_assoc]
  refine and_congr_right fun habove => and_congr_left fun _ => ?_
  -- a sequence above the boundary is excluded where it was reported
  constructor
  · rintro (hempty | hmissing) hexact
    · have hin : m.sequence ∈ exact.filter fun value => seen < value :=
        mem_filter.mpr ⟨hexact, decide_eq_true habove⟩
      rw [isEmpty_iff.mp hempty] at hin
      cases hin
    · have hin : m.sequence ∈ exact.filter fun value => seen < value :=
        mem_filter.mpr ⟨hexact, decide_eq_true habove⟩
      rw [contains_iff_mem.mpr hin] at hmissing
      cases hmissing
  · intro hmissing
    refine .inr ?_
    rw [Bool.not_eq_true', ← Bool.not_eq_true, contains_iff_mem]
    exact fun hin => hmissing (mem_filter.mp hin).1

lemma mem_pending (ht : t.Constraints) (h : SameMessages agentId t t')
    (hc : t.conversation target.conversationId = some c) {seen : Nat} {exact : List Nat} :
    m ∈ agentAttentionSource t' ((pendingScope t' agentId target.conversationId
        target.threadRootId c.channelName.isSome (some seen)).excluding exact) ↔
      OwedByOther t agentId target m ∧ seen < m.sequence ∧ m.sequence ∉ exact := by
  have hchannel := inChannel_iff ht hc
  have hsame : t'.delivered agentId m = t.delivered agentId m := h.delivered m
  rw [mem_source h.constraints, bounds_pending h, h.messages, h.userSent]
  change _ ∧ _ ∧ _ ∧ _ ∧ (_ ∨ t'.delivered agentId m = true) ∧
    (_ → t'.delivered agentId m = true) ↔ _
  rw [hsame]
  constructor
  · rintro ⟨hm, hconversation, hroot, ⟨habove, hmissing, hother⟩, howed, hdelivered⟩
    have hplace : m.target = target := congrArg₂ Target.mk hconversation hroot
    exact ⟨⟨hm, hplace, hother, howed, fun hin => hdelivered (hchannel.mp hin)⟩, habove, hmissing⟩
  · rintro ⟨⟨hm, hplace, hother, howed, hdelivered⟩, habove, hmissing⟩
    exact ⟨hm, congrArg Target.conversationId hplace, congrArg Target.threadRootId hplace,
      ⟨habove, hmissing, hother⟩, howed, fun hin => hdelivered (hchannel.mpr hin)⟩

lemma le_latestSequence (hm : m ∈ t.messages) (hplace : m.target = target) :
    m.sequence ≤ latestSequence t target := by
  have hholds : target.holds m = true := by
    rw [← hplace]
    exact decide_eq_true ⟨rfl, rfl⟩
  have hin : m.sequence ∈ (t.messages.filter target.holds).map Message.sequence :=
    mem_map_of_mem (mem_filter.mpr ⟨hm, hholds⟩)
  rw [latestSequence]
  cases hmax : ((t.messages.filter target.holds).map Message.sequence).max? with
  | none =>
    rw [max?_eq_none_iff.mp hmax] at hin
    cases hin
  | some newest => exact (max?_eq_some_iff.mp hmax).2 _ hin

end Reads

/-! ### The decision -/

section Decision

variable {freshness : AgentTargetFreshness} {input : AgentSendMessageInput} {seen : Nat}

/-- A send that is not let through anyway is held where something is left, and is let through
otherwise, as far as the boundary is known. -/
lemma plan_of_seen (hanyway : input.continueAnyway = false) (hseen : 0 < seen) :
    (∀ h, planAgentSend freshness seen input = .held h →
      freshness.readPending (some seen) input.seenExactSeqs ≠ [] ∧ h = localHold freshness seen input
        (freshness.readPending (some seen) input.seenExactSeqs)) ∧
    ∀ p, planAgentSend freshness seen input = .forward p →
      freshness.readPending (some seen) input.seenExactSeqs = [] := by
  have hnonzero : nonzero seen = some seen := if_neg hseen.ne'
  obtain ⟨pending, hpending⟩ : ∃ pending, pending =
    freshness.readPending (some seen) input.seenExactSeqs := ⟨_, rfl⟩
  simp only [planAgentSend, hanyway, hnonzero, ← hpending, Bool.false_eq_true, if_false]
  by_cases hnil : pending = []
  · rw [if_neg (not_not.mpr hnil)]
    refine ⟨fun h heq => ?_, fun p _ => hnil⟩
    rw [if_pos hseen] at heq
    split_ifs at heq
  · rw [if_pos hnil]
    refine ⟨fun h heq => ⟨hnil, ?_⟩, fun p heq => by cases heq⟩
    exact (SendPlan.held.inj heq).symm

lemma plan_of_empty {t : Tables} {agentId : Uuid} {target : Target} {isChannel : Bool}
    (ht : t.Constraints) (hempty : ∀ m ∈ t.messages, m.target ≠ target)
    (hanyway : input.continueAnyway = false) :
    ∃ p, planAgentSend (agentTargetFreshness t agentId target isChannel) 0 input = .forward p ∧
      p.advanceTo = none := by
  have hsource : ∀ scope : AgentAttentionScope, scope.conversationId = target.conversationId →
      scope.threadRootId = target.threadRootId → agentAttentionSource t scope = [] := by
    intro scope hconversation hroot
    refine eq_nil_iff_forall_not_mem.mpr fun m hm => ?_
    obtain ⟨hmem, hconversation', hroot', -⟩ := (mem_source ht).mp hm
    exact hempty m hmem
      (congrArg₂ Target.mk (hconversation'.trans hconversation) (hroot'.trans hroot))
  have hmine : ∀ id, (t.messages.filter fun m =>
      target.holds m ∧ m.senderMemberId = some id) = [] := by
    intro id
    refine filter_eq_nil_iff.mpr fun m hm hholds => ?_
    obtain ⟨hconversation, hroot⟩ := of_decide_eq_true (of_decide_eq_true hholds).1
    exact hempty m hm (congrArg₂ Target.mk hconversation hroot)
  have hpending : ∀ after excluding, (agentTargetFreshness t agentId target isChannel).readPending
      after excluding = [] := by
    intro after excluding
    change ascending (newest (agentAttentionSource t _) _) = []
    rw [hsource _ rfl rfl]
    rfl
  have hmax : ∀ after, (agentTargetFreshness t agentId target isChannel).maxPendingSequence after =
      none := by
    intro after
    change ((agentAttentionSource t _).map Message.sequence).max? = none
    rw [hsource _ rfl rfl]
    rfl
  have hrecent : ∀ limit excluding, (agentTargetFreshness t agentId target isChannel).readRecent
      limit excluding = ⟨[], none⟩ := by
    intro limit excluding
    have hwindow : recentWindow t agentId target isChannel limit excluding = [] := by
      rw [recentWindow, hsource _ rfl rfl]
      cases t.agentMember agentId target.conversationId with
      | none => cases limit <;> rfl
      | some member =>
        simp only [Option.elim_some, hmine]
        cases limit <;> rfl
    change RecentContext.mk _ _ = _
    rw [hwindow]
    rfl
  have hplan : planAgentSend (agentTargetFreshness t agentId target isChannel) 0 input =
      .forward ⟨.forward, .noExactTargetPendingOrRecentContext, {}, none, none⟩ := by
    simp [planAgentSend, firstTouch, hanyway, hpending, hmax, hrecent]
  exact ⟨_, hplan, rfl⟩

end Decision

/-- The plan of a send that reported a boundary and is not sent anyway. -/
theorem decidesBySeen_planSend (db : Numbered) {agentId : Uuid} {target : Target}
    {input : AgentSendMessageInput} {reported : Nat} {plan : SendPlan} {t' : Tables}
    (hanyway : input.continueAnyway = false) (hreported : input.seenUpToSeq = some reported)
    (hpositive : 0 < reported) (hplan : planSend db.toTables agentId target input = some (plan, t')) :
    DecidesBySeen db.toTables agentId target input reported plan := by
  obtain ⟨c, hc, hplan⟩ := Option.bind_eq_some_iff.mp hplan
  rw [hreported, Option.elim_some] at hplan
  obtain ⟨⟨seen, tables⟩, hadvance, heq⟩ := Option.map_eq_some_iff.mp hplan
  obtain ⟨rfl, rfl⟩ := Prod.mk.inj heq
  obtain ⟨hseen, hsame⟩ := advance_spec db.constraints hadvance
  rcases Nat.eq_zero_or_pos seen with rfl | hpos
  · -- the target holds no message
    have hlatest : latestSequence db.toTables target = 0 := by omega
    have hempty : ∀ m ∈ db.messages, m.target ≠ target := by
      intro m hm hplace
      have hle := le_latestSequence hm hplace
      have hgt := db.positive m hm
      omega
    have hnone : ∀ m, ¬ OwedByOther db.toTables agentId target m :=
      fun m howed => hempty m howed.message howed.place
    obtain ⟨p, hp, hadvanceTo⟩ := @plan_of_empty input tables agentId target c.channelName.isSome
      hsame.constraints (hsame.messages ▸ hempty) hanyway
    rw [hp]
    refine ⟨?_, ?_, ?_, ?_⟩
    · intro _ _
      refine Set.eq_empty_iff_forall_notMem.mpr ?_
      rintro s ⟨m, howed, -⟩
      exact hnone m howed
    · intro p' n heq hn m howed
      exact absurd howed (hnone m)
    · intro h heq
      cases heq
    · intro h heq
      cases heq
  · obtain ⟨hheld, hforward⟩ := @plan_of_seen
      (agentTargetFreshness tables agentId target c.channelName.isSome) input seen hanyway hpos
    have hmem : ∀ m, m ∈ agentAttentionSource tables ((pendingScope tables agentId
        target.conversationId target.threadRootId c.channelName.isSome (some seen)).excluding
          input.seenExactSeqs) ↔ OwedByOther db.toTables agentId target m ∧ seen < m.sequence ∧
            m.sequence ∉ input.seenExactSeqs := fun m => mem_pending db.constraints hsame hc
    obtain ⟨source, hsource⟩ : ∃ source, source = agentAttentionSource tables ((pendingScope tables
      agentId target.conversationId target.threadRootId c.channelName.isSome (some seen)).excluding
        input.seenExactSeqs) := ⟨_, rfl⟩
    have hread : (agentTargetFreshness tables agentId target c.channelName.isSome).readPending
        (some seen) input.seenExactSeqs = ascending (newest source heldContextLimit) :=
      congrArg (fun source => ascending (newest source heldContextLimit)) hsource.symm
    rw [← hsource] at hmem
    rw [hread] at hheld hforward
    have hunconsumed : {s | ∃ m ∈ source, m.sequence = s} = unconsumedSequences db.toTables agentId
        target seen input.seenExactSeqs := by
      ext s
      constructor
      · rintro ⟨m, hm, rfl⟩
        obtain ⟨howed, habove, hmissing⟩ := (hmem m).mp hm
        exact ⟨m, howed, rfl, habove, hmissing⟩
      · rintro ⟨m, howed, rfl, habove, hmissing⟩
        exact ⟨m, (hmem m).mpr ⟨howed, habove, hmissing⟩, rfl⟩
    have hnone : ∀ p, planAgentSend (agentTargetFreshness tables agentId target
        c.channelName.isSome) seen input = .forward p → source = [] := by
      intro p hp
      exact newest_eq_nil (hforward p hp)
    refine ⟨?_, ?_, ?_, ?_⟩
    · intro p hp
      rw [← hseen, ← hunconsumed, hnone p hp]
      exact Set.eq_empty_iff_forall_notMem.mpr fun s hs => by simp at hs
    · intro p n hp _ m howed _
      by_contra hunseen
      rw [not_or, not_le] at hunseen
      have hin : m ∈ source := (hmem m).mpr ⟨howed, by omega, hunseen.2⟩
      rw [hnone p hp] at hin
      cases hin
    · intro h hp
      obtain ⟨hne, rfl⟩ := hheld h hp
      rw [← hseen, ← hunconsumed]
      exact isGreatest_newest (greatest_ascending (isGreatest_maxSequence hne))
    · intro h hp
      obtain ⟨hne, rfl⟩ := hheld h hp
      simp only [localHold]
      split_ifs with hwithheld
      · rfl
      · rw [lastShown_of_length (length_newest heldContextLimit)]
        exact isGreatest_maxSequence hne

/-! ### A channel and a direct message -/

/-- A message of the channel that was not delivered to the Agent. -/
def undelivered : Message := ⟨21, 1, 1, some 10, 2, none⟩

/-- The newest direct message. -/
def unreadDirect : Message := ⟨23, 2, 1, some 12, 2, none⟩

/-- A channel and a direct message, each with one message that the Agent has seen and a newer one of
the user. -/
def channelAndDirect : Numbered where
  conversations := [general, ⟨2, 1, none, false⟩]
  members := [⟨10, 1, 1, some 100, none, 0, false⟩, ⟨11, 1, 1, none, some 7, 0, false⟩,
    ⟨12, 2, 1, some 100, none, 0, false⟩, ⟨13, 2, 1, none, some 7, 0, false⟩]
  messages := [askedOutside, undelivered, ⟨22, 2, 1, some 12, 1, none⟩, unreadDirect]
  deliveries := [⟨30, 20, 1, 7, 1⟩, ⟨32, 22, 2, 7, 1⟩, ⟨33, 23, 2, 7, 2⟩]
  constraints := {
    conversation_id := by decide
    member_id := by decide
    member_agent := by decide
    member_subject := by decide
    member_conversation := by decide
    message_id := by decide
    message_sequence := by decide
    message_conversation := by decide
    message_root := by
      have hroot : ∀ m ∈ [askedOutside, undelivered, ⟨22, 2, 1, some 12, 1, none⟩, unreadDirect],
        m.threadRootId = none := by decide
      intro m hm id hid
      rw [hroot m hm] at hid
      cases hid
    delivery_id := by decide
    delivery_agent := by decide
    delivery_message := by decide
    mention_id := by decide
    mention_agent := by decide
    mention_message := by decide
    thread_read := by decide }
  positive := by decide

/-- A direct message is held for the newest one. -/
theorem decidesBySeen_direct : ∃ plan t',
    planSend channelAndDirect.toTables 7 ⟨2, none⟩ { seenUpToSeq := some 1 } = some (plan, t') ∧
      DecidesBySeen channelAndDirect.toTables 7 ⟨2, none⟩ { seenUpToSeq := some 1 } 1 plan :=
  ⟨_, _, rfl, decidesBySeen_planSend channelAndDirect rfl rfl (by decide) rfl⟩

/-- A send to the channel goes through over a newer message by another author that was not delivered
to the Agent, and a withheld hold presents nothing below the boundary it reports. -/
theorem decides_apart_from_shown :
    (∃ p t', planSend channelAndDirect.toTables 7 ⟨1, none⟩ { seenUpToSeq := some 1 } =
        some (.forward p, t') ∧ undelivered ∈ channelAndDirect.messages ∧
      undelivered.target = ⟨1, none⟩ ∧ undelivered.senderMemberId ≠ some 11 ∧
        1 < undelivered.sequence) ∧
    ∃ h t', planSend channelAndDirect.toTables 7 ⟨2, none⟩
        { seenUpToSeq := some 1, freshnessContextMode := some .withheld } = some (.held h, t') ∧
      h.heldMessages = [] ∧ h.seenUpToSeq = 2 :=
  ⟨⟨_, _, rfl, by decide, rfl, by decide, by decide⟩, _, _, rfl, rfl, rfl⟩

end Coforge.AttentionRule
