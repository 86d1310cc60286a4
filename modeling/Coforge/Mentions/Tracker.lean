import Coforge.Lib.Keyed
import Mathlib

/-!
# Tracked mentions

What the daemon remembers of the mentions it tracks, and what it reports of them. A record is kept
under its delivery id, in the order the records were last set, and the oldest one is forgotten
when there are too many. `pending` lists, for each Agent, the mentions told during a turn that has
not ended.
-/

namespace Coforge.Mentions

/-- The launch, session and Computer a tracked delivery was issued for. -/
structure MentionDeliveryEnvelope where
  messageId : String
  launchId : String
  sessionId : String
  computerId : String
deriving DecidableEq

/-- A delivery carrying a tracked mention. -/
structure TrackedMentionDelivery where
  protocolMajor : Nat
  workspaceId : String
  agentId : String
  deliveryId : String
  messageId : String
  mentionDelivery : MentionDeliveryEnvelope
deriving DecidableEq

/-- The launch and session reported for the running process of an Agent. -/
structure RunningMentionIdentity where
  launchId : String
  sessionId : String
deriving DecidableEq

def MentionDeliveryEnvelope.identity (envelope : MentionDeliveryEnvelope) :
    RunningMentionIdentity :=
  ⟨envelope.launchId, envelope.sessionId⟩

def namesLaunch (identity : RunningMentionIdentity) (envelope : MentionDeliveryEnvelope) : Bool :=
  identity.launchId == envelope.launchId && identity.sessionId == envelope.sessionId

inductive MentionDeliveryTerminalCode where
  | identityUnknown
  | identityDrift
  | instrumentFailed
  | deliveryRejected
  | unsupportedDeliveryPath
  | quotaLimited
deriving DecidableEq

/-- Why an Agent cannot be told a notice right now. -/
inductive MentionDeliveryBlock where
  | rateLimitBackoff
  | runtimeErrorBackoff
  | fingerprintFence
  | queuedUntilIdle
deriving DecidableEq

def blockedCodes : MentionDeliveryBlock → MentionDeliveryTerminalCode
  | .rateLimitBackoff    => .quotaLimited
  | .runtimeErrorBackoff => .deliveryRejected
  | .fingerprintFence    => .deliveryRejected
  | .queuedUntilIdle     => .unsupportedDeliveryPath

inductive MentionDeliveryStage where
  | daemonReceived
  | daemonPending
  | daemonDrained
deriving DecidableEq

inductive MentionDeliveryTransitionOutcome where
  | accepted
  | coalesced
deriving DecidableEq

/-- What every report on a tracked mention names. -/
structure Scope where
  protocolMajor : Nat
  workspaceId : String
  agentId : String
  deliveryId : String
  mentionDelivery : MentionDeliveryEnvelope
deriving DecidableEq

def TrackedMentionDelivery.scope (message : TrackedMentionDelivery) : Scope :=
  ⟨message.protocolMajor, message.workspaceId, message.agentId, message.deliveryId,
    message.mentionDelivery⟩

/-- Why the envelope cannot belong to this delivery on this Computer. -/
def admissionRefusal (computerId : String) (message : TrackedMentionDelivery) :
    Option MentionDeliveryTerminalCode :=
  if message.mentionDelivery.computerId ≠ computerId then some .identityDrift
  else if message.mentionDelivery.messageId ≠ message.messageId then some .instrumentFailed
  else none

inductive TrackedState where
  | received
  | pending
  | drained
deriving DecidableEq

structure Tracked where
  message : TrackedMentionDelivery
  state : TrackedState
  undelivered : Bool
deriving DecidableEq

namespace Tracked

def deliveryId (tracked : Tracked) : String := tracked.message.deliveryId

end Tracked

/-- Tracked mentions remembered at most. -/
def rememberedMentions : Nat := 4096

structure Tracker where
  tracked : List Tracked
  pending : String → List String

namespace Tracker

open Keyed

def empty : Tracker := ⟨[], fun _ => []⟩

def get? (T : Tracker) (deliveryId : String) : Option Tracked :=
  find Tracked.deliveryId deliveryId T.tracked

/-- A set keeps the order its members were added in. -/
def pend (T : Tracker) (agentId deliveryId : String) : Tracker :=
  let pending := T.pending agentId
  let added := if deliveryId ∈ pending then pending else pending ++ [deliveryId]
  { T with pending := Function.update T.pending agentId added }

def unpend (T : Tracker) (agentId deliveryId : String) : Tracker :=
  { T with pending := Function.update T.pending agentId ((T.pending agentId).erase deliveryId) }

def forget (T : Tracker) (deliveryId : String) : Tracker :=
  match T.get? deliveryId with
  | none => T
  | some tracked =>
    let T := { T with tracked := drop Tracked.deliveryId deliveryId T.tracked }
    T.unpend tracked.message.agentId deliveryId

/-- The oldest record makes room for a new one. -/
def evict (T : Tracker) (deliveryId : String) : Tracker :=
  match T.get? deliveryId, T.tracked with
  | none, oldest :: _ =>
    if rememberedMentions ≤ T.tracked.length then T.forget oldest.deliveryId else T
  | _, _ => T

/-- Whether the mention is flagged: the notice that carried it never reached the model. -/
def undelivered (T : Tracker) (deliveryId : String) : Bool :=
  (T.get? deliveryId).any fun tracked => tracked.undelivered

def set (T : Tracker) (message : TrackedMentionDelivery) (state : TrackedState) : Tracker :=
  let lost := T.undelivered message.deliveryId && state != .drained
  let T := T.evict message.deliveryId
  let record : Tracked := ⟨message, state, lost⟩
  let T := { T with tracked := drop Tracked.deliveryId message.deliveryId T.tracked ++ [record] }
  if state = .pending then T.pend message.agentId message.deliveryId
  else T.unpend message.agentId message.deliveryId

/-- `existing.message = message`. -/
def amend (T : Tracker) (existing : Tracked) (message : TrackedMentionDelivery) : Tracker :=
  { T with tracked := put Tracked.deliveryId { existing with message := message } T.tracked }

def receiving (T : Tracker) (message : TrackedMentionDelivery) : Bool :=
  (T.get? message.deliveryId).any fun tracked => tracked.state = .received

/-- Whether a report that the notice of a delivery was lost is one of a mention to flag. -/
def flags (T : Tracker) (agentId deliveryId : String) : Bool :=
  (T.get? deliveryId).any fun tracked =>
    tracked.message.agentId = agentId ∧ tracked.state ≠ .drained

/-- One of the mentions whose notice never reached the model. -/
def markUndelivered (T : Tracker) (agentId deliveryId : String) : Tracker :=
  match T.get? deliveryId with
  | none => T
  | some tracked =>
    if T.flags agentId deliveryId then
      { T with tracked := put Tracked.deliveryId { tracked with undelivered := true } T.tracked }
    else T

/-! ### What is remembered of a mention -/

variable {T : Tracker} {id deliveryId agentId : String} {t : Tracked}
  {message : TrackedMentionDelivery} {state : TrackedState}

lemma deliveryId_of_get? (h : T.get? id = some t) : t.deliveryId = id :=
  key_of_find h

lemma get?_forget :
    (T.forget deliveryId).get? id = if id = deliveryId then none else T.get? id := by
  unfold forget
  cases h : T.get? deliveryId with
  | none =>
    by_cases hid : id = deliveryId
    · rw [if_pos hid, hid, h]
    · rw [if_neg hid]
  | some tracked => exact find_drop T.tracked deliveryId id

lemma get?_of_forget (h : (T.forget deliveryId).get? id = some t) :
    id ≠ deliveryId ∧ T.get? id = some t := by
  rw [get?_forget] at h
  split_ifs at h with hid
  exact ⟨hid, h⟩

lemma get?_of_evict (h : (T.evict deliveryId).get? id = some t) : T.get? id = some t := by
  unfold evict at h
  split at h
  · split_ifs at h
    · exact (get?_of_forget h).2
    · exact h
  · exact h

/-- What is remembered after a record is set: the record itself, and others as they were. -/
lemma get?_of_set (h : (T.set message state).get? id = some t) : (id = message.deliveryId ∧
        t = ⟨message, state, T.undelivered message.deliveryId && state != .drained⟩) ∨
      id ≠ message.deliveryId ∧ T.get? id = some t := by
  set record : Tracked := ⟨message, state, T.undelivered message.deliveryId && state != .drained⟩
  set before := (T.evict message.deliveryId).tracked
  have hget : find Tracked.deliveryId id
      (drop Tracked.deliveryId message.deliveryId before ++ [record]) = some t := by
    unfold set at h
    split_ifs at h <;> exact h
  have hdrop := @find_drop Tracked String _ Tracked.deliveryId before message.deliveryId id
  by_cases hid : id = message.deliveryId
  · refine .inl ⟨hid, ?_⟩
    rw [find, List.find?_append] at hget
    rw [if_pos hid, find] at hdrop
    rw [hdrop] at hget
    simpa [Tracked.deliveryId, record, hid, eq_comm] using hget
  · refine .inr ⟨hid, @get?_of_evict T id message.deliveryId t ?_⟩
    rw [find, List.find?_append] at hget
    rw [if_neg hid, find] at hdrop
    rw [hdrop] at hget
    have hrecord : [record].find? (fun x => x.deliveryId = id) = none := by
      simp [Tracked.deliveryId, record, Ne.symm hid]
    rw [hrecord, Option.or_none] at hget
    exact hget

lemma get?_amend {existing : Tracked} : (T.amend existing message).get? id =
      if message.deliveryId = id then some { existing with message := message } else T.get? id :=
  find_put _ _ _

lemma get?_of_markUndelivered (h : (T.markUndelivered agentId deliveryId).get? id = some t) :
    T.get? id = some t ∨
      t.state ≠ .drained ∧ ∃ t', T.get? id = some t' ∧ t = { t' with undelivered := true } := by
  unfold markUndelivered at h
  cases hget : T.get? deliveryId with
  | none =>
    rw [hget] at h
    exact .inl h
  | some tracked =>
    rw [hget] at h
    simp only at h
    split_ifs at h with hcond
    · have hput := @find_put Tracked String _ Tracked.deliveryId
        { tracked with undelivered := true } T.tracked id
      have hkey : Tracked.deliveryId { tracked with undelivered := true } = deliveryId :=
        show tracked.deliveryId = deliveryId from deliveryId_of_get? hget
      rw [get?, hput, hkey] at h
      split_ifs at h with hid
      · cases h
        simp only [flags, hget, Option.any_some, decide_eq_true_eq] at hcond
        exact .inr ⟨hcond.2, tracked, hid ▸ hget, rfl⟩
      · exact .inl h
    · exact .inl h

end Tracker

end Coforge.Mentions
