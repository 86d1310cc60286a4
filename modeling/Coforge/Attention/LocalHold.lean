import Coforge.Attention.Coherence

/-!
# The local hold of a send

Before a send is issued the daemon decides whether to hold it for messages of the target the Agent
has not reviewed. A hold presents the newest of them, and the send then consumes the frontier it
presented: every pending message should be settled by that, so that a resend goes through.

It is, as long as nothing pending is at or below the frontier the Agent had. A recovery that brings
messages the Agent read meanwhile breaks this, and the hold then never clears.
-/

namespace Coforge.Attention

open Transition

/-! ### The decision -/

inductive ForwardReason where
  | modelSeenBoundary
  | noExactTargetPendingOrRecentContext
deriving DecidableEq

inductive AgentInboxFreshnessPlan where
  | bypass
  | localHold (newMessageCount seenUpToSeq : Nat)
  | forward (reason : ForwardReason)
deriving DecidableEq

structure AgentInboxFreshnessInput where
  continueAnyway : Bool
  modelSeenSequence : Nat
  pendingMessageCount : Nat
  pendingMaxSequence : Nat

def planAgentInboxFreshness (input : AgentInboxFreshnessInput) : AgentInboxFreshnessPlan :=
  if input.continueAnyway then .bypass
  else if 0 < input.pendingMessageCount then
    .localHold input.pendingMessageCount input.pendingMaxSequence
  else .forward
    (if 0 < input.modelSeenSequence then .modelSeenBoundary else .noExactTargetPendingOrRecentContext)

namespace Index

/-- The daemon's decision about a send to a target. -/
def planSend (s : Index) (target : Target) (continueAnyway : Bool) : AgentInboxFreshnessPlan :=
  planAgentInboxFreshness {
    continueAnyway := continueAnyway
    modelSeenSequence := s.modelSeenSequence target
    pendingMessageCount := s.pendingMessageCount target
    pendingMaxSequence := s.pendingMaxSequence target }

/-- The sequences of the messages a local hold shows. -/
def shownWindow (s : Index) (target : Target) : List Nat :=
  (s.pendingWindow target heldContextLimit).map fun entry => entry.delivery.sequence

end Index

/-- The frontier a held send presented: what the hold reports, or the newest message it shows. -/
def presentedThrough (seenUpToSeq : Nat) (shown : List Nat) : Nat := shown.foldl max seenUpToSeq

/-- What a send records of a hold it presented. -/
def recordPresentedHold (target : Target) (seenUpToSeq : Nat) (shown : List Nat) : Bookkeeping :=
  let presented := presentedThrough seenUpToSeq shown
  .recordSendContext target presented (if 0 < presented then some presented else none)

/-! ### Clearing -/

lemma seenUpToSeq_le_presentedThrough (shown : List Nat) :
    ∀ seenUpToSeq : Nat, seenUpToSeq ≤ presentedThrough seenUpToSeq shown := by
  induction shown with
  | nil => exact fun _ => le_rfl
  | cons n shown ih => exact fun m => (le_max_left m n).trans (ih (max m n))

namespace Index

variable {s : Index} {o : Prop} {b : Target → Nat → Prop}

lemma seenUpToSeq_of_hold {t : Target} {continueAnyway : Bool} {count seenUpToSeq : Nat}
    (h : s.planSend t continueAnyway = .localHold count seenUpToSeq) :
    seenUpToSeq = s.pendingMaxSequence t := by
  simp only [planSend, planAgentInboxFreshness] at h
  split_ifs at h
  · cases h
    rfl

lemma pendingMessageCount_of_none {t : Target} (h : s.attention t = none) :
    s.pendingMessageCount t = 0 := by
  rw [pendingMessageCount, h]
  rfl

lemma attention_advanceFrontier {t : Target} {through : Nat}
    (hlt : (s.consumed t).seq < through) (hle : ∀ n ∈ (s.unreviewed t).pending, n ≤ through) :
    (s.advanceFrontier t through).1.attention t = none := by
  have hfilter : (s.unreviewed t).pending.filter (fun n => !decide (n ≤ through)) = ∅ := by
    rw [Finset.filter_eq_empty_iff]
    intro n hn
    simpa using hle n hn
  simp only [advanceFrontier]
  rw [if_neg (not_le.mpr hlt)]
  simp only [attention, settlePending, settleTargets, withConsumed, if_true, decide_true,
    settleEntry]
  split
  · next h => exact h
  · rw [if_pos hfilter]
    rfl

lemma attention_persist (t : Target) : s.persist.attention t = s.attention t := by
  simp only [persist]
  split_ifs <;> rfl

/-- The frontier of a presented hold clears its target, if everything still pending is within
it. -/
lemma pendingMessageCount_recordSendContext (h : s.Kept o b) {t : Target} {through : Nat}
    (hle : ∀ n ∈ (s.unreviewed t).pending, n ≤ through) (review : Option Nat) :
    (s.recordSendContext t through review).pendingMessageCount t = 0 := by
  apply pendingMessageCount_of_none
  rcases ha : s.attention t with _ | a
  · -- nothing is pending, and settling nothing leaves it so
    have hnone : ∀ through, (s.hydrate.advanceFrontier t through).1.attention t = none := by
      intro through
      have hentry : (s.unreviewed t).attention = none := ha
      simp only [advanceFrontier]
      split_ifs
      · rw [attention, hydrate_unreviewed]
        exact hentry
      · simp [attention, settlePending, settleTargets, withConsumed, settleEntry, hentry]
    simp only [recordSendContext]
    split_ifs with hlow
    · exact ha
    all_goals
      rcases review with _ | sequence
    · exact (attention_persist t).trans (hnone through)
    · exact (attention_persist t).trans (hnone through)
    · exact hnone through
    · exact hnone through
  · -- a pending message lies above the frontier and within the presented one
    obtain ⟨n, hn⟩ := (h t).record.mp (by rw [attention] at ha; simp [ha])
    have hunseen := (h t).unseen n hn
    have hlt : (s.hydrate.consumed t).seq < through := by
      by_contra hge
      exact hunseen (Or.inl ((hle n hn).trans (not_lt.mp hge)))
    have hnone : (s.hydrate.advanceFrontier t through).1.attention t = none := by
      refine attention_advanceFrontier hlt ?_
      rw [hydrate_unreviewed]
      exact hle
    simp only [recordSendContext]
    rw [if_neg (by omega)]
    split_ifs
    all_goals
      rcases review with _ | sequence
    · exact (attention_persist t).trans hnone
    · exact (attention_persist t).trans hnone
    · exact hnone
    · exact hnone

end Index

namespace World

variable {w : World}

/-- A step records no message of a target. -/
def NothingArrives (target : Target) : World → Label → Prop :=
  StaysWithin fun t _ => t ≠ target

lemma kept_run_undisturbed {o : Prop} {b : Target → Nat → Prop} {w' : World} {ls : List Label}
    (h : w.index.Kept o b) (horder : ¬ o)
    (hok : Permitted step (fun w l => Undisturbed w l ∧ StaysWithin b w l) w ls)
    (hrun : run step w ls = some w') : w'.index.Kept o b :=
  invariant (fun _ _ _ h hok hstep => kept_step h hok.1 (fun ho => absurd ho horder) hok.2 hstep) h
    hok hrun

lemma kept_of_hold (h : w.index.Kept False fun _ _ => True) (t : Target) :
    w.index.Kept False fun t' n => t' = t → n ≤ w.index.pendingMaxSequence t := by
  intro t'
  refine { h t' with within := ?_ }
  rintro n hn rfl
  exact Finset.le_sup (f := id) hn

/-- A local hold clears what it showed: in a run of undisturbed steps, the send that was held
leaves nothing pending of its target when it records the hold it presented, unless another message
arrived meanwhile. -/
theorem hold_clears {ws : String} {durable : Option ConsumedSeqState} {ls : List Label}
    (hok : Permitted step Undisturbed (init ws durable) ls)
    (hrun : run step (init ws durable) ls = some w) {t : Target} {continueAnyway : Bool}
    {count seenUpToSeq : Nat}
    (hhold : w.index.planSend t continueAnyway = .localHold count seenUpToSeq)
    {ls' : List Label} {w' : World}
    (hok' : Permitted step (fun w l => Undisturbed w l ∧ NothingArrives t w l) w ls')
    (hrun' : run step w ls' = some w') :
    ((recordPresentedHold t seenUpToSeq (w.index.shownWindow t)).apply
      w'.index).pendingMessageCount t = 0 := by
  have hkept : w.index.Kept False fun _ _ => True := by
    refine kept_run_undisturbed (Index.kept_init durable) id ?_ hrun
    exact hok.mono fun w l h => ⟨h, staysWithin_true w l⟩
  have hkept' : w'.index.Kept False fun t' n => t' = t → n ≤ w.index.pendingMaxSequence t := by
    refine kept_run_undisturbed (kept_of_hold hkept t) id (hok'.mono fun w l h => ⟨h.1, ?_⟩) hrun'
    exact h.2.mono fun t' n hne heq => absurd heq hne
  refine Index.pendingMessageCount_recordSendContext hkept' (fun n hn => ?_) _
  rw [Index.seenUpToSeq_of_hold hhold]
  exact ((hkept' t).within n hn rfl).trans (seenUpToSeq_le_presentedThrough _ _)

/-- A hold whose messages nothing disturbed. -/
theorem hold_clears_received : ∃ w : World, w.index.planSend "@ann" false = .localHold 1 1 ∧
      ((recordPresentedHold "@ann" 1 (w.index.shownWindow "@ann")).apply
        w.index).pendingMessageCount "@ann" = 0 := by
  have hplan : (run step (init "w" none) [.receive Drained.message false true 0]).map
      (fun w => w.index.planSend "@ann" false) = some (.localHold 1 1) := by decide +kernel
  obtain ⟨w, hw, hhold⟩ := Option.map_eq_some_iff.mp hplan
  have hok : Permitted step Undisturbed (init "w" none) [.receive Drained.message false true 0] :=
    ⟨⟨fun _ hseen => hseen, trivial⟩, fun _ _ => trivial⟩
  exact ⟨w, hhold, @hold_clears _ _ _ _ hok hw _ _ _ _ hhold [] _ trivial rfl⟩

/-- Without the condition it fails: the Agent reads a message while the recovery that brings it
waits, and the hold for it never clears. -/
theorem hold_stays :
    ¬ ∀ (ws : String) (durable : Option ConsumedSeqState) (ls : List Label) (w : World)
      (t : Target) (continueAnyway : Bool) (count seenUpToSeq : Nat),
      run step (init ws durable) ls = some w →
      w.index.planSend t continueAnyway = .localHold count seenUpToSeq →
      ∀ (ls' : List Label) (w' : World), Permitted step (NothingArrives t) w ls' →
        run step w ls' = some w' →
        ((recordPresentedHold t seenUpToSeq (w.index.shownWindow t)).apply
          w'.index).pendingMessageCount t = 0 := by
  intro h
  have hback : (run step (init "w" none) [.recover [Drained.unread] [] true,
      .bookkeeping (.recordModelSeen "@bob" 4), .answerRecovery 0 true]).map (fun w =>
        (w.index.planSend "@bob" false, ((recordPresentedHold "@bob" 4
          (w.index.shownWindow "@bob")).apply w.index).pendingMessageCount "@bob")) =
        some (.localHold 1 4, 1) := by decide +kernel
  obtain ⟨w, hw, heq⟩ := Option.map_eq_some_iff.mp hback
  obtain ⟨hhold, hcount⟩ := Prod.mk.inj heq
  have hzero := h "w" none _ w "@bob" false 1 4 hw hhold [] w trivial rfl
  rw [hcount] at hzero
  exact nomatch hzero

end World

end Coforge.Attention
