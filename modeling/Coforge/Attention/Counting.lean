import Coforge.Attention.Arrivals
import Coforge.Attention.Coherence

/-!
# The pending count

The attention record of a target counts its pending messages. The count is kept beside the set of
their sequences: each recorded message adds one to it, whether or not its sequence was pending
already, and a settlement sets it to the size of the set. A recovery writes the counts it started
from, with its own messages.

So the count is the number of pending messages as long as no message is recorded twice and nothing
else changes a count while a recovery waits for the session.
-/

namespace Coforge.Attention

open Transition

/-! ### Records that count -/

/-- What a target announces. -/
def announcedCount (attention : Option MessageAttention) : Nat :=
  (attention.map MessageAttention.pendingCount).getD 0

namespace Index

/-- The count of every target is the number of its pending sequences. -/
def Counted (s : Index) : Prop := ∀ t, s.pendingMessageCount t = (s.unreviewed t).pending.card

variable {s s' : Index}

lemma counted_init (durable : Option ConsumedSeqState) : (init durable).Counted := fun _ => rfl

lemma Counted.same (h : s.Counted) (hsame : SamePending s s') : s'.Counted := by
  intro t
  rw [pendingMessageCount, attention, hsame.unreviewed]
  exact h t

lemma Counted.recordAttention (h : s.Counted) {message : Delivery} (now : Nat)
    (hfresh : message.sequence ∉ (s.unreviewed message.target).pending) :
    (s.recordAttention message now).Counted := by
  intro t
  rw [pendingMessageCount, attention, attention_recordAttention, pending_recordAttention]
  by_cases ht : t = message.target
  · subst ht
    rw [if_pos rfl, if_pos rfl, Finset.card_insert_of_notMem hfresh, ← h message.target]
    rfl
  · rw [if_neg ht, if_neg ht]
    exact h t

/-! ### Settlements -/

lemma pending_settleEntry (settled : Nat → Bool) (u : Unreviewed) :
    (settleEntry settled u).pending = u.pending.filter fun n => !settled n := by
  ext n
  rw [Unreviewed.pending_settleEntry]
  simp

lemma count_settleEntry (settled : Nat → Bool) {u : Unreviewed}
    (h : announcedCount u.attention = u.pending.card) :
    announcedCount (settleEntry settled u).attention = (settleEntry settled u).pending.card := by
  rw [pending_settleEntry]
  rcases ha : u.attention with _ | a
  · -- without a record nothing is pending
    rw [ha] at h
    have hempty : u.pending = ∅ := Finset.card_eq_zero.mp h.symm
    simp [settleEntry, ha, hempty, announcedCount]
  · simp only [settleEntry, ha]
    split_ifs with hnone hsame
    · rw [hnone]
      rfl
    · exact hsame.symm
    · rfl

lemma Counted.settleTargets (h : s.Counted) (targets : Target → Bool) (settled : Nat → Bool) :
    (s.settleTargets targets settled).Counted := by
  intro t
  rw [pendingMessageCount, attention]
  simp only [Index.settleTargets]
  split_ifs
  · exact count_settleEntry settled (h t)
  · exact h t

lemma Counted.clearAll (h : s.Counted) (targets : Target → Bool) :
    (s.clearAll targets).Counted := by
  intro t
  rw [pendingMessageCount, attention]
  simp only [Index.clearAll]
  split_ifs
  · rfl
  · exact h t

lemma Counted.settles (h : s.Counted) (hsettles : s.Settles s') : s'.Counted :=
  hsettles.keeps (fun _ _ hsame hs => hs.same hsame) (fun _ targets settled hs =>
    hs.settleTargets targets settled) (fun _ targets hs => hs.clearAll targets) h

end Index

/-! ### Messages that are new -/

/-- The messages are distinct, and none of them is pending. -/
structure New (s : Index) (arrivals : List Arrival) : Prop where
  distinct : arrivals.Pairwise fun a b => ¬ (a.target = b.target ∧ a.sequence = b.sequence)
  fresh : ∀ a ∈ arrivals, a.sequence ∉ (s.unreviewed a.target).pending

instance (s : Index) (arrivals : List Arrival) : Decidable (New s arrivals) :=
  decidable_of_iff (_ ∧ _) ⟨fun h => ⟨h.1, h.2⟩, fun h => ⟨h.distinct, h.fresh⟩⟩

lemma New.tail {s s' : Index} {a : Arrival} {arrivals : List Arrival} (h : New s (a :: arrivals))
    (hpending : ∀ t, (s'.unreviewed t).pending =
      if t = a.target then insert a.sequence (s.unreviewed t).pending
      else (s.unreviewed t).pending) : New s' arrivals := by
  obtain ⟨hhead, hrest⟩ := List.pairwise_cons.mp h.distinct
  refine ⟨hrest, fun b hb => ?_⟩
  have hfresh := h.fresh b (List.mem_cons_of_mem _ hb)
  rw [hpending]
  split_ifs with ht
  · rw [Finset.mem_insert, not_or]
    exact ⟨fun heq => hhead b hb ⟨ht.symm, heq.symm⟩, hfresh⟩
  · exact hfresh

lemma Index.Counted.recordAll (messages : List Delivery) (now : Nat) :
    ∀ {s : Index}, s.Counted → New s (messages.map Delivery.arrival) →
      (s.recordAll messages now).Counted := by
  induction messages with
  | nil => exact fun h _ => h
  | cons message messages ih =>
    intro s h hnew
    refine ih (h.recordAttention now (hnew.fresh _ List.mem_cons_self)) (hnew.tail fun t => ?_)
    exact Index.pending_recordAttention message now t

lemma announcedCount_recoverAttention (att : Target → Option MessageAttention)
    (message : RecoveryMessage) (t : Target) : announcedCount (recoverAttention att message t) =
      if t = message.target then announcedCount (att t) + 1 else announcedCount (att t) := by
  simp only [recoverAttention]
  split_ifs with ht
  · rw [ht]
    rfl
  · rfl

/-- The records of a recovery count its messages too. The induction is on the messages still to
come; the records are those written so far. -/
lemma counted_foldl_recoverAttention (messages : List RecoveryMessage) :
    ∀ {s : Index} {att : Target → Option MessageAttention},
      (∀ t, announcedCount (att t) = (s.unreviewed t).pending.card) →
      New s (messages.map RecoveryMessage.arrival) →
      ∀ t, announcedCount (messages.foldl recoverAttention att t) =
        ((messages.foldl Index.recordRecovered s).unreviewed t).pending.card := by
  induction messages with
  | nil => exact fun h _ => h
  | cons message messages ih =>
    intro s att h hnew
    refine ih (fun t => ?_) (hnew.tail fun t => Index.pending_recordRecovered message t)
    rw [Index.pending_recordRecovered, announcedCount_recoverAttention, h]
    by_cases ht : t = message.target
    · subst ht
      have hfresh : message.sequence ∉ (s.unreviewed message.target).pending :=
        hnew.fresh _ List.mem_cons_self
      rw [if_pos rfl, if_pos rfl, Finset.card_insert_of_notMem hfresh]
    · rw [if_neg ht, if_neg ht]

lemma attention_foldl_recordRecovered (messages : List RecoveryMessage) (t : Target) :
    ∀ s : Index, ((messages.foldl Index.recordRecovered s).unreviewed t).attention =
      (s.unreviewed t).attention := by
  induction messages with
  | nil => exact fun _ => rfl
  | cons message messages ih =>
    exact fun s => (ih (s.recordRecovered message)).trans (Index.attention_recordRecovered message t)

/-- A recovery finds each count as it was when it started. -/
def SameCounts (s : Index) (r : Recovery) : Prop :=
  ∀ t, announcedCount (r.currentAttention t) = s.pendingMessageCount t

lemma Index.Counted.writeRecovery {s : Index} (h : s.Counted) {r : Recovery}
    (hcounts : SameCounts s r) (hnew : New s (r.messages.map RecoveryMessage.arrival)) :
    (s.writeRecovery r).Counted := by
  intro t
  have hwritten := @counted_foldl_recoverAttention r.messages (s.withAttention r.byTarget)
    r.currentAttention (fun t => (hcounts t).trans (h t)) ⟨hnew.distinct, hnew.fresh⟩ t
  rw [Index.pendingMessageCount, Index.attention, Index.writeRecovery,
    attention_foldl_recordRecovered]
  exact hwritten

/-! ### Every run -/

/-- A step records messages that are new, and writes back a recovery to the counts it started
from. -/
structure CountsOnce (w : World) (l : Label) : Prop where
  new : New w.index (w.recorded l)
  counts : ∀ r, w.writtenRecovery l = some r → SameCounts w.index r

lemma counted_step {w w' : World} {l : Label} (h : w.index.Counted) (hok : CountsOnce w l)
    (hstep : step w l = some w') : w'.index.Counted := by
  obtain ⟨hnew, hcounts⟩ := hok
  rcases World.pends_step hstep with ⟨now, hnone, hsame⟩ | ⟨r, hsome, hindex⟩ |
    ⟨-, hsettles⟩ | ⟨-, hindex⟩
  · rw [World.recorded, hnone] at hnew
    exact (Index.Counted.recordAll _ now h hnew).same hsame
  · rw [World.recorded, hsome] at hnew
    rw [hindex]
    exact h.writeRecovery (hcounts r hsome) hnew
  · exact h.settles hsettles
  · rw [hindex]
    exact Index.counted_init w.index.durable

/-- In every run whose steps record new messages, and write recoveries back to the counts they
started from, each target announces as many messages as it has pending sequences. -/
theorem counted_run (ws : String) (durable : Option ConsumedSeqState) (ls : List Label) (w : World)
    (hok : Permitted step CountsOnce (.init ws durable) ls)
    (hrun : run step (.init ws durable) ls = some w) (t : Target) :
    w.index.pendingMessageCount t = (w.index.unreviewed t).pending.card := by
  have hcounted : w.index.Counted :=
    @invariant _ _ _ _ (fun w => w.index.Counted) (fun _ _ _ h hok hstep => counted_step h hok hstep)
      _ _ _ (Index.counted_init durable) hok hrun
  exact hcounted t

open World Drained in
/-- A delivery, and a recovery of another target that is written back at once. -/
theorem counted_run_quiet : ∃ w, run step (.init "w" none) quiet = some w ∧
    w.index.pendingMessageCount "@bob" = 1 := by
  have hlength : ((init "w" none).receive message false true 0).recoveries.length = 0 := by
    decide +kernel
  have hok : Permitted step CountsOnce (.init "w" none) quiet := by
    simp only [quiet, start, List.cons_append, List.nil_append, Permitted, implies_true, and_true]
    refine ⟨⟨by decide +kernel, fun r hr => by cases hr⟩, fun w hw => ?_⟩
    cases hw
    refine ⟨⟨⟨List.Pairwise.nil, fun a ha => absurd ha List.not_mem_nil⟩,
      fun r hr => by cases hr⟩, fun w hw => ?_⟩
    cases hw
    refine ⟨by decide +kernel, fun r hr t => ?_⟩
    obtain ⟨hrecovery, -⟩ := Option.filter_eq_some_iff.mp hr
    have hstarted := (recovery_of_recover
      (w := (init "w" none).receive message false true 0) (r := r) (by
        rw [hlength]
        exact hrecovery)).1
    rw [hstarted, Index.pendingMessageCount, index_recover]
    rfl
  have hone : (run step (.init "w" none) quiet).map (fun w =>
      (w.index.unreviewed "@bob").pending.card) = some 1 := by decide +kernel
  obtain ⟨w, hw, hcard⟩ := Option.map_eq_some_iff.mp hone
  exact ⟨w, hw, (counted_run "w" none quiet w hok hw "@bob").trans hcard⟩

/-- A message delivered again under another delivery id. -/
def redelivered : List Label := [
  .receive Drained.message false true 0,
  .receive { Drained.message with deliveryId := "d2" } false true 1]

/-- One message is pending, and two are announced. -/
theorem counted_twice :
    ¬ ∀ (ws : String) (durable : Option ConsumedSeqState) (ls : List Label) (w : World),
      run step (.init ws durable) ls = some w → ∀ t,
        w.index.pendingMessageCount t = (w.index.unreviewed t).pending.card := by
  intro h
  have hcount := h "w" none redelivered _ rfl "@ann"
  revert hcount
  decide +kernel

end Coforge.Attention
