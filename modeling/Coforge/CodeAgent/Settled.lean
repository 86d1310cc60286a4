import Coforge.CodeAgent.JsonlProcess
import Coforge.Lib.Keyed

/-!
# What a code agent's process settles and delivers

Every request that was issued is pending or settled, and only an open process has pending requests.
The records that were accepted are those of the decoded output, whatever its chunks.
-/

namespace Coforge.CodeAgent

open Lines

/-! ### Requests -/

lemma requestId_injective : Function.Injective requestId :=
  Keyed.numbered_injective "coforge-"

/-- The record that settled a response. -/
def Settlement.record? : Settlement → Option Json
  | resolved record      => some record
  | responseError record => some record
  | rejected _           => none

namespace Process

/-- The ids of the requests that were issued, the oldest first. -/
def issued (p : Process) : List String := (List.Ico 1 p.next).map requestId

/-- Each issued request is settled or else pending, and then the process is open. -/
structure Settles (p : Process) : Prop where
  perm    : (p.settled.map Prod.fst ++ p.pending).Perm p.issued
  pos     : 1 ≤ p.next
  idle    : p.state ≠ .open → p.pending = []
  fresh   : p.state = .open → p.failing = none ∧ p.disposals = 0
  answers : ∀ e ∈ p.settled, ∀ record, e.2.record? = some record →
    record ∈ p.accepted ∧ Json.text? (record.get? "id") = some e.1

/-- What the reader of the output finds unchanged, and what every change of the process keeps. -/
structure Kept (p q : Process) : Prop where
  settles   : p.Settles → q.Settles
  ended     : p.state ≠ .open → q.state ≠ .open
  accepted  : q.accepted = p.accepted
  delivered : q.delivered = p.delivered

lemma Kept.refl (p : Process) : p.Kept p := ⟨id, id, rfl, rfl⟩

variable {p : Process}

lemma Kept.trans {q r : Process} (h : p.Kept q) (h' : q.Kept r) : p.Kept r :=
  ⟨h'.settles ∘ h.settles, h'.ended ∘ h.ended, h'.accepted.trans h.accepted,
    h'.delivered.trans h.delivered⟩

lemma settles_create : create.Settles := by
  refine ⟨?_, le_rfl, fun _ => rfl, fun _ => ⟨rfl, rfl⟩, by simp [create]⟩
  simp [create, issued]

lemma Settles.issued_nodup (h : p.Settles) : (p.settled.map Prod.fst ++ p.pending).Nodup :=
  h.perm.nodup_iff.mpr ((List.Ico.nodup 1 p.next).map requestId_injective)

lemma Settles.rejectPending (h : p.Settles) {state : ProcessState}
    (hstate : state ≠ .open) (disposals : ℕ) (message : String) :
    ({ p with state, disposals }.rejectPending message).Settles where
  perm := by
    have hids : (p.pending.map fun id => (id, Settlement.rejected message)).map Prod.fst =
        p.pending := by
      rw [List.map_map]
      exact List.map_id' p.pending
    show (List.map Prod.fst (p.settled ++ _) ++ []).Perm _
    rw [List.append_nil, List.map_append, hids]
    exact h.perm
  pos := h.pos
  idle _ := rfl
  fresh hopen := absurd hopen hstate
  answers := by
    intro e he record hrecord
    rcases List.mem_append.mp he with he | he
    · exact h.answers e he record hrecord
    · obtain ⟨id, _, rfl⟩ := List.mem_map.mp he
      cases hrecord

/-- A process that is no longer open has nothing pending, whatever state it takes next. -/
lemma Settles.close (h : p.Settles) (hp : p.state ≠ .open) {state : ProcessState}
    (hstate : state ≠ .open) (failing : Option String) (disposals : ℕ) :
    { p with state, failing, disposals }.Settles :=
  ⟨h.perm, h.pos, fun _ => h.idle hp, fun hopen => absurd hopen hstate, h.answers⟩

lemma kept_recordFailure (message : String) (p : Process) : p.Kept (p.recordFailure message) := by
  unfold recordFailure
  split
  · exact .refl p
  · exact ⟨fun h => h.rejectPending (by rintro ⟨⟩) p.disposals message, fun _ => by rintro ⟨⟩, rfl,
      rfl⟩

lemma fail_state (message : String) (p : Process) : (p.fail message).state ≠ .open := by
  unfold fail
  split
  · rename_i hopen
    simp [recordFailure, hopen, rejectPending]
  · assumption

lemma recordFailure_state_of_open (hp : p.state = .open) (message : String) :
    (p.recordFailure message).state ≠ .open := by
  simp [recordFailure, hp, rejectPending]

lemma kept_fail (message : String) (p : Process) : p.Kept (p.fail message) := by
  have hstate := fail_state message p
  unfold fail at hstate ⊢
  split
  · rename_i hopen
    have h := kept_recordFailure message p
    have hfailed := recordFailure_state_of_open hopen message
    exact ⟨fun hp => (h.settles hp).close hfailed hfailed _ _, h.ended, h.accepted, h.delivered⟩
  · exact .refl p

lemma kept_cleaned (p : Process) : p.Kept p.cleaned := by
  unfold cleaned
  split
  · exact .refl p
  all_goals
    rename_i hfailing _
    refine ⟨fun h => h.close (fun hopen => ?_) (by rintro ⟨⟩) _ _, fun _ => by rintro ⟨⟩, rfl, rfl⟩
    rw [(h.fresh hopen).1] at hfailing
    cases hfailing

lemma kept_cleanupFailed (message : String) (p : Process) : p.Kept (p.cleanupFailed message) := by
  unfold cleanupFailed
  split
  · exact .refl p
  · rename_i hfailing
    have h := kept_recordFailure message p
    refine ⟨fun hp => ?_, h.ended, h.accepted, h.delivered⟩
    have hended : p.state ≠ .open := by
      intro hopen
      rw [(hp.fresh hopen).1] at hfailing
      cases hfailing
    exact (h.settles hp).close (h.ended hended) (h.ended hended) _ _

lemma kept_disposed (p : Process) : p.Kept p.disposed := by
  unfold disposed
  split_ifs with hzero
  · exact .refl p
  · exact ⟨fun h => h.close (fun hopen => hzero (h.fresh hopen).2) (by rintro ⟨⟩) _ _,
      fun _ => by rintro ⟨⟩, rfl, rfl⟩

lemma kept_disposeFailed (message : String) (p : Process) : p.Kept (p.disposeFailed message) := by
  unfold disposeFailed
  split_ifs with hzero
  · exact .refl p
  · have h := kept_recordFailure message p
    refine ⟨fun hp => ?_, h.ended, h.accepted, h.delivered⟩
    have hended : p.state ≠ .open := fun hopen => hzero (hp.fresh hopen).2
    exact (h.settles hp).close (h.ended hended) (h.ended hended) _ _

lemma kept_request (p : Process) : p.Kept p.request := by
  unfold request
  split
  · rename_i hopen
    refine ⟨fun h => ⟨?_, Nat.le_succ_of_le h.pos, fun hne => absurd hopen hne, h.fresh,
      h.answers⟩, id, rfl, rfl⟩
    show (_ ++ (p.pending ++ [requestId p.next])).Perm ((List.Ico 1 (p.next + 1)).map requestId)
    rw [List.Ico.succ_top h.pos, List.map_append, ← List.append_assoc]
    exact h.perm.append_right _
  · exact .refl p

lemma kept_dispose (p : Process) : p.Kept p.dispose := by
  unfold dispose
  split
  · exact .refl p
  · exact ⟨fun h => h.rejectPending (by rintro ⟨⟩) _ _, fun _ => by rintro ⟨⟩, rfl, rfl⟩
  · rename_i hended
    exact ⟨fun h => h.close hended hended _ _, id, rfl, rfl⟩

lemma dispose_state (p : Process) : p.dispose.state ≠ .open := by
  unfold dispose
  split
  · rename_i hclosed
    rw [hclosed]
    rintro ⟨⟩
  · rintro ⟨⟩
  · assumption

lemma kept_call (p : Process) (c : Call) : p.Kept (p.call c) := by
  cases c with
  | request => exact kept_request p
  | sendFailed => exact kept_fail _ p
  | dispose => exact kept_dispose p

lemma kept_calls (cs : List Call) (p : Process) : p.Kept (cs.foldl call p) := by
  induction cs generalizing p with
  | nil => exact .refl p
  | cons c cs ih => exact (kept_call p c).trans (ih (p.call c))

lemma kept_requestFailed (id : String) (p : Process) : p.Kept (p.requestFailed id) := by
  have h : p.Kept p.sendFailed := kept_fail _ p
  refine ⟨fun hp => ?_, h.ended, h.accepted, h.delivered⟩
  have hs := h.settles hp
  -- A failed send has left nothing pending, so there is no entry to delete.
  have hnone : p.sendFailed.pending.erase id = p.sendFailed.pending := by
    rw [hs.idle (fail_state _ p), List.erase_nil]
  refine ⟨?_, hs.pos, fun hended => hnone.trans (hs.idle hended), hs.fresh, hs.answers⟩
  show (_ ++ p.sendFailed.pending.erase id).Perm _
  rw [hnone]
  exact hs.perm

end Process

end Coforge.CodeAgent
