import Coforge.Supervisor.Upgrade
import Mathlib

/-!
# The history of upgrade operations

What the three upgrade operations do to the list of a binding: an operation is opened at its end,
settled once, and acknowledged after that.
-/

namespace Coforge.Supervisor

open History List

/-- An operation is settled from `pending`, and acknowledged from there. -/
inductive UpgradeOperationState.Next : UpgradeOperationState → UpgradeOperationState → Prop
  | succeed : Next .pending .succeeded
  | fail : Next .pending .failed
  | acknowledgeSucceeded : Next .succeeded .acknowledged
  | acknowledgeFailed : Next .failed .acknowledged

/-- The same operation, later: its state has moved on and its evidence, once set, is the same. -/
structure UpgradeOperation.Follows (o o' : UpgradeOperation) : Prop where
  requestId : o'.requestId = o.requestId
  expectedVersion : o'.expectedVersion = o.expectedVersion
  requestedAt : o'.requestedAt = o.requestedAt
  state : Relation.ReflTransGen UpgradeOperationState.Next o.state o'.state
  terminal : ∀ t, o.terminal = some t → o'.terminal = some t

lemma UpgradeOperation.Follows.refl (o : UpgradeOperation) : o.Follows o :=
  ⟨rfl, rfl, rfl, .refl, fun _ => id⟩

lemma UpgradeOperation.Follows.trans {o p q : UpgradeOperation} (hop : o.Follows p)
    (hpq : p.Follows q) : o.Follows q where
  requestId := hpq.requestId.trans hop.requestId
  expectedVersion := hpq.expectedVersion.trans hop.expectedVersion
  requestedAt := hpq.requestedAt.trans hop.requestedAt
  state := hop.state.trans hpq.state
  terminal t ht := hpq.terminal t (hop.terminal t ht)

/-- A list as the store accepts it: request ids are unique, and no pending operation has evidence
yet. -/
structure WellFormed (operations : List UpgradeOperation) : Prop where
  unique : (operations.map (·.requestId)).Nodup
  pending : ∀ o ∈ operations, o.state = .pending → o.terminal = none

section Operations

variable {operations : List UpgradeOperation} {o : UpgradeOperation}
  {edit : UpgradeOperation → UpgradeOperation}

lemma WellFormed.nil : WellFormed [] := ⟨nodup_nil, fun _ h => nomatch h⟩

lemma WellFormed.eq (h : WellFormed operations) {p : UpgradeOperation} (ho : o ∈ operations)
    (hp : p ∈ operations) (hid : p.requestId = o.requestId) : p = o :=
  inj_on_of_nodup_map h.unique hp ho hid

lemma carries_edit (h : WellFormed operations) (ho : o ∈ operations) (hedit : o.Follows (edit o)) :
    Carries upgradeOperationHistory UpgradeOperation.Follows 0 operations
      (editOperation operations o.requestId edit) := by
  refine carries_map fun p hp => ?_
  by_cases hid : p.requestId = o.requestId
  · rw [if_pos hid, h.eq ho hp hid]
    exact hedit
  · rw [if_neg hid]
    exact .refl p

lemma map_editOperation (hid : ∀ p, (edit p).requestId = p.requestId) (requestId : String) :
    (editOperation operations requestId edit).map (·.requestId) = operations.map (·.requestId) := by
  rw [editOperation, map_map]
  refine map_congr_left fun p _ => ?_
  show (if p.requestId = requestId then edit p else p).requestId = p.requestId
  split_ifs
  · exact hid p
  · rfl

lemma WellFormed.edited (h : WellFormed operations) (ho : o ∈ operations)
    (hid : ∀ p, (edit p).requestId = p.requestId) (hstate : (edit o).state ≠ .pending) :
    WellFormed (editOperation operations o.requestId edit) := by
  refine ⟨by rw [map_editOperation hid]; exact h.unique, fun p hp hpending => ?_⟩
  obtain ⟨q, hq, rfl⟩ := mem_map.mp hp
  by_cases hqo : q.requestId = o.requestId
  · rw [if_pos hqo, h.eq ho hq hqo] at hpending
    exact absurd hpending hstate
  · rw [if_neg hqo] at hpending ⊢
    exact h.pending q hq hpending

/-! ### Pending operations -/

/-- No operation is pending. -/
def NonePending (operations : List UpgradeOperation) : Prop :=
  ∀ o ∈ operations, o.state ≠ .pending

/-- At most one operation is pending. -/
def OnePending (operations : List UpgradeOperation) : Prop :=
  ∀ o ∈ operations, ∀ o' ∈ operations, o.state = .pending → o'.state = .pending → o = o'

lemma NonePending.sole (h : NonePending operations) : OnePending operations :=
  fun o ho _ _ hpending => absurd hpending (h o ho)

/-- How a list may change: operations are settled or acknowledged, and one is opened after them. -/
structure Amends (opened : Bool) (operations next : List UpgradeOperation) : Prop where
  wellFormed : WellFormed next
  carries : Carries upgradeOperationHistory UpgradeOperation.Follows (if opened then 1 else 0)
    operations next
  sole : OnePending operations → OnePending next
  settled : opened = false → NonePending operations → NonePending next

lemma Amends.refl (h : WellFormed operations) : Amends false operations operations :=
  ⟨h, .refl .refl 0 _, id, fun _ => id⟩

variable {requestId : String}

lemma pending_edited {p : UpgradeOperation} (hstate : ∀ q, (edit q).state ≠ .pending)
    (hp : p ∈ editOperation operations requestId edit) (hpending : p.state = .pending) :
    p ∈ operations ∧ p.requestId ≠ requestId := by
  obtain ⟨q, hq, rfl⟩ := mem_map.mp hp
  by_cases hid : q.requestId = requestId
  · rw [if_pos hid] at hpending
    exact absurd hpending (hstate q)
  · rw [if_neg hid]
    exact ⟨hq, hid⟩

lemma WellFormed.amended (h : WellFormed operations) (ho : o ∈ operations)
    (hid : ∀ p, (edit p).requestId = p.requestId) (hstate : ∀ p, (edit p).state ≠ .pending)
    (hedit : o.Follows (edit o)) :
    Amends false operations (editOperation operations o.requestId edit) where
  wellFormed := h.edited ho hid (hstate o)
  carries := carries_edit h ho hedit
  sole hsole p hp q hq hp' hq' :=
    hsole p (pending_edited hstate hp hp').1 q (pending_edited hstate hq hq').1 hp' hq'
  settled _ hsettled p hp hp' := hsettled p (pending_edited hstate hp hp').1 hp'

/-! ### Settling and acknowledging -/

lemma follows_settled (settlement : PendingUpgradeSettlement) (hpending : o.state = .pending)
    (hterminal : o.terminal = none) : o.Follows (o.settled settlement) where
  requestId := rfl
  expectedVersion := rfl
  requestedAt := rfl
  state := by
    rw [hpending]
    refine .single ?_
    show UpgradeOperationState.Next .pending settlement.status
    unfold PendingUpgradeSettlement.status
    split_ifs
    · exact .succeed
    · exact .fail
  terminal t ht := by rw [hterminal] at ht; cases ht

lemma settled_state (settlement : PendingUpgradeSettlement) :
    (o.settled settlement).state ≠ .pending := by
  show settlement.status ≠ .pending
  unfold PendingUpgradeSettlement.status
  split_ifs <;> simp

lemma settle_operation (h : WellFormed operations) (ho : o ∈ operations)
    (hpending : o.state = .pending) (settlement : PendingUpgradeSettlement) :
    Amends false operations (editOperation operations o.requestId (·.settled settlement)) :=
  h.amended ho (fun _ => rfl) (fun _ => settled_state settlement)
    (follows_settled settlement hpending (h.pending o ho hpending))

lemma settled_operation (hsole : OnePending operations) (ho : o ∈ operations)
    (hpending : o.state = .pending) (settlement : PendingUpgradeSettlement) :
    NonePending (editOperation operations o.requestId (·.settled settlement)) := by
  intro p hp hp'
  obtain ⟨hmem, hne⟩ := pending_edited (fun _ => settled_state settlement) hp hp'
  exact hne (congrArg _ (hsole p hmem o ho hp' hpending))

lemma acknowledge_operation (h : WellFormed operations) (ho : o ∈ operations)
    (hstate : o.state = .succeeded ∨ o.state = .failed) : Amends false operations
      (editOperation operations o.requestId fun p => { p with state := .acknowledged }) := by
  refine h.amended ho (fun _ => rfl) (fun _ => by simp) ⟨rfl, rfl, rfl, .single ?_, fun _ => id⟩
  rcases hstate with hstate | hstate <;> rw [hstate]
  · exact .acknowledgeSucceeded
  · exact .acknowledgeFailed

/-! ### Opening -/

lemma mem_of_findOperation (h : findOperation operations requestId = some o) :
    o ∈ operations ∧ o.requestId = requestId :=
  ⟨mem_of_find?_eq_some h, by simpa using find?_some h⟩

lemma not_mem_of_findOperation (h : findOperation operations requestId = none) :
    ∀ p ∈ operations, p.requestId ≠ requestId := by
  simpa [findOperation] using h

variable {expectedVersion : String} {requestedAt : Nat}

lemma carries_open : Carries upgradeOperationHistory UpgradeOperation.Follows 1 operations
      (openOperation operations requestId expectedVersion requestedAt) :=
  carries_push .refl _

lemma openOperation_split (operations : List UpgradeOperation)
    (requestId expectedVersion : String) (requestedAt : Nat) :
    ∃ pre o, openOperation operations requestId expectedVersion requestedAt = pre ++ [o] ∧
      o.requestId = requestId := by
  obtain ⟨pre, hpre⟩ := sliceLast_split operations
    { requestId := requestId, expectedVersion := expectedVersion, state := .pending
      requestedAt := requestedAt, terminal := none }
    (show ([] : List UpgradeOperation).length < upgradeOperationHistory by decide)
  exact ⟨pre, _, hpre, rfl⟩

lemma WellFormed.opened
    (h : WellFormed operations) (hnew : ∀ p ∈ operations, p.requestId ≠ requestId) :
    WellFormed (openOperation operations requestId expectedVersion requestedAt) := by
  have hsublist := sliceLast_sublist upgradeOperationHistory
    (operations ++ [{ requestId := requestId, expectedVersion := expectedVersion
                      state := .pending, requestedAt := requestedAt, terminal := none }])
  constructor
  · refine Nodup.sublist (hsublist.map _) ?_
    rw [map_append]
    refine nodup_append.mpr ⟨h.unique, by simp, ?_⟩
    rintro id hid _ hid' rfl
    obtain ⟨p, hp, rfl⟩ := mem_map.mp hid
    exact hnew p hp (by simpa using hid')
  · intro p hp hpending
    rcases mem_append.mp (hsublist.subset hp) with hp | hp
    · exact h.pending p hp hpending
    · rw [mem_singleton.mp hp]

lemma Amends.opened {next : List UpgradeOperation} (h : Amends false operations next)
    (hsettled : OnePending operations → NonePending next) (hnew : ∀ p ∈ next, p.requestId ≠ requestId) :
    Amends true operations (openOperation next requestId expectedVersion requestedAt) where
  wellFormed := h.wellFormed.opened hnew
  carries := by
    have hnext : Carries upgradeOperationHistory UpgradeOperation.Follows 0 operations next :=
      h.carries
    have hopen : Carries upgradeOperationHistory UpgradeOperation.Follows 1 next
        (openOperation next requestId expectedVersion requestedAt) := carries_open
    have htrans (o p q : UpgradeOperation) : o.Follows p → p.Follows q → o.Follows q := .trans
    exact Carries.trans htrans hnext hopen
  sole hsole p hp q hq hp' hq' := by
    have hlast {r : UpgradeOperation} (hr : r ∈ openOperation next requestId expectedVersion
        requestedAt) (hr' : r.state = .pending) :
        r = { requestId := requestId, expectedVersion := expectedVersion, state := .pending
              requestedAt := requestedAt, terminal := none } := by
      rcases mem_append.mp ((sliceLast_sublist _ _).subset hr) with hr | hr
      · exact absurd hr' (hsettled hsole r hr)
      · exact mem_singleton.mp hr
    rw [hlast hp hp', hlast hq hq']
  settled h := by cases h

end Operations

end Coforge.Supervisor
