import Coforge.Attention.Index

/-!
# What each operation of the index keeps

`Unreviewed.Kept o b c u` relates what the Agent has not been shown of a target to what it has:
there is an attention record exactly while something is pending, nothing pending was seen, the
window shows pending messages only, and the record counts at least the pending ones. What is
recorded later depends on the caller, and so do two more facts: where deliveries come in order
(`o`) the record starts at the least pending sequence, and where they stay within a bound (`b`) so
does what is pending.

The operations keep this for every target, with the consumed state the index would load if it
has not loaded it yet.
-/

namespace Coforge.Attention

open Index

/-- Whether a consumed entry covers a sequence. -/
def ConsumedSeqEntry.Seen (c : ConsumedSeqEntry) (n : Nat) : Prop := n ≤ c.seq ∨ n ∈ c.exactSeqs

/-- What an attention record says of the pending sequences. -/
structure MessageAttention.Covers (o : Prop) (a : MessageAttention) (pending : Finset Nat) :
    Prop where
  first : o → IsLeast (pending : Set Nat) a.firstPendingSequence
  count : pending.card ≤ a.pendingCount

structure Unreviewed.Kept (o : Prop) (b : Nat → Prop) (c : ConsumedSeqEntry) (u : Unreviewed) :
    Prop where
  record : u.attention.isSome ↔ u.pending.Nonempty
  unseen : ∀ n ∈ u.pending, ¬ c.Seen n
  window : ∀ e ∈ u.pendingWindow, e.delivery.sequence ∈ u.pending
  covers : ∀ a, u.attention = some a → a.Covers o u.pending
  within : ∀ n ∈ u.pending, b n

namespace Unreviewed

open Finset

variable {o : Prop} {b : Nat → Prop} {c c' : ConsumedSeqEntry} {u : Unreviewed}

lemma kept_empty : Kept o b c .empty where
  record := by simp [Unreviewed.empty, pending]
  unseen := by simp
  window := by simp [Unreviewed.empty]
  covers := by simp [Unreviewed.empty]
  within := by simp

lemma Kept.mono (h : Kept o b c u) (hseen : ∀ n, c'.Seen n → c.Seen n) : Kept o b c' u :=
  { h with unseen := fun n hn hs => h.unseen n hn (hseen n hs) }

lemma Kept.conversation (h : Kept o b c u) (conversation : Option String) :
    Kept o b c { u with conversation := conversation } :=
  ⟨h.record, h.unseen, h.window, h.covers, h.within⟩

/-! ### Recording -/

lemma covers_next {message : Delivery} (h : Kept o b c u)
    (horder : o → ∀ a, u.attention = some a → a.firstPendingSequence ≤ message.sequence) :
    (Index.nextAttention message u.attention).Covers o (insert message.sequence u.pending) := by
  have hcard := card_insert_le message.sequence u.pending
  rcases ha : u.attention with _ | a
  · have hempty : u.pending = ∅ := by
      rw [← not_nonempty_iff_eq_empty, ← h.record, ha]
      simp
    rw [hempty]
    exact ⟨by simp [nextAttention], by simp [nextAttention]⟩
  · obtain ⟨hleast, hcount⟩ := h.covers a ha
    refine ⟨fun ho => ⟨?_, ?_⟩, ?_⟩
    · simpa [nextAttention] using Or.inr (hleast ho).1
    · intro n hn
      rcases mem_insert.mp (mem_coe.mp hn) with rfl | hn
      · exact horder ho a ha
      · exact (hleast ho).2 hn
    · simpa [nextAttention] using le_trans hcard (Nat.succ_le_succ hcount)

lemma Kept.record_delivery {message : Delivery} (now : Nat) (h : Kept o b c u)
    (hnew : ¬ c.Seen message.sequence) (hwithin : b message.sequence)
    (horder : o → ∀ a, u.attention = some a → a.firstPendingSequence ≤ message.sequence) :
    Kept o b c { u with
      attention := some (Index.nextAttention message u.attention)
      pendingSequences := some (insert message.sequence u.pending)
      pendingWindow :=
        History.sliceLast heldContextLimit (u.pendingWindow ++ [⟨message, now⟩]) } where
  record := by simp [pending]
  unseen := by
    intro n hn
    rcases mem_insert.mp hn with rfl | hn
    · exact hnew
    · exact h.unseen n hn
  window := by
    intro e he
    rcases List.mem_append.mp ((History.sliceLast_sublist _ _).mem he) with he | he
    · exact mem_insert_of_mem (h.window e he)
    · rw [List.mem_singleton.mp he]
      exact mem_insert_self _ _
  covers := by
    intro a ha
    rw [← Option.some.inj ha]
    exact covers_next h horder
  within := by
    intro n hn
    rcases mem_insert.mp hn with rfl | hn
    · exact hwithin
    · exact h.within n hn

/-! ### Settling -/

lemma pending_settleEntry (settled : Nat → Bool) (u : Unreviewed) (n : Nat) :
    n ∈ (Index.settleEntry settled u).pending ↔ n ∈ u.pending ∧ settled n = false := by
  have hmap : (u.pendingSequences.map fun _ => u.pending.filter fun n => !settled n).getD ∅ =
      u.pending.filter fun n => !settled n := by
    rcases hp : u.pendingSequences with _ | pending
    · simp [pending, hp]
    · rfl
  have hfilter : n ∈ u.pending.filter (fun n => !settled n) ↔ n ∈ u.pending ∧ settled n = false := by
    simp
  rcases ha : u.attention with _ | a
  · simp only [settleEntry, ha]
    rw [pending, hmap, hfilter]
  · simp only [settleEntry, ha]
    split_ifs with hempty hcard
    · rw [hempty] at hfilter
      simpa using hfilter
    · rw [pending, hmap, hfilter]
    · rw [pending, hmap, hfilter]

variable {settled : Nat → Bool}

lemma window_settleEntry {u : Unreviewed} {e : PendingWindowEntry}
    (he : e ∈ (Index.settleEntry settled u).pendingWindow) :
    e ∈ u.pendingWindow ∧ settled e.delivery.sequence = false := by
  simp only [settleEntry] at he
  split at he
  · simpa using he
  · split_ifs at he
    · exact nomatch he
    · simpa using he
    · simpa using he

lemma fold_min_isLeast {pending : Finset Nat} (h : pending.Nonempty) :
    IsLeast (pending : Set Nat) (pending.fold min (pending.sup id) id) := by
  constructor
  · obtain ⟨n, hn, heq⟩ := pending.exists_mem_eq_inf' h id
    have hfold : pending.fold min (pending.sup id) id = n := by
      apply le_antisymm
      · exact (fold_min_le n).mpr (Or.inr ⟨n, hn, le_rfl⟩)
      · refine (le_fold_min n).mpr ⟨le_sup (f := id) hn, fun m hm => ?_⟩
        rw [show n = pending.inf' h id from heq.symm]
        exact inf'_le id hm
    rw [hfold]
    exact hn
  · intro n hn
    exact (fold_min_le n).mpr (Or.inr ⟨n, hn, le_rfl⟩)

/-- The record of a target after settling: unchanged when nothing was settled, recomputed
otherwise. -/
lemma covers_settleEntry (h : Kept o b c u) {a : MessageAttention}
    (ha : (Index.settleEntry settled u).attention = some a) :
    a.Covers o (Index.settleEntry settled u).pending := by
  have hpending : (settleEntry settled u).pending = u.pending.filter fun n => !settled n := by
    ext n
    rw [pending_settleEntry]
    simp
  rw [hpending]
  rcases hb : u.attention with _ | b
  · simp [settleEntry, hb] at ha
  · obtain ⟨hleast, hcount⟩ := h.covers b hb
    simp only [settleEntry, hb] at ha
    split_ifs at ha with hempty hcard
    · exact nomatch ha
    · -- as many are pending as before, so nothing was settled
      cases ha
      have hall : u.pending.filter (fun n => !settled n) = u.pending :=
        eq_of_subset_of_card_le (filter_subset _ _) (hcard ▸ hcount)
      rw [hall]
      exact ⟨hleast, hcount⟩
    · cases ha
      exact ⟨fun _ => fold_min_isLeast (nonempty_iff_ne_empty.mpr hempty), le_rfl⟩

lemma record_settleEntry (h : Kept o b c u) : (Index.settleEntry settled u).attention.isSome ↔
      (Index.settleEntry settled u).pending.Nonempty := by
  have hpending : (settleEntry settled u).pending = u.pending.filter fun n => !settled n := by
    ext n
    rw [pending_settleEntry]
    simp
  rw [hpending]
  rcases hb : u.attention with _ | b
  · have hempty : u.pending = ∅ := by
      rw [← not_nonempty_iff_eq_empty, ← h.record, hb]
      simp
    simp [settleEntry, hb, hempty]
  · simp only [settleEntry, hb]
    split_ifs with hempty hcard
    · rw [hempty]
      simp [Unreviewed.empty]
    · exact ⟨fun _ => nonempty_iff_ne_empty.mpr hempty, fun _ => by simp⟩
    · exact ⟨fun _ => nonempty_iff_ne_empty.mpr hempty, fun _ => rfl⟩

/-- Settling keeps the relation, to any consumed state that covers no more than was covered
before and what was settled. -/
lemma Kept.settle (h : Kept o b c u) (hseen : ∀ n, c'.Seen n → c.Seen n ∨ settled n = true) :
    Kept o b c' (Index.settleEntry settled u) where
  record := record_settleEntry h
  unseen := by
    intro n hn hs
    obtain ⟨hn, hsettled⟩ := (pending_settleEntry settled u n).mp hn
    rcases hseen n hs with hs | hs
    · exact h.unseen n hn hs
    · exact absurd hs (by simp [hsettled])
  window := by
    intro e he
    obtain ⟨he, hsettled⟩ := window_settleEntry he
    exact (pending_settleEntry settled u _).mpr ⟨h.window e he, hsettled⟩
  covers := fun a ha => covers_settleEntry h ha
  within := fun n hn => h.within n ((pending_settleEntry settled u n).mp hn).1

end Unreviewed

namespace Index

/-! ### The whole index -/

/-- The consumed state of the index, or the one it is going to load. -/
def effective (s : Index) : Target → ConsumedSeqEntry := s.hydrate.consumed

def Kept (o : Prop) (b : Target → Nat → Prop) (s : Index) : Prop :=
  ∀ t, (s.unreviewed t).Kept o (b t) (s.effective t)

variable {o : Prop} {b : Target → Nat → Prop}

variable {s : Index} {t : Target}

lemma hasSeen_iff {n : Nat} : s.hasSeen t n ↔ (s.effective t).Seen n := by
  rw [hasSeen, Bool.or_eq_true, decide_eq_true_iff, Exact.contains_iff]
  rfl

/-- The index reads its store no more. -/
def Loaded (s : Index) : Prop := s.durable = none ∨ s.hydrated = true

lemma hydrate_of_loaded (h : s.Loaded) : s.hydrate = s := by
  rcases h with h | h
  · simp [hydrate, h]
  · simp only [hydrate]
    split
    · rfl
    · rw [if_pos h]

lemma loaded_hydrate (s : Index) : s.hydrate.Loaded := by
  rcases hd : s.durable with _ | state
  · exact Or.inl (by simp [hydrate, hd])
  · by_cases hh : s.hydrated
    · exact Or.inr (by simp [hydrate, hd, hh])
    · exact Or.inr (by simp [hydrate, hd, hh])

@[simp] lemma hydrate_unreviewed (s : Index) : s.hydrate.unreviewed = s.unreviewed := by
  simp only [hydrate]
  split
  · rfl
  · split_ifs <;> rfl

lemma effective_of_loaded (h : s.Loaded) : s.effective = s.consumed := by
  rw [effective, hydrate_of_loaded h]

@[simp] lemma effective_hydrate (s : Index) : s.hydrate.effective = s.effective := by
  rw [effective_of_loaded (loaded_hydrate s), effective]

lemma effective_congr {s' : Index} (hc : s'.consumed = s.consumed)
    (hd : s'.durable = s.durable) (hh : s'.hydrated = s.hydrated) : s'.effective = s.effective := by
  simp only [effective, hydrate, hd, hh]
  split
  · exact hc
  · split_ifs
    · exact hc
    · rfl

lemma kept_hydrate : s.hydrate.Kept o b ↔ s.Kept o b := by
  simp only [Kept, effective_hydrate, hydrate_unreviewed]

lemma kept_init (durable : Option ConsumedSeqState) : (init durable).Kept o b :=
  fun _ => Unreviewed.kept_empty

/-! ### Operations that leave the consumed state alone -/

lemma kept_congr {s' : Index} (hc : s'.consumed = s.consumed) (hd : s'.durable = s.durable)
    (hh : s'.hydrated = s.hydrated) (h : ∀ t, (s'.unreviewed t).Kept o (b t) (s.effective t)) :
    s'.Kept o b := by
  intro t
  rw [effective_congr hc hd hh]
  exact h t

lemma Kept.withUnreviewed (h : s.Kept o b) {u : Unreviewed}
    (hu : u.Kept o (b t) (s.effective t)) : (s.withUnreviewed t u).Kept o b := by
  refine kept_congr (s := s) rfl rfl rfl fun t' => ?_
  by_cases ht : t' = t
  · subst ht
    simpa [withUnreviewed] using hu
  · simpa [Index.withUnreviewed, ht] using h t'

lemma Kept.withConversations (h : s.Kept o b) (f : String → Target → Bool) :
    Kept o b { s with conversationTargets := f } :=
  kept_congr (s := s) rfl rfl rfl h

lemma effective_recordConversation (s : Index) (t : Target) (conversationId : String) :
    (s.recordConversation t conversationId).effective = s.effective := by
  simp only [recordConversation]
  split_ifs
  · rfl
  · exact effective_congr rfl rfl rfl

lemma Kept.recordConversation (h : s.Kept o b) (t : Target) (conversationId : String) :
    (s.recordConversation t conversationId).Kept o b := by
  simp only [Index.recordConversation]
  split_ifs
  · exact h
  · exact (h.withUnreviewed ((h t).conversation _)).withConversations _

lemma effective_recordAttention (s : Index) (message : Delivery) (now : Nat) :
    (s.recordAttention message now).effective = s.effective := by
  rw [recordAttention, effective_recordConversation]
  exact effective_congr rfl rfl rfl

theorem Kept.recordAttention (h : s.Kept o b) {message : Delivery} (now : Nat)
    (hnew : s.hasSeen message.target message.sequence = false)
    (hwithin : b message.target message.sequence)
    (horder : o → ∀ a, s.attention message.target = some a →
      a.firstPendingSequence ≤ message.sequence) : (s.recordAttention message now).Kept o b := by
  have hunseen : ¬ (s.effective message.target).Seen message.sequence := by
    rw [← hasSeen_iff, hnew]
    simp
  have hentry := (h message.target).record_delivery now hunseen hwithin horder
  exact (h.withUnreviewed hentry).recordConversation _ _

lemma Kept.clearAll (h : s.Kept o b) (targets : Target → Bool) : (s.clearAll targets).Kept o b := by
  refine kept_congr (s := s) rfl rfl rfl fun t => ?_
  simp only [Index.clearAll]
  split_ifs
  · exact Unreviewed.kept_empty
  · exact h t

lemma Kept.clearThrough (h : s.Kept o b) (t : Target) (sequence : Nat) :
    (s.clearThrough t sequence).Kept o b := by
  simp only [Index.clearThrough]
  split
  · exact h.clearAll _
  · split_ifs
    · exact h.clearAll _
    · exact h

lemma kept_clearAgent (s : Index) : s.clearAgent.Kept o b := fun _ => Unreviewed.kept_empty

/-! ### Operations on the consumed state

They run on a loaded index. -/

/-- Loaded and kept: what the bookkeeping works on. -/
structure Ready (o : Prop) (b : Target → Nat → Prop) (s : Index) : Prop where
  loaded : s.Loaded
  kept : ∀ t, (s.unreviewed t).Kept o (b t) (s.consumed t)

lemma ready_hydrate (h : s.Kept o b) : s.hydrate.Ready o b where
  loaded := loaded_hydrate s
  kept := fun t => by
    rw [hydrate_unreviewed]
    exact h t

lemma Ready.toKept (h : s.Ready o b) : s.Kept o b := by
  intro t
  rw [effective_of_loaded h.loaded]
  exact h.kept t

lemma Ready.persist (h : s.Ready o b) : s.persist.Ready o b := by
  simp only [Index.persist]
  split_ifs with hd
  · exact h
  · refine ⟨Or.inr ?_, h.kept⟩
    rcases h.loaded with hn | hh
    · simp [hn] at hd
    · exact hh

lemma Ready.persist_if (h : s.Ready o b) (changed : Bool) :
    (if changed then s.persist else s).Ready o b := by
  split_ifs
  · exact h.persist
  · exact h

lemma Ready.settleTargets (h : s.Ready o b) (targets : Target → Bool)
    (settled : Nat → Bool) : (s.settleTargets targets settled).Ready o b where
  loaded := h.loaded
  kept := fun t => by
    simp only [Index.settleTargets]
    split_ifs
    · exact (h.kept t).settle fun n hn => Or.inl hn
    · exact h.kept t

lemma Ready.consume (h : s.Ready o b) {c : ConsumedSeqEntry}
    {settled : Nat → Bool} (hseen : ∀ n, c.Seen n → (s.consumed t).Seen n ∨ settled n = true) :
    ((s.withConsumed t c).settlePending t settled).Ready o b where
  loaded := h.loaded
  kept := fun t' => by
    by_cases ht : t' = t
    · subst ht
      simpa [settlePending, Index.settleTargets, Index.withConsumed] using
        (h.kept t').settle hseen
    · simpa [settlePending, Index.settleTargets, Index.withConsumed, ht] using h.kept t'

lemma Ready.withConsumed (h : s.Ready o b) {c : ConsumedSeqEntry}
    (hseen : ∀ n, c.Seen n → (s.consumed t).Seen n) : (s.withConsumed t c).Ready o b where
  loaded := h.loaded
  kept := fun t' => by
    by_cases ht : t' = t
    · subst ht
      simpa [withConsumed] using (h.kept t').mono hseen
    · simpa [Index.withConsumed, ht] using h.kept t'

lemma Ready.advanceFrontier (h : s.Ready o b) (t : Target) (sequence : Nat) :
    (s.advanceFrontier t sequence).1.Ready o b := by
  simp only [Index.advanceFrontier]
  split_ifs
  · exact h
  · refine h.consume fun n hn => ?_
    rcases hn with hn | hn
    · exact Or.inr (by simpa using hn)
    · exact Or.inl (Or.inr (Exact.mem_above.mp hn).1)

/-- Adding exact sequences without settling them is not enough, settling them right after is. -/
lemma Ready.addExact_settleSeen (h : s.Ready o b) (t : Target) (sequences : List Nat) :
    ((s.addExact t sequences).1.settleSeen t).Ready o b := by
  have hsettle : (s.settleSeen t).Ready o b := h.settleTargets _ _
  simp only [addExact]
  split_ifs
  · exact hsettle
  · exact hsettle
  · simp only [settleSeen, Index.withConsumed, if_true]
    refine h.consume fun n hn => Or.inr ?_
    simpa [ConsumedSeqEntry.Seen] using hn

lemma Ready.addExact_false (h : s.Ready o b) {sequences : List Nat}
    (hadd : (s.addExact t sequences).2 = false) : (s.addExact t sequences).1.Ready o b := by
  simp only [addExact] at hadd ⊢
  split_ifs at hadd ⊢
  · exact h
  · exact h

lemma Ready.takeReadOrder (h : s.Ready o b) (t : Target) (sequence : Nat) :
    (s.takeReadOrder t sequence).Ready o b := by
  have hw := h.withConsumed (t := t) (c := { s.consumed t with
    reviewedSeq := if 0 < sequence then max (s.consumed t).reviewedSeq sequence
      else (s.consumed t).reviewedSeq
    readOrder := some (s.readContextCounter + 1) }) fun n hn => hn
  exact ⟨hw.loaded, hw.kept⟩

lemma Ready.setAlias (h : s.Ready o b) (spelling canonical : Target) :
    (s.setAlias spelling canonical).1.Ready o b := by
  simp only [Index.setAlias]
  split_ifs
  all_goals exact ⟨h.loaded, h.kept⟩

lemma Ready.settleScope (h : s.Ready o b) (scope : ConsumptionScope) (shown : List Nat)
    (settled : Target) : (s.settleScope scope shown settled).Ready o b := by
  simp only [Index.settleScope]
  split_ifs
  · exact h
  · exact h.settleTargets _ _

lemma Ready.recordExactTarget {r : Index × Bool} (h : r.1.Ready o b) (shown : Target × List Nat) :
    (recordExactTarget r shown).1.Ready o b := by
  simp only [Index.recordExactTarget]
  split_ifs with hempty hadded
  · exact h
  · exact h.addExact_settleSeen shown.1 shown.2
  · exact h.addExact_false (by simpa using hadded)

lemma Ready.foldl_recordExactTarget {r : Index × Bool} (h : r.1.Ready o b)
    (shown : List (Target × List Nat)) : (shown.foldl Index.recordExactTarget r).1.Ready o b := by
  induction shown generalizing r with
  | nil => exact h
  | cons x xs ih => exact ih (h.recordExactTarget x)

/-! ### Bookkeeping -/

theorem Kept.recordModelSeen (h : s.Kept o b) (t : Target) (sequence : Nat) :
    (s.recordModelSeen t sequence).Kept o b := by
  simp only [Index.recordModelSeen]
  split_ifs with hlow
  · exact h
  all_goals first
    | exact ((ready_hydrate h).advanceFrontier t sequence).persist.toKept
    | exact ((ready_hydrate h).advanceFrontier t sequence).toKept

theorem Kept.recordReadContext (h : s.Kept o b) (t : Target) (sequence : Nat) :
    (s.recordReadContext t sequence).Kept o b :=
  ((ready_hydrate h).takeReadOrder t sequence).persist.toKept

theorem Kept.recordExactSeen (h : s.Kept o b) (shown : List (Target × List Nat)) :
    (s.recordExactSeen shown).Kept o b := by
  have hready := (ready_hydrate h).foldl_recordExactTarget (r := (s.hydrate, false)) shown
  exact (hready.persist_if _).toKept

theorem Kept.recordSendContext (h : s.Kept o b) (t : Target) (through : Nat)
    (review : Option Nat) : (s.recordSendContext t through review).Kept o b := by
  simp only [Index.recordSendContext]
  split_ifs with hlow
  · exact h
  all_goals
    have hready := (ready_hydrate h).advanceFrontier t through
    rcases review with _ | sequence
  · exact hready.persist.toKept
  · exact (hready.takeReadOrder t sequence).persist.toKept
  · exact hready.toKept
  · exact (hready.takeReadOrder t sequence).toKept

theorem Kept.recordTargetAlias (h : s.Kept o b) (spelling canonical : Target) :
    (s.recordTargetAlias spelling canonical).Kept o b :=
  (((ready_hydrate h).setAlias spelling canonical).persist_if _).toKept

/-- The frontier, the exact sequences, the review and the scope of a history read, in turn. -/
theorem Kept.recordHistoryRead (h : s.Kept o b) (read : HistoryRead) :
    (s.recordHistoryRead read).Kept o b := by
  have halias := (ready_hydrate h).setAlias read.spelling read.target
  have hmoved : (if 0 < read.through
      then (s.hydrate.setAlias read.spelling read.target).1.advanceFrontier read.target read.through
      else ((s.hydrate.setAlias read.spelling read.target).1, false)).1.Ready o b := by
    split_ifs
    · exact halias.advanceFrontier _ _
    · exact halias
  have hsettled := hmoved.addExact_settleSeen read.target read.shown
  simp only [Index.recordHistoryRead]
  refine Ready.toKept (Ready.persist_if ?_ _)
  rcases read.review with _ | sequence <;> rcases read.scope with _ | scope
  · exact hsettled
  · exact hsettled.settleScope _ _ _
  · exact hsettled.takeReadOrder _ _
  · exact (hsettled.takeReadOrder _ _).settleScope _ _ _

end Index

end Coforge.Attention
