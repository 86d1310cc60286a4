import Coforge.Attention.Cursor
import Coforge.Lib.Marks

/-!
# What the Agent has seen

The consumed entry of a target is a frontier with an ascending list of exact sequences above it, of
which the newest are kept. The marks of a target are the same thing without the list: the
sequences that were recorded one by one, and those among them that were evicted since. Along every
run the list holds the recorded sequences above the frontier that were not evicted, and an eviction
only takes sequences that have the whole limit of later ones above them.
-/

namespace Coforge.Attention

open Transition ConsumedSeqState

/-! ### Soundness is kept -/

namespace ConsumedSeqState

variable {c : ConsumedSeqState} {t : Target} {n : Nat}

lemma Sound.withTarget (h : c.Sound) {e : ConsumedSeqEntry} (he : e.Sound)
    (horder : e.readOrder = (c.targets t).readOrder) : (c.withTarget t e).Sound where
  entries t' := by
    simp only [ConsumedSeqState.withTarget]
    split_ifs
    · exact he
    · exact h.entries t'
  orders t' order := by
    simp only [ConsumedSeqState.withTarget]
    split_ifs
    · rw [horder]
      exact h.orders t order
    · exact h.orders t' order
  next := h.next
  direct := h.direct

lemma length_above_le (e : Exact) (n : Nat) : (e.above n).seqs.length ≤ e.seqs.length := by
  simp only [Exact.above, Ascending.above, List.length_drop]
  exact Nat.sub_le _ _

lemma Sound.moveFrontier (h : c.Sound) (t : Target) (n : Nat) : (c.moveFrontier t n).Sound := by
  simp only [ConsumedSeqState.moveFrontier]
  split_ifs
  · exact h
  · refine h.withTarget ⟨fun k hk => ?_, ?_, (h.entries t).reviewed⟩ rfl
    · exact (Exact.mem_above.mp hk).2
    · exact le_trans (length_above_le _ n) (h.entries t).bounded

/-- The merged sequences before the oldest of them are cut off. -/
def merged (e : ConsumedSeqEntry) (ns : List Nat) : List Nat :=
  Ascending.mergeAbove e.seq e.exactSeqs.seqs (Exact.sortIncoming ns)

lemma seqs_merge (e : ConsumedSeqEntry) (ns : List Nat) :
    (e.exactSeqs.merge e.seq ns).seqs = History.sliceLast seenExactSeqsLimit (merged e ns) := by
  simp only [Exact.merge, mergeSeenExactSeqs, merged]

lemma pairwise_merged (e : ConsumedSeqEntry) (ns : List Nat) : (merged e ns).Pairwise (· < ·) :=
  Ascending.pairwise_mergeAbove _ (e.exactSeqs.ascending.imp fun h => h.le)
    (Exact.pairwise_sortIncoming ns)

lemma mem_merged {e : ConsumedSeqEntry} {ns : List Nat} :
    n ∈ merged e ns ↔ (n ∈ e.exactSeqs ∨ n ∈ ns) ∧ e.seq < n := by
  rw [merged, Ascending.mem_mergeAbove (e.exactSeqs.ascending.imp fun h => h.le)
    (Exact.pairwise_sortIncoming ns), Exact.sortIncoming, List.mem_mergeSort]
  rfl

lemma mem_of_merge {e : ConsumedSeqEntry} {ns : List Nat}
    (h : n ∈ e.exactSeqs.merge e.seq ns) : (n ∈ e.exactSeqs ∨ n ∈ ns) ∧ e.seq < n := by
  rw [Exact.mem_def, seqs_merge] at h
  exact mem_merged.mp ((History.sliceLast_sublist _ _).mem h)

lemma length_merge (e : ConsumedSeqEntry) (ns : List Nat) :
    (e.exactSeqs.merge e.seq ns).seqs.length ≤ seenExactSeqsLimit := by
  simp only [seqs_merge, History.length_sliceLast_le]

lemma Sound.recordExact (h : c.Sound) (t : Target) (ns : List Nat) : (c.recordExact t ns).Sound := by
  simp only [ConsumedSeqState.recordExact]
  split_ifs
  · exact h
  · exact h.withTarget ⟨fun k hk => (mem_of_merge hk).2, length_merge _ ns,
      (h.entries t).reviewed⟩ rfl

lemma Sound.review (h : c.Sound) (t : Target) (n : Nat) : (c.review t n).Sound where
  entries t' := by
    simp only [ConsumedSeqState.review, ConsumedSeqState.withTarget]
    split_ifs
    all_goals first
      | exact h.entries t'
      | exact ⟨(h.entries t).above, (h.entries t).bounded, fun hnone => by cases hnone⟩
  orders t' order := by
    simp only [ConsumedSeqState.review, ConsumedSeqState.withTarget]
    intro horder
    by_cases ht : t' = t
    · rw [if_pos ht] at horder
      cases horder
      exact ⟨h.next, Nat.lt_succ_self _⟩
    · rw [if_neg ht] at horder
      obtain ⟨hpos, hlt⟩ := h.orders t' order horder
      exact ⟨hpos, Nat.lt_succ_of_lt hlt⟩
  next := Nat.succ_pos _
  direct := h.direct

lemma Sound.reviewIf (h : c.Sound) (t : Target) (review : Option Nat) :
    (c.reviewIf t review).Sound := by
  cases review with
  | none => exact h
  | some n => exact h.review t n

end ConsumedSeqState

/-! ### Aliases stay direct -/

namespace ConsumedSeqState

variable {c : ConsumedSeqState} {spelling canonical : Target}

lemma direct_cutAliases (h : Direct c.aliases) (spelling canonical : Target) :
    Direct (c.cutAliases spelling canonical) := by
  rw [cutAliases]
  split_ifs
  · intro t x hx
    have hx : (if t = canonical then none else c.aliases t) = some x := hx
    split_ifs at hx
    have hnone := h t x hx
    simp [hnone]
  · exact h

/-- The target of a new alias is canonical once the alias that names the spelling is cut. -/
lemma cutAliases_aliasTarget (h : Direct c.aliases) (spelling canonical : Target) :
    c.cutAliases spelling canonical (c.aliasTarget spelling canonical) = none := by
  simp only [cutAliases, aliasTarget]
  split_ifs
  · exact if_pos rfl
  · rcases halias : c.aliases canonical with _ | x
    · exact halias
    · exact h canonical x halias

lemma aliasTarget_ne (hne : spelling ≠ canonical) : c.aliasTarget spelling canonical ≠ spelling := by
  simp only [aliasTarget]
  split_ifs with hnamed
  · exact hne.symm
  · exact hnamed

lemma direct_addAlias (h : Direct c.aliases) (spelling canonical : Target) :
    Direct (c.addAlias spelling canonical).aliases := by
  simp only [addAlias]
  split_ifs with hrefused hsame
  · exact h
  · exact direct_cutAliases h spelling canonical
  · have hcut := direct_cutAliases h spelling canonical
    have hend := cutAliases_aliasTarget h spelling canonical
    have hne : spelling ≠ canonical := fun heq => hrefused (by simp [heq])
    have htarget := aliasTarget_ne (c := c) hne
    intro t x hx
    have hx : (if t = spelling || c.cutAliases spelling canonical t = some spelling then
      some (c.aliasTarget spelling canonical) else c.cutAliases spelling canonical t) = some x := hx
    split_ifs at hx with hmoved
    · cases hx
      simp [htarget, hend]
    · have hnone := hcut t x hx
      have hkept : x ≠ spelling := by
        rintro rfl
        exact hmoved (by simp [hx])
      simp [hkept, hnone]

lemma Sound.addAlias (h : c.Sound) (spelling canonical : Target) :
    (c.addAlias spelling canonical).Sound := by
  have hdirect := direct_addAlias h.direct spelling canonical
  have hrest : (c.addAlias spelling canonical).targets = c.targets ∧
      (c.addAlias spelling canonical).nextReadOrder = c.nextReadOrder := by
    simp only [ConsumedSeqState.addAlias]
    split_ifs <;> exact ⟨rfl, rfl⟩
  refine ⟨?_, ?_, ?_, hdirect⟩
  · rw [hrest.1]
    exact h.entries
  · rw [hrest.1, hrest.2]
    exact h.orders
  · rw [hrest.2]
    exact h.next

lemma Sound.foldl_recordShown (h : c.Sound) (shown : List (Target × List Nat)) :
    (shown.foldl recordShown c).Sound := by
  induction shown generalizing c with
  | nil => exact h
  | cons target shown ih =>
    refine ih ?_
    rw [recordShown]
    split_ifs
    · exact h
    · exact h.recordExact _ _

theorem Sound.consume (h : c.Sound) (b : Bookkeeping) : (c.consume b).Sound := by
  cases b with
  | recordModelSeen t n => exact h.moveFrontier t n
  | recordReadContext t n => exact h.review t n
  | recordExactSeen shown => exact h.foldl_recordShown shown
  | recordHistoryRead read =>
    exact (((h.addAlias _ _).moveFrontier _ _).recordExact _ _).reviewIf _ _
  | recordSendContext t through review =>
    simp only [ConsumedSeqState.consume]
    split_ifs
    · exact h
    · exact (h.moveFrontier t through).reviewIf t review
  | recordTargetAlias spelling canonical => exact h.addAlias _ _
  | _ => exact h

end ConsumedSeqState

lemma lasting_sound : Lasting (fun _ => True) ConsumedSeqState.Sound where
  empty := sound_empty
  next _ h := h.next
  consume b _ _ h := h.consume b

/-! ### Marks -/

/-- The entry holds what the marks hold. -/
structure Tracks (e : ConsumedSeqEntry) (m : Marks Nat) : Prop where
  frontier : e.seq = m.frontier
  held : e.exactSeqs.seqs.toFinset = m.held

/-- The marks of an entry, none of them evicted. -/
def ConsumedSeqEntry.marks (e : ConsumedSeqEntry) : Marks Nat := ⟨e.seq, e.exactSeqs.seqs.toFinset, ∅⟩

lemma ConsumedSeqEntry.Sound.tracks_marks {e : ConsumedSeqEntry} (h : e.Sound) :
    Tracks e e.marks := by
  refine ⟨rfl, ?_⟩
  ext n
  rw [Marks.mem_held, List.mem_toFinset]
  simp only [ConsumedSeqEntry.marks, List.mem_toFinset, Finset.notMem_empty, not_false_eq_true,
    and_true]
  exact (and_iff_left_of_imp (h.above n)).symm

/-- What a recording of exact sequences makes of the marks; none is recorded of nothing. -/
def recordMarks (m : Marks Nat) (ns : List Nat) : Marks Nat :=
  if ns = [] then m else m.record seenExactSeqsLimit ns.toFinset

def markTarget (f : Marks Nat → Marks Nat) (t : Target) (g : Target → Marks Nat) :
    Target → Marks Nat :=
  fun t' => if t' = t then f (g t) else g t'

def markShown (g : Target → Marks Nat) (shown : Target × List Nat) : Target → Marks Nat :=
  if shown.1 = "" then g else markTarget (recordMarks · shown.2) shown.1 g

/-- What the bookkeeping marks. -/
def Bookkeeping.mark : Bookkeeping → (Target → Marks Nat) → Target → Marks Nat
  | .recordModelSeen t n, g           => markTarget (·.advance n) t g
  | .recordExactSeen shown, g         => shown.foldl markShown g
  | .recordHistoryRead read, g        =>
    markTarget (recordMarks · read.shown) read.target
      (markTarget (·.advance read.through) read.target g)
  | .recordSendContext t through _, g => markTarget (·.advance through) t g
  | _, g                              => g

/-- What a step marks. A cleared Agent begins with the marks of what it is going to load. -/
def World.mark (w : World) (g : Target → Marks Nat) : Label → Target → Marks Nat
  | .bookkeeping b => b.mark g
  | .clearAgent    => fun t => ((Index.init w.index.durable).snapshot.targets t).marks
  | _              => g

section Tracks

variable {e : ConsumedSeqEntry} {m : Marks Nat}

lemma Tracks.advance (h : Tracks e m) (n : Nat) :
    Tracks (if n ≤ e.seq then e else { e with seq := n, exactSeqs := e.exactSeqs.above n })
      (m.advance n) := by
  split_ifs with hle
  · refine ⟨?_, ?_⟩
    · rw [Marks.advance, ← h.frontier, max_eq_left hle]
    · rw [Marks.held_advance, h.held]
      refine (Finset.filter_true_of_mem fun k hk => ?_).symm
      exact lt_of_le_of_lt (h.frontier ▸ hle) (Marks.mem_held.mp hk).2
  · refine ⟨?_, ?_⟩
    · rw [Marks.advance, ← h.frontier, max_eq_right (not_le.mp hle).le]
    · rw [Marks.held_advance, ← h.held]
      ext k
      simp only [List.mem_toFinset, Finset.mem_filter]
      exact Exact.mem_above

lemma Tracks.record (h : Tracks e m) (ns : List Nat) :
    Tracks { e with exactSeqs := e.exactSeqs.merge e.seq ns }
      (m.record seenExactSeqsLimit ns.toFinset) := by
  refine ⟨h.frontier, ?_⟩
  have hlive : (merged e ns).toFinset = m.live ns.toFinset := by
    ext k
    rw [List.mem_toFinset, mem_merged, Marks.mem_live, ← h.held, h.frontier,
      List.mem_toFinset, List.mem_toFinset]
    rfl
  simp only [seqs_merge]
  rw [Finset.toFinset_sliceLast (pairwise_merged e ns), hlive, Marks.held_record]

variable {c : ConsumedSeqState} {g : Target → Marks Nat}

lemma tracks_moveFrontier (h : ∀ t, Tracks (c.targets t) (g t)) (t : Target) (n : Nat) (t' : Target) :
    Tracks ((c.moveFrontier t n).targets t') (markTarget (·.advance n) t g t') := by
  have hmoved := (h t).advance n
  simp only [moveFrontier, markTarget]
  by_cases ht : t' = t
  · subst ht
    rw [if_pos rfl]
    split_ifs at hmoved ⊢
    · exact hmoved
    · simpa [withTarget] using hmoved
  · rw [if_neg ht]
    split_ifs
    · exact h t'
    · simpa [withTarget, ht] using h t'

lemma tracks_recordExact (h : ∀ t, Tracks (c.targets t) (g t)) (t : Target) (ns : List Nat)
    (t' : Target) :
    Tracks ((c.recordExact t ns).targets t') (markTarget (recordMarks · ns) t g t') := by
  simp only [recordExact, markTarget, recordMarks]
  by_cases hnil : ns = []
  · simp only [if_pos hnil]
    split_ifs with ht
    · exact ht ▸ h t'
    · exact h t'
  · simp only [if_neg hnil, withTarget]
    split_ifs with ht
    · exact (h t).record ns
    · exact h t'

lemma tracks_reviewIf (h : ∀ t, Tracks (c.targets t) (g t)) (t : Target) (review : Option Nat)
    (t' : Target) : Tracks ((c.reviewIf t review).targets t') (g t') := by
  cases review with
  | none => exact h t'
  | some n =>
    simp only [reviewIf, review, withTarget]
    split_ifs with ht
    all_goals first
      | exact h t'
      | exact ⟨ht ▸ (h t').frontier, ht ▸ (h t').held⟩

lemma targets_addAlias (c : ConsumedSeqState) (spelling canonical : Target) :
    (c.addAlias spelling canonical).targets = c.targets := by
  simp only [addAlias]
  split_ifs <;> rfl

lemma tracks_foldl_recordShown (shown : List (Target × List Nat)) {c : ConsumedSeqState}
    {g : Target → Marks Nat} (h : ∀ t, Tracks (c.targets t) (g t)) (t : Target) :
    Tracks ((shown.foldl ConsumedSeqState.recordShown c).targets t) (shown.foldl markShown g t) := by
  induction shown generalizing c g with
  | nil => exact h t
  | cons target shown ih =>
    refine ih fun t => ?_
    rw [recordShown, markShown]
    split_ifs
    · exact h t
    · exact tracks_recordExact h target.1 target.2 t

theorem tracks_consume (h : ∀ t, Tracks (c.targets t) (g t)) (b : Bookkeeping) (t : Target) :
    Tracks ((c.consume b).targets t) (b.mark g t) := by
  cases b with
  | recordModelSeen target n => exact tracks_moveFrontier h target n t
  | recordReadContext target n => exact tracks_reviewIf h target (some n) t
  | recordExactSeen shown => exact tracks_foldl_recordShown shown h t
  | recordHistoryRead read =>
    have halias : ∀ t, Tracks ((c.addAlias read.spelling read.target).targets t) (g t) := by
      rw [targets_addAlias]
      exact h
    exact tracks_reviewIf (tracks_recordExact (tracks_moveFrontier halias _ _) _ _) _ _ t
  | recordSendContext target through review =>
    simp only [consume, Bookkeeping.mark]
    split_ifs with hzero
    · have hmoved := tracks_moveFrontier h target through t
      rwa [moveFrontier_of_le (by omega)] at hmoved
    · exact tracks_reviewIf (tracks_moveFrontier h target through) target review t
  | recordTargetAlias spelling canonical =>
    rw [consume, targets_addAlias]
    exact h t
  | _ => exact h t

end Tracks

/-! ### Frontiers and evictions -/

section Marked

variable {g : Target → Marks Nat} {t : Target} {n : Nat}

lemma frontier_recordMarks (m : Marks Nat) (ns : List Nat) :
    (recordMarks m ns).frontier = m.frontier := by
  rw [recordMarks]
  split_ifs <;> rfl

lemma frontier_markTarget (f : Marks Nat → Marks Nat) (hf : ∀ m, m.frontier ≤ (f m).frontier)
    (g : Target → Marks Nat) (t t' : Target) : (g t').frontier ≤ (markTarget f t g t').frontier := by
  rw [markTarget]
  split_ifs with ht
  · exact ht ▸ hf (g t')
  · exact le_refl _

lemma frontier_markShown (g : Target → Marks Nat) (shown : Target × List Nat) (t : Target) :
    (g t).frontier ≤ (markShown g shown t).frontier := by
  rw [markShown]
  split_ifs
  · exact le_refl _
  · exact frontier_markTarget _ (fun m => (frontier_recordMarks m _).ge) g _ t

lemma frontier_mark (b : Bookkeeping) (g : Target → Marks Nat) (t : Target) :
    (g t).frontier ≤ (b.mark g t).frontier := by
  have hadvance (n : Nat) (m : Marks Nat) : m.frontier ≤ (m.advance n).frontier := le_max_left _ _
  cases b with
  | recordModelSeen target n => exact frontier_markTarget _ (hadvance n) g target t
  | recordExactSeen shown =>
    rw [Bookkeeping.mark]
    induction shown generalizing g with
    | nil => exact le_refl _
    | cons target shown ih => exact le_trans (frontier_markShown g target t) (ih _)
  | recordHistoryRead read =>
    exact le_trans (frontier_markTarget _ (hadvance read.through) g _ t)
      (frontier_markTarget _ (fun m => (frontier_recordMarks m _).ge) _ _ t)
  | recordSendContext target through review => exact frontier_markTarget _ (hadvance through) g _ t
  | _ => exact le_refl _

/-- What was evicted since has the limit above it. -/
def EvictedSince (old : Finset Nat) (m : Marks Nat) (n : Nat) : Prop :=
  n ∈ m.evicted → n ∈ old ∨ m.Beyond seenExactSeqsLimit n

lemma EvictedSince.recordMarks {old : Finset Nat} {m : Marks Nat} (h : EvictedSince old m n)
    (ns : List Nat) : EvictedSince old (recordMarks m ns) n := by
  rw [Attention.recordMarks]
  split_ifs
  · exact h
  · intro hnew
    by_cases hold : n ∈ m.evicted
    · exact (h hold).imp_right Marks.Beyond.record
    · exact Or.inr (Marks.beyond_of_evicted hnew hold)

lemma evictedSince_markShown {old : Finset Nat} (h : EvictedSince old (g t) n)
    (shown : Target × List Nat) : EvictedSince old (markShown g shown t) n := by
  rw [markShown]
  split_ifs
  · exact h
  · rw [markTarget]
    split_ifs with ht
    · exact (ht ▸ h).recordMarks _
    · exact h

lemma evictedSince_mark (b : Bookkeeping) (g : Target → Marks Nat) (t : Target) (n : Nat) :
    EvictedSince (g t).evicted (b.mark g t) n := by
  have hsame : EvictedSince (g t).evicted (g t) n := Or.inl
  have hadvance (target : Target) (k : Nat) :
      EvictedSince (g t).evicted (markTarget (·.advance k) target g t) n := by
    rw [markTarget]
    split_ifs with ht
    · exact ht ▸ Or.inl
    · exact hsame
  cases b with
  | recordModelSeen target k => exact hadvance target k
  | recordExactSeen shown =>
    rw [Bookkeeping.mark]
    clear hadvance
    generalize (g t).evicted = old at hsame
    induction shown generalizing g with
    | nil => exact hsame
    | cons target shown ih => exact ih _ (evictedSince_markShown hsame target)
  | recordHistoryRead read =>
    rw [Bookkeeping.mark, markTarget]
    by_cases ht : t = read.target
    · rw [if_pos ht, ← ht]
      exact (hadvance t read.through).recordMarks _
    · rw [if_neg ht]
      exact hadvance read.target read.through
  | recordSendContext target through review => exact hadvance target through
  | _ => exact hsame

end Marked

/-! ### Every run -/

/-- A world and the marks of its Agent. -/
abbrev Marked := World × (Target → Marks Nat)

def markedStep (s : Marked) (l : Label) : Option Marked :=
  (step s.1 l).map fun w => (w, s.1.mark s.2 l)

/-- A daemon over a store with any file, or without a store. -/
def openWorld (ws : String) (store : Option (Option Json)) : World := .init ws (store.map readState)

def openMarked (ws : String) (store : Option (Option Json)) : Marked :=
  let w := openWorld ws store
  (w, fun t => (w.index.snapshot.targets t).marks)

variable {s s' : Marked} {l : Label}

lemma markedStep_eq_some :
    markedStep s l = some s' ↔ step s.1 l = some s'.1 ∧ s.1.mark s.2 l = s'.2 := by
  rw [markedStep, Option.map_eq_some_iff]
  constructor
  · rintro ⟨w, hw, rfl⟩
    exact ⟨hw, rfl⟩
  · rintro ⟨hw, hm⟩
    exact ⟨s'.1, hw, by rw [hm]⟩

/-- What holds at every point of a run: the consumed state is sound, and its entries hold what
their marks hold. -/
structure MarkedInv (s : Marked) : Prop where
  holds : Holds ConsumedSeqState.Sound s.1.index
  tracks : ∀ t, Tracks (s.1.index.snapshot.targets t) (s.2 t)

lemma holds_openWorld (ws : String) (store : Option (Option Json)) :
    Holds ConsumedSeqState.Sound (openWorld ws store).index := by
  refine holds_init lasting_sound fun c hc => ?_
  obtain ⟨file, -, rfl⟩ := Option.map_eq_some_iff.mp hc
  exact sound_readState file

lemma markedInv_open (ws : String) (store : Option (Option Json)) :
    MarkedInv (openMarked ws store) :=
  ⟨holds_openWorld ws store, fun t => ((holds_openWorld ws store).snapshot.entries t).tracks_marks⟩

lemma MarkedInv.step (h : MarkedInv s) (hstep : markedStep s l = some s') : MarkedInv s' := by
  obtain ⟨hworld, hmark⟩ := markedStep_eq_some.mp hstep
  refine ⟨h.holds.step lasting_sound (by cases l <;> trivial) hworld, fun t => ?_⟩
  rw [(World.consumes_step hworld).snapshot, ← hmark]
  cases l with
  | bookkeeping b => exact tracks_consume h.tracks b t
  | clearAgent =>
    have hloaded := (holds_init lasting_sound h.holds.durable).snapshot
    exact (hloaded.entries t).tracks_marks
  | _ => exact h.tracks t

/-- What the seen state says of one target. -/
structure SeenLaw (s : Index) (m : Marks Nat) (t : Target) : Prop where
  ascending : (s.seenExactSequences t).Pairwise (· < ·)
  above : ∀ n ∈ s.seenExactSequences t, s.modelSeenSequence t < n
  bounded : (s.seenExactSequences t).length ≤ seenExactSeqsLimit
  seen : ∀ n, s.hasSeen t n ↔ n ≤ s.modelSeenSequence t ∨ n ∈ m.recorded ∧ n ∉ m.evicted

/-- What a step newly evicts of a target is smaller than the whole limit of sequences it keeps. -/
def EvictsSmallest (m m' : Marks Nat) (s' : Index) (t : Target) : Prop :=
  ∀ n ∈ m'.evicted, n ∉ m.evicted →
    (s'.seenExactSequences t).length = seenExactSeqsLimit ∧ ∀ k ∈ s'.seenExactSequences t, n < k

lemma MarkedInv.seenLaw (h : MarkedInv s) (t : Target) : SeenLaw s.1.index (s.2 t) t := by
  have hentry := h.holds.snapshot.entries t
  obtain ⟨hfrontier, hheld⟩ := h.tracks t
  refine ⟨Exact.ascending _, hentry.above, hentry.bounded, fun n => ?_⟩
  have hexact : n ∈ (s.1.index.snapshot.targets t).exactSeqs ↔
      (n ∈ (s.2 t).recorded ∧ n ∉ (s.2 t).evicted) ∧
        (s.1.index.snapshot.targets t).seq < n := by
    rw [hfrontier, ← Marks.mem_held, ← hheld, List.mem_toFinset]
    rfl
  rw [Index.hasSeen_iff_snapshot, ConsumedSeqEntry.Seen, hexact]
  constructor
  · exact Or.imp_right And.left
  · rintro (hle | hmark)
    · exact Or.inl hle
    · by_cases hle : n ≤ (s.1.index.snapshot.targets t).seq
      · exact Or.inl hle
      · exact Or.inr ⟨hmark, not_le.mp hle⟩

lemma MarkedInv.evictsSmallest (h : MarkedInv s) (hstep : markedStep s l = some s') (t : Target) :
    EvictsSmallest (s.2 t) (s'.2 t) s'.1.index t := by
  intro n hnew hold
  have hbeyond : (s'.2 t).Beyond seenExactSeqsLimit n := by
    rw [← (markedStep_eq_some.mp hstep).2] at hnew ⊢
    cases l with
    | bookkeeping b => exact (evictedSince_mark b s.2 t n hnew).resolve_left hold
    | clearAgent => exact absurd hnew (Finset.notMem_empty n)
    | _ => exact absurd hnew hold
  have hinv := h.step hstep
  have hentry := hinv.holds.snapshot.entries t
  have hheld := (hinv.tracks t).held
  have hcard : (s'.2 t).held.card = (s'.1.index.snapshot.targets t).exactSeqs.seqs.length := by
    rw [← hheld, List.toFinset_card_of_nodup]
    exact (Exact.ascending _).imp fun hlt => hlt.ne
  constructor
  · refine le_antisymm hentry.bounded ?_
    refine le_trans hbeyond (le_trans (Finset.card_le_card (Finset.filter_subset _ _)) ?_)
    exact hcard.le
  · intro k hk
    refine hbeyond.lt (hcard ▸ hentry.bounded) ?_
    rw [← hheld, List.mem_toFinset]
    exact hk

/-- In every reachable state the exact sequences of a target are ascending, above the frontier and
within the limit, and the Agent has seen what is at or below the frontier or was recorded and not
evicted. A step evicts the smallest sequences beyond the limit only, and moves no frontier down
unless it clears the Agent. -/
theorem seen_law (ws : String) (store : Option (Option Json)) (ls : List Label) (s : Marked)
    (hrun : run markedStep (openMarked ws store) ls = some s) : (∀ t, SeenLaw s.1.index (s.2 t) t) ∧
      ∀ l s', markedStep s l = some s' → ∀ t, EvictsSmallest (s.2 t) (s'.2 t) s'.1.index t ∧
        (l ≠ .clearAgent → s.1.index.modelSeenSequence t ≤ s'.1.index.modelSeenSequence t) := by
  have hinv : MarkedInv s := @invariant _ _ _ (fun _ _ => True) _
    (fun _ _ _ h _ hstep => h.step hstep) _ _ _ (markedInv_open ws store) (permitted_of_forall (fun _ _ => trivial) _ _) hrun
  refine ⟨hinv.seenLaw, fun l s' hstep t => ⟨hinv.evictsSmallest hstep t, fun hl => ?_⟩⟩
  have hfrontier : (s.2 t).frontier ≤ (s'.2 t).frontier := by
    rw [← (markedStep_eq_some.mp hstep).2]
    cases l with
    | bookkeeping b => exact frontier_mark b s.2 t
    | clearAgent => exact absurd rfl hl
    | _ => exact le_refl _
  rw [← (hinv.tracks t).frontier, ← ((hinv.step hstep).tracks t).frontier] at hfrontier
  exact hfrontier

/-- The Agent was shown 4, read on to 2 and was shown 1 and 9. -/
theorem seen_law_shown : ∃ s, run markedStep (openMarked "w" (some none))
    [.bookkeeping (.recordExactSeen [("#general", [4])]),
      .bookkeeping (.recordModelSeen "#general" 2),
      .bookkeeping (.recordExactSeen [("#general", [1, 9])])] = some s ∧
    SeenLaw s.1.index (s.2 "#general") "#general" := by
  obtain ⟨s, hs⟩ := Option.isSome_iff_exists.mp
    (show (run markedStep (openMarked "w" (some none))
      [.bookkeeping (.recordExactSeen [("#general", [4])]),
        .bookkeeping (.recordModelSeen "#general" 2),
        .bookkeeping (.recordExactSeen [("#general", [1, 9])])]).isSome = true from rfl)
  exact ⟨s, hs, (seen_law "w" (some none) _ s hs).1 "#general"⟩

end Coforge.Attention
