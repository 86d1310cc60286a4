import Coforge.Attention.Index
import Coforge.Lib.Json
import Mathlib

/-!
# The file of the consumed state

`consumed-seqs.json` keeps an Agent's consumed state from one life of the daemon to the next. What
the file holds is normalized when it is read, whoever wrote it: entries that say nothing are left
out, exact sequences are sorted and cut to the limit, and a chain of aliases becomes one step.
`ConsumedSeqState.Sound` is what the index can count on afterwards.
-/

namespace Coforge.Attention

/-! ### Reading -/

def fieldsOf : Option Json → List (String × Json)
  | some (.obj fields) => fields
  | _                  => []

/-- A name that an entry of a JavaScript object is assigned under, and not the empty one. -/
def Named (t : Target) : Prop := t ≠ "" ∧ t ≠ "__proto__"

instance (t : Target) : Decidable (Named t) := inferInstanceAs (Decidable (_ ∧ _))

/-- A number that can be a sequence or a read order. -/
def positiveFiniteNumber (value : Option Json) : Option Nat :=
  match value with
  | some (.int n) => if 0 < n then some n.toNat else none
  | _             => none

def maxSafeInteger : Nat := 2 ^ 53 - 1

def exactSequence (after : Nat) : Json → Option Nat
  | .int n => if (after : Int) < n ∧ n ≤ maxSafeInteger then some n.toNat else none
  | _      => none

variable {n : Nat}

lemma exactSequence_eq_some {after : Nat} {value : Json} : exactSequence after value = some n ↔
      value = .int n ∧ after < n ∧ n ≤ maxSafeInteger := by
  cases value with
  | int k =>
    rw [exactSequence, Json.int.injEq]
    constructor
    · intro h
      split_ifs at h with hk
      cases h
      omega
    · rintro ⟨rfl, hn⟩
      rw [if_pos (by omega), Int.toNat_natCast]
  | _ => simp [exactSequence]

lemma pairwise_sortIncoming_lt {ns : List Nat} (h : ns.Nodup) :
    (Exact.sortIncoming ns).Pairwise (· < ·) := by
  have hnodup : (Exact.sortIncoming ns).Nodup := (List.mergeSort_perm ns _).nodup_iff.mpr h
  exact ((Exact.pairwise_sortIncoming ns).and hnodup).imp fun h => lt_of_le_of_ne h.1 h.2

/-- The distinct sequences above `after`, ascending, the newest ones. -/
def normalizeSeenExactSeqs (values : Option Json) (after : Nat) : Exact where
  seqs := History.sliceLast seenExactSeqsLimit
    (Exact.sortIncoming ((Json.items values).filterMap (exactSequence after)).dedup)
  ascending := (pairwise_sortIncoming_lt (List.nodup_dedup _)).sublist
    (History.sliceLast_sublist _ _)

lemma mem_of_normalizeSeenExactSeqs {values : Option Json} {after : Nat}
    (h : n ∈ normalizeSeenExactSeqs values after) : after < n ∧ n ≤ maxSafeInteger := by
  have hsort := (History.sliceLast_sublist _ _).mem h
  rw [Exact.sortIncoming, List.mem_mergeSort, List.mem_dedup, List.mem_filterMap] at hsort
  obtain ⟨value, -, hvalue⟩ := hsort
  exact (exactSequence_eq_some.mp hvalue).2

lemma length_normalizeSeenExactSeqs (values : Option Json) (after : Nat) :
    (normalizeSeenExactSeqs values after).seqs.length ≤ seenExactSeqsLimit := by
  simp only [normalizeSeenExactSeqs, History.length_sliceLast_le]

/-- An entry that carries an order, a sequence or exact sequences. A shown message without a
review order is no review. -/
def normalizeEntry (record : Json) : Option ConsumedSeqEntry :=
  if record.isRecord then
    let seq := positiveFiniteNumber (record.get? "seq")
    let readOrder := positiveFiniteNumber (record.get? "readOrder")
    let exactSeqs := normalizeSeenExactSeqs (record.get? "exactSeqs") (seq.getD 0)
    if seq = none ∧ readOrder = none ∧ exactSeqs = ∅ then none
    else
      let reviewedSeq := readOrder.bind fun _ => positiveFiniteNumber (record.get? "reviewedSeq")
      some ⟨seq.getD 0, exactSeqs, readOrder, reviewedSeq.getD 0⟩
  else none

def normalizeTargets (targets : Option Json) (t : Target) : ConsumedSeqEntry :=
  if Named t then (((fieldsOf targets).lookup t).bind normalizeEntry).getD .empty else .empty

def observeOrder (order : Nat) (field : String × Json) : Nat :=
  if field.1 ≠ "" && field.2.isRecord then
    max order ((positiveFiniteNumber (field.2.get? "readOrder")).getD 0)
  else order

/-- The greatest read order of the file. -/
def maxObservedOrder (targets : Option Json) : Nat := (fieldsOf targets).foldl observeOrder 0

/-- One step from a spelling to what it is an alias of. -/
def aliasLink (field : String × Json) : Option (Target × Target) :=
  match field.2 with
  | .str canonical =>
    if field.1 ≠ "" ∧ canonical ≠ "" ∧ field.1 ≠ canonical then some (field.1, canonical) else none
  | _ => none

def aliasLinks (aliases : Option Json) : List (Target × Target) :=
  (fieldsOf aliases).filterMap aliasLink

/-- The end of a chain of links, none for a cycle. Each round follows a link of its own. -/
def followAlias (links : List (Target × Target)) : Nat → List Target → Target → Option Target
  | 0, _, _                      => none
  | fuel + 1, visited, canonical =>
    match links.lookup canonical with
    | none      => some canonical
    | some next =>
      if next ∈ visited then none else followAlias links fuel (next :: visited) next

def normalizeAliases (links : List (Target × Target)) (spelling : Target) : Option Target :=
  if Named spelling then
    (followAlias links (links.length + 1) [spelling] spelling).filter (· ≠ spelling)
  else none

def normalizeState (value : Json) : ConsumedSeqState :=
  if value.isRecord then
    { targets := normalizeTargets (value.get? "targets")
      aliases := normalizeAliases (aliasLinks (value.get? "aliases"))
      nextReadOrder := max ((positiveFiniteNumber (value.get? "nextReadOrder")).getD 1)
        (maxObservedOrder (value.get? "targets") + 1) }
  else .empty

/-- What the store reads: a missing or unreadable file is an empty state. -/
def readState (file : Option Json) : ConsumedSeqState := (file.map normalizeState).getD .empty

/-! ### What is read -/

/-- The entry is one that a file can hold: the exact sequences lie above the frontier and are not
too many, and a review has an order. -/
structure ConsumedSeqEntry.Sound (e : ConsumedSeqEntry) : Prop where
  above : ∀ n ∈ e.exactSeqs, e.seq < n
  bounded : e.exactSeqs.seqs.length ≤ seenExactSeqsLimit
  reviewed : e.readOrder = none → e.reviewedSeq = 0

/-- An alias names a canonical target directly. -/
def Direct (aliases : Target → Option Target) : Prop :=
  ∀ spelling canonical, aliases spelling = some canonical → aliases canonical = none

structure ConsumedSeqState.Sound (c : ConsumedSeqState) : Prop where
  entries : ∀ t, (c.targets t).Sound
  orders : ∀ t order, (c.targets t).readOrder = some order → 0 < order ∧ order < c.nextReadOrder
  next : 0 < c.nextReadOrder
  direct : Direct c.aliases

lemma ConsumedSeqEntry.sound_empty : ConsumedSeqEntry.empty.Sound where
  above n hn := absurd hn (Exact.not_mem_empty n)
  bounded := Nat.zero_le _
  reviewed _ := rfl

lemma ConsumedSeqState.sound_empty : ConsumedSeqState.empty.Sound where
  entries _ := ConsumedSeqEntry.sound_empty
  orders _ _ h := nomatch h
  next := Nat.one_pos
  direct _ _ h := nomatch h

variable {record : Json} {e : ConsumedSeqEntry}

lemma readOrder_of_normalizeEntry (h : normalizeEntry record = some e) :
    record.isRecord = true ∧ e.readOrder = positiveFiniteNumber (record.get? "readOrder") := by
  simp only [normalizeEntry] at h
  split_ifs at h with hrecord
  rw [← Option.some.inj h]
  exact ⟨hrecord, rfl⟩

lemma sound_of_normalizeEntry (h : normalizeEntry record = some e) : e.Sound := by
  simp only [normalizeEntry] at h
  split_ifs at h
  rw [← Option.some.inj h]
  refine ⟨fun n hn => (mem_of_normalizeSeenExactSeqs hn).1, length_normalizeSeenExactSeqs _ _, ?_⟩
  intro hnone
  have hnone : positiveFiniteNumber (record.get? "readOrder") = none := hnone
  simp [hnone]

lemma safe_of_normalizeEntry
    (h : normalizeEntry record = some e) : ∀ n ∈ e.exactSeqs, n ≤ maxSafeInteger := by
  simp only [normalizeEntry] at h
  split_ifs at h
  rw [← Option.some.inj h]
  exact fun n hn => (mem_of_normalizeSeenExactSeqs hn).2

lemma positiveFiniteNumber_pos {value : Option Json}
    (h : positiveFiniteNumber value = some n) : 0 < n := by
  unfold positiveFiniteNumber at h
  split at h
  · split_ifs at h with hpos
    cases h
    omega
  · cases h

variable {t : Target}

lemma entry_of_normalizeTargets {targets : Option Json} (h : normalizeTargets targets t ≠ .empty) :
    Named t ∧ ∃ record, (fieldsOf targets).lookup t = some record ∧
      normalizeEntry record = some (normalizeTargets targets t) := by
  rw [normalizeTargets] at h ⊢
  split_ifs at h ⊢ with hnamed
  · refine ⟨hnamed, ?_⟩
    rcases hlookup : (fieldsOf targets).lookup t with _ | record
    · exact absurd (by rw [hlookup]; rfl) h
    · rw [hlookup] at h
      rcases hentry : normalizeEntry record with _ | e
      · exact absurd (by rw [Option.bind_some, hentry]; rfl) h
      · exact ⟨record, rfl, by rw [Option.bind_some, hentry]; rfl⟩
  · exact absurd rfl h

lemma mem_of_lookup {α : Type} {fields : List (String × α)} {key : String} {value : α}
    (h : fields.lookup key = some value) : (key, value) ∈ fields := by
  induction fields with
  | nil => cases h
  | cons field fields ih =>
    obtain ⟨name, v⟩ := field
    rw [List.lookup_cons] at h
    by_cases hkey : key = name
    · subst hkey
      rw [beq_self_eq_true] at h
      cases h
      exact List.mem_cons_self
    · rw [beq_eq_false_iff_ne.mpr hkey] at h
      exact List.mem_cons_of_mem _ (ih h)

lemma le_foldl_observeOrder (fields : List (String × Json)) (m : Nat) :
    m ≤ fields.foldl observeOrder m := by
  induction fields generalizing m with
  | nil => exact le_refl m
  | cons field fields ih =>
    refine le_trans ?_ (ih _)
    rw [observeOrder]
    split_ifs
    · exact le_max_left _ _
    · exact le_refl m

lemma le_maxObservedOrder {targets : Option Json} {order : Nat}
    (hmem : (t, record) ∈ fieldsOf targets) (hname : t ≠ "") (hrecord : record.isRecord = true)
    (horder : positiveFiniteNumber (record.get? "readOrder") = some order) :
    order ≤ maxObservedOrder targets := by
  rw [maxObservedOrder]
  generalize fieldsOf targets = fields at hmem ⊢
  generalize 0 = m
  induction fields generalizing m with
  | nil => cases hmem
  | cons field fields ih =>
    rcases List.mem_cons.mp hmem with rfl | hmem
    · refine le_trans ?_ (le_foldl_observeOrder fields _)
      simp [observeOrder, hname, hrecord, horder]
    · exact ih hmem _

lemma canonical_of_aliasLink {field : String × Json} {link : Target × Target}
    (h : aliasLink field = some link) : link.2 ≠ "" := by
  rw [aliasLink] at h
  split at h
  · split_ifs at h with hlink
    rw [← Option.some.inj h]
    exact hlink.2.1
  · cases h

lemma lookup_of_followAlias {links : List (Target × Target)} {fuel : Nat} {visited : List Target}
    {canonical : Target} (h : followAlias links fuel visited t = some canonical) :
    links.lookup canonical = none := by
  induction fuel generalizing visited t with
  | zero => cases h
  | succ fuel ih =>
    rw [followAlias] at h
    split at h
    · next hend => exact Option.some.inj h ▸ hend
    · split_ifs at h
      exact ih h

lemma followAlias_end {links : List (Target × Target)} {fuel : Nat} {visited : List Target} (h : links.lookup t = none) :
    followAlias links (fuel + 1) visited t = some t := by
  rw [followAlias, h]

lemma direct_normalizeAliases (links : List (Target × Target)) :
    Direct (normalizeAliases links) := by
  intro spelling canonical h
  rw [normalizeAliases] at h
  split_ifs at h with hnamed
  have hend := lookup_of_followAlias (Option.filter_eq_some_iff.mp h).1
  rw [normalizeAliases]
  split_ifs
  · rw [followAlias_end hend]
    simp [Option.filter]
  · rfl

theorem sound_normalizeState (value : Json) : (normalizeState value).Sound := by
  rw [normalizeState]
  split_ifs
  · refine ⟨fun t => ?_, fun t order horder => ?_, ?_, direct_normalizeAliases _⟩
    · by_cases hempty : normalizeTargets (value.get? "targets") t = .empty
      · change (normalizeTargets (value.get? "targets") t).Sound
        rw [hempty]
        exact ConsumedSeqEntry.sound_empty
      · obtain ⟨-, record, -, hentry⟩ := entry_of_normalizeTargets hempty
        exact sound_of_normalizeEntry hentry
    · by_cases hempty : normalizeTargets (value.get? "targets") t = .empty
      · exact nomatch (congrArg ConsumedSeqEntry.readOrder hempty).symm.trans horder
      · obtain ⟨hnamed, record, hlookup, hentry⟩ := entry_of_normalizeTargets hempty
        obtain ⟨hrecord, hread⟩ := readOrder_of_normalizeEntry hentry
        have hread := hread.symm.trans horder
        refine ⟨positiveFiniteNumber_pos hread, ?_⟩
        have hle := le_maxObservedOrder (mem_of_lookup hlookup) hnamed.1 hrecord hread
        exact lt_of_lt_of_le (Nat.lt_succ_of_le hle) (le_max_right _ _)
    · exact lt_of_lt_of_le (Nat.succ_pos _) (le_max_right _ _)
  · exact ConsumedSeqState.sound_empty

lemma sound_readState (file : Option Json) : (readState file).Sound := by
  cases file with
  | none => exact ConsumedSeqState.sound_empty
  | some value => exact sound_normalizeState value

end Coforge.Attention
