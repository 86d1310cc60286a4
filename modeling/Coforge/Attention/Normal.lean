import Coforge.Attention.ConsumedFile
import Coforge.Lib.Double
import Mathlib

/-!
# Normalizing any file

`ConsumedFile` reads the consumed state with whole numbers that are never rounded. Here the file
holds any parsed value and its numbers are doubles, as `normalizeState` finds them: a sequence or a
read order may have a fraction, and the next read order is a sum that is rounded.

What is read is always normal but for that sum: each exact list ascends above its frontier, each
alias names a canonical target and no cycle has one, and reading the result again changes nothing.
The next read order exceeds every read order unless the greatest of them absorbs the 1.
-/

namespace Coforge.Attention

open List Option

namespace Normal

open Relation.ReflTransGen

/-! ### Reading -/

/-- A number that can be a sequence or a read order: positive and finite, or nothing. -/
def positiveFiniteNumber : Option Parsed → Option Double
  | some (.num (.finite false x)) => if 0 < x.value then some x else none
  | _                             => none

/-- A whole number that a double holds exactly, above `after`. -/
def exactSequence (after : Double) : Parsed → Option Double
  | .num (.finite false x) =>
    if x.value.den = 1 ∧ x.value ≤ maxSafeInteger ∧ after < x then some x else none
  | _                      => none

/-- The distinct sequences above `after`, ascending, the newest ones. -/
def normalizeSeenExactSeqs (values : Option Parsed) (after : Double) : List Double :=
  History.sliceLast seenExactSeqsLimit
    ((((Parsed.items values).filterMap (exactSequence after)).dedup).mergeSort fun a b => a ≤ b)

structure ConsumedSeqEntry where
  seq : Option Double
  readOrder : Option Double
  reviewedSeq : Option Double
  exactSeqs : List Double

/-- An entry that carries an order, a sequence or exact sequences. A shown message without a
review order is no review. -/
def normalizeEntry (record : Parsed) : Option ConsumedSeqEntry :=
  if record.isRecord then
    let seq := positiveFiniteNumber (record.get? "seq")
    let readOrder := positiveFiniteNumber (record.get? "readOrder")
    let exactSeqs := normalizeSeenExactSeqs (record.get? "exactSeqs") (seq.getD .zero)
    if seq = none ∧ readOrder = none ∧ exactSeqs = [] then none
    else
      let reviewedSeq := readOrder.bind fun _ => positiveFiniteNumber (record.get? "reviewedSeq")
      some ⟨seq, readOrder, reviewedSeq, exactSeqs⟩
  else none

/-- The entries with a name. One that is assigned to `__proto__` is lost, but its order counts. -/
def readEntries (targets : Option Parsed) : List (Target × ConsumedSeqEntry) :=
  (Parsed.entries targets).filterMap fun field =>
    if field.1 = "" then none else (normalizeEntry field.2).map (field.1, ·)

def maxObservedOrder (entries : List (Target × ConsumedSeqEntry)) : Double :=
  entries.foldl (fun order entry => max order (entry.2.readOrder.getD .zero)) .zero

/-- One step from a spelling to what it is an alias of. -/
def aliasLink (field : String × Parsed) : Option (Target × Target) :=
  match field.2 with
  | .str canonical =>
    if field.1 ≠ "" ∧ canonical ≠ "" ∧ field.1 ≠ canonical then some (field.1, canonical) else none
  | _ => none

def aliasLinks (aliases : Option Parsed) : List (Target × Target) :=
  (Parsed.entries aliases).filterMap aliasLink

structure ConsumedSeqState where
  targets : List (Target × ConsumedSeqEntry)
  aliases : List (Target × Target)
  nextReadOrder : Double

def ConsumedSeqState.empty : ConsumedSeqState := ⟨[], [], .one⟩

def normalizeState (value : Parsed) : ConsumedSeqState :=
  if value.isRecord then
    let entries := readEntries (value.get? "targets")
    let links := aliasLinks (value.get? "aliases")
    { targets := entries.filter fun entry => entry.1 ≠ "__proto__"
      aliases := links.filterMap fun link =>
        (normalizeAliases links link.1).map (link.1, ·)
      nextReadOrder := max ((positiveFiniteNumber (value.get? "nextReadOrder")).getD .one)
        (maxObservedOrder entries).addOne }
  else .empty

/-! ### Writing -/

def numberValue (x : Double) : Parsed := .num (.finite false x)

/-- The fields of an entry that have a value. -/
def ConsumedSeqEntry.toParsed (e : ConsumedSeqEntry) : Parsed :=
  .obj ((e.seq.map fun x => ("seq", numberValue x)).toList ++
    (e.readOrder.map fun x => ("readOrder", numberValue x)).toList ++
    (e.reviewedSeq.map fun x => ("reviewedSeq", numberValue x)).toList ++
    if e.exactSeqs = [] then [] else [("exactSeqs", .arr (e.exactSeqs.map numberValue))])

/-- The state as the value a file holds. -/
def ConsumedSeqState.toParsed (c : ConsumedSeqState) : Parsed :=
  .obj [
    ("targets", .obj (c.targets.map fun entry => (entry.1, entry.2.toParsed))),
    ("aliases", .obj (c.aliases.map fun link => (link.1, .str link.2))),
    ("nextReadOrder", numberValue c.nextReadOrder)]

/-! ### Exact sequences -/

/-- A sequence that a file can hold above `after`. -/
def Exactly (after x : Double) : Prop :=
  x.value.den = 1 ∧ x.value ≤ maxSafeInteger ∧ after < x

lemma exactSequence_eq_some {after x : Double} {v : Parsed} :
    exactSequence after v = some x ↔ v = numberValue x ∧ Exactly after x := by
  constructor
  · intro h
    unfold exactSequence at h
    split at h
    · split_ifs at h with hexact
      obtain rfl := some.inj h
      exact ⟨rfl, hexact⟩
    · cases h
  · rintro ⟨rfl, hexact⟩
    exact if_pos hexact

section Exact

variable {values : Option Parsed} {after : Double}

lemma exactly_of_mem {x : Double} (h : x ∈ normalizeSeenExactSeqs values after) :
    Exactly after x := by
  have hsorted := (History.sliceLast_sublist _ _).mem h
  rw [mem_mergeSort, mem_dedup, mem_filterMap] at hsorted
  obtain ⟨v, -, hv⟩ := hsorted
  exact (exactSequence_eq_some.mp hv).2

lemma pairwise_normalizeSeenExactSeqs : (normalizeSeenExactSeqs values after).Pairwise (· < ·) := by
  exact (Ascending.pairwise_mergeSort (nodup_dedup _)).sublist (History.sliceLast_sublist _ _)

lemma length_normalizeSeenExactSeqs :
    (normalizeSeenExactSeqs values after).length ≤ seenExactSeqsLimit :=
  History.length_sliceLast_le _ _

lemma normalizeSeenExactSeqs_none : normalizeSeenExactSeqs none after = [] := by
  simp [normalizeSeenExactSeqs, Parsed.items, History.sliceLast]

lemma normalizeSeenExactSeqs_self {xs : List Double} (hascending : xs.Pairwise (· < ·))
    (hexact : ∀ x ∈ xs, Exactly after x) (hlength : xs.length ≤ seenExactSeqsLimit) :
    normalizeSeenExactSeqs (some (.arr (xs.map numberValue))) after = xs := by
  have hread : (xs.map numberValue).filterMap (exactSequence after) = xs := by
    rw [filterMap_map]
    refine (filterMap_congr fun x hx => ?_).trans filterMap_some
    exact exactSequence_eq_some.mpr ⟨rfl, hexact x hx⟩
  have hdedup : xs.dedup = xs := dedup_eq_self.mpr (hascending.imp fun h => h.ne)
  have hsort : (xs.mergeSort fun a b => decide (a ≤ b)) = xs :=
    mergeSort_of_pairwise (hascending.imp fun h => decide_eq_true h.le)
  rw [normalizeSeenExactSeqs, Parsed.items, hread, hdedup, hsort, History.sliceLast_eq_self hlength]

end Exact

/-! ### Entries -/

/-- What an entry holds once it is read. -/
structure ConsumedSeqEntry.Sound (e : ConsumedSeqEntry) : Prop where
  ascending : e.exactSeqs.Pairwise (· < ·)
  above : ∀ x ∈ e.exactSeqs, e.seq.getD .zero < x
  bounded : e.exactSeqs.length ≤ seenExactSeqsLimit
  reviewed : e.readOrder = none → e.reviewedSeq = none

/-- What makes an entry one that is read back. -/
structure ConsumedSeqEntry.Written (e : ConsumedSeqEntry) : Prop extends e.Sound where
  seq : ∀ x, e.seq = some x → 0 < x.value
  readOrder : ∀ x, e.readOrder = some x → 0 < x.value
  reviewedSeq : ∀ x, e.reviewedSeq = some x → 0 < x.value
  exact : ∀ x ∈ e.exactSeqs, Exactly (e.seq.getD .zero) x
  carries : ¬ (e.seq = none ∧ e.readOrder = none ∧ e.exactSeqs = [])

lemma positive_of_read {v : Option Parsed} {x : Double} (h : positiveFiniteNumber v = some x) :
    0 < x.value := by
  unfold positiveFiniteNumber at h
  split at h
  · split_ifs at h with hpos
    exact some.inj h ▸ hpos
  · cases h

lemma positiveFiniteNumber_numberValue {x : Double} (h : 0 < x.value) :
    positiveFiniteNumber (some (numberValue x)) = some x := if_pos h

lemma positiveFiniteNumber_map {o : Option Double} (h : ∀ x, o = some x → 0 < x.value) :
    positiveFiniteNumber (o.map numberValue) = o := by
  cases o with
  | none => rfl
  | some x => exact positiveFiniteNumber_numberValue (h x rfl)

lemma written_of_normalizeEntry {record : Parsed} {e : ConsumedSeqEntry}
    (h : normalizeEntry record = some e) : e.Written := by
  simp only [normalizeEntry] at h
  split_ifs at h with hrecord hcarries
  obtain ⟨after, hafter⟩ : ∃ after, after =
    (positiveFiniteNumber (record.get? "seq")).getD .zero := ⟨_, rfl⟩
  rw [← hafter] at h hcarries
  obtain ⟨xs, hxs⟩ : ∃ xs, xs = normalizeSeenExactSeqs (record.get? "exactSeqs") after := ⟨_, rfl⟩
  have hexact : ∀ x ∈ xs, Exactly after x := fun x hx => exactly_of_mem (hxs ▸ hx)
  have hascending : xs.Pairwise (· < ·) := hxs ▸ pairwise_normalizeSeenExactSeqs
  have hlength : xs.length ≤ seenExactSeqsLimit := hxs ▸ length_normalizeSeenExactSeqs
  rw [← hxs] at h hcarries
  rw [← some.inj h]
  refine ⟨⟨hascending, fun x hx => hafter ▸ (hexact x hx).2.2, hlength, ?_⟩,
    fun x => positive_of_read, fun x => positive_of_read, ?_, fun x hx => hafter ▸ hexact x hx,
    hcarries⟩
  · intro hnone
    have hnone : positiveFiniteNumber (record.get? "readOrder") = none := hnone
    exact bind_eq_none_iff.mpr fun y hy => absurd (hnone.symm.trans hy) (by simp)
  · intro x hx
    obtain ⟨y, -, hy⟩ := bind_eq_some_iff.mp hx
    exact positive_of_read hy

lemma get?_toParsed (e : ConsumedSeqEntry) : e.toParsed.get? "seq" = e.seq.map numberValue ∧
      e.toParsed.get? "readOrder" = e.readOrder.map numberValue ∧
      e.toParsed.get? "reviewedSeq" = e.reviewedSeq.map numberValue ∧
      e.toParsed.get? "exactSeqs" = if e.exactSeqs = [] then none
        else some (.arr (e.exactSeqs.map numberValue)) := by
  obtain ⟨seq, readOrder, reviewedSeq, exactSeqs⟩ := e
  cases seq <;> cases readOrder <;> cases reviewedSeq <;> cases exactSeqs <;>
    simp [ConsumedSeqEntry.toParsed, Parsed.get?, lookup]

lemma normalizeEntry_toParsed {e : ConsumedSeqEntry} (h : e.Written) :
    normalizeEntry e.toParsed = some e := by
  obtain ⟨hseq, horder, hreviewed, hexact⟩ := get?_toParsed e
  have hexacts : normalizeSeenExactSeqs (e.toParsed.get? "exactSeqs") (e.seq.getD .zero) =
      e.exactSeqs := by
    rw [hexact]
    split_ifs with hnil
    · rw [hnil, normalizeSeenExactSeqs_none]
    · exact normalizeSeenExactSeqs_self h.ascending h.exact h.bounded
  have hbind : (e.readOrder.bind fun _ => e.reviewedSeq) = e.reviewedSeq := by
    rcases horder : e.readOrder with _ | x
    · rw [h.reviewed horder]
      rfl
    · rfl
  simp only [normalizeEntry, hseq, horder, hreviewed, positiveFiniteNumber_map h.seq,
    positiveFiniteNumber_map h.readOrder, positiveFiniteNumber_map h.reviewedSeq, hexacts, hbind]
  rw [if_neg h.carries]
  exact if_pos rfl

/-! ### Chains of aliases -/

/-- A spelling that is linked to another one. -/
def Link (links : List (Target × Target)) (spelling next : Target) : Prop :=
  links.lookup spelling = some next

/-- A spelling whose chain goes on to a name, or is that name. -/
def Leads (links : List (Target × Target)) : Target → Target → Prop :=
  Relation.ReflTransGen (Link links)

/-- A name whose chain comes back to it. -/
def Loops (links : List (Target × Target)) (name : Target) : Prop :=
  Relation.TransGen (Link links) name name

section Chains

variable {links : List (Target × Target)} {spelling canonical t : Target}

lemma not_loops (h : Leads links t canonical) (hend : links.lookup canonical = none) :
    ¬ Loops links t := by
  induction h using head_induction_on with
  | refl =>
    intro hloop
    obtain ⟨next, hnext, -⟩ := Relation.TransGen.head'_iff.mp hloop
    exact absurd (hend.symm.trans hnext) (by simp)
  | head hstep hrest ih =>
    rename_i a b
    intro hloop
    obtain ⟨next, hnext, hback⟩ := Relation.TransGen.head'_iff.mp hloop
    obtain rfl : next = b := some.inj (Eq.trans (Eq.symm hnext) hstep)
    exact ih (Relation.TransGen.tail' hback hstep)

lemma not_loops_of_leads {name : Target} (hleads : Leads links t name)
    (h : Leads links t canonical) (hend : links.lookup canonical = none) : ¬ Loops links name := by
  induction hleads using head_induction_on with
  | refl => exact not_loops h hend
  | head hstep hrest ih =>
    rename_i a b
    rcases cases_head h with rfl | ⟨next, hnext, hto⟩
    · exact absurd (hend.symm.trans hstep) (by simp)
    · obtain rfl : next = b := some.inj (Eq.trans (Eq.symm hnext) hstep)
      exact ih hto

lemma leads_of_followAlias {fuel : Nat} {visited : List Target}
    (h : followAlias links fuel visited t = some canonical) : Leads links t canonical := by
  induction fuel generalizing visited t with
  | zero => cases h
  | succ fuel ih =>
    rw [followAlias] at h
    split at h
    · exact some.inj h ▸ refl
    · next next hnext =>
      split_ifs at h
      exact head hnext (ih h)

lemma length_le_of_linked {names : List Target} (hnodup : names.Nodup)
    (hlinked : ∀ name ∈ names, (links.lookup name).isSome) : names.length ≤ links.length := by
  have hsubset : names ⊆ links.map Prod.fst := by
    intro name hname
    obtain ⟨next, hnext⟩ := isSome_iff_exists.mp (hlinked name hname)
    exact mem_map.mpr ⟨(name, next), mem_of_lookup hnext, rfl⟩
  calc names.length ≤ (links.map Prod.fst).length := (hnodup.subperm hsubset).length_le
    _ = links.length := length_map _

/-- A chain that comes to an end is walked to its end: no name on it is visited twice, so the fuel
for one name more than there are links is enough. -/
lemma followAlias_of_leads {fuel : Nat} {visited : List Target} (hnodup : (t :: visited).Nodup)
    (hlinked : ∀ name ∈ visited, (links.lookup name).isSome)
    (hback : ∀ name ∈ visited, Leads links name t) (hfuel : links.length < fuel + visited.length)
    (h : Leads links t canonical) (hend : links.lookup canonical = none) :
    followAlias links fuel (t :: visited) t = some canonical := by
  induction fuel generalizing visited t with
  | zero =>
    have hlength := length_le_of_linked (nodup_cons.mp hnodup).2 hlinked
    omega
  | succ fuel ih =>
    rw [followAlias]
    rcases hnext : links.lookup t with _ | next
    · rcases cases_head h with rfl | ⟨next, hstep, -⟩
      · rfl
      · exact absurd (hnext.symm.trans hstep) (by simp)
    · have hrest : Leads links next canonical := by
        rcases cases_head h with rfl | ⟨next', hstep, hrest⟩
        · exact absurd (hend.symm.trans hnext) (by simp)
        · obtain rfl : next = next' := some.inj (hnext.symm.trans hstep)
          exact hrest
      have hfresh : next ∉ t :: visited := by
        intro hmem
        have hleads : Leads links next t := by
          rcases mem_cons.mp hmem with rfl | hmem
          · exact refl
          · exact hback next hmem
        exact not_loops hrest hend (Relation.TransGen.tail' hleads hnext)
      simp only [if_neg hfresh]
      refine ih (nodup_cons.mpr ⟨hfresh, hnodup⟩) ?_ ?_ ?_ hrest
      · intro name hname
        rcases mem_cons.mp hname with rfl | hname
        · rw [hnext]
          rfl
        · exact hlinked name hname
      · intro name hname
        rcases mem_cons.mp hname with rfl | hname
        · exact single hnext
        · exact (hback name hname).tail hnext
      · rw [length_cons]
        omega

/-- A spelling keeps an alias exactly if its chain comes to an end, and the alias is that end. -/
lemma normalizeAliases_eq_some : normalizeAliases links spelling = some canonical ↔
    Named spelling ∧ Leads links spelling canonical ∧ links.lookup canonical = none ∧
      spelling ≠ canonical := by
  rw [normalizeAliases]
  constructor
  · intro h
    split_ifs at h with hnamed
    obtain ⟨hfollow, hne⟩ := filter_eq_some_iff.mp h
    exact ⟨hnamed, leads_of_followAlias hfollow, lookup_of_followAlias hfollow,
      (of_decide_eq_true hne).symm⟩
  · rintro ⟨hnamed, hleads, hend, hne⟩
    rw [if_pos hnamed]
    refine filter_eq_some_iff.mpr ⟨?_, decide_eq_true hne.symm⟩
    refine followAlias_of_leads (nodup_singleton _) (by simp) (by simp) ?_ hleads hend
    rw [length_nil]
    omega

end Chains

end Normal

end Coforge.Attention
