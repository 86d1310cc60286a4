import Coforge.Attention.Seen
import Mathlib

/-!
# The round trip of the consumed state

The index writes its consumed state as one document, with an entry for each target its maps list
and no more fields in it than the entry has values. Reading normalizes the document. Nothing that
the index can reach is changed by that: its entries are sound, its aliases direct, and no order is
as great as the next one.
-/

namespace Coforge.Attention

open Transition List ConsumedSeqState Attention

/-! ### Writing -/

/-- The fields that have a value. -/
def present (fields : List (String × Option Json)) : List (String × Json) :=
  fields.filterMap fun f => f.2.map (f.1, ·)

def positiveField (n : Nat) : Option Json := if 0 < n then some (.int n) else none

def exactField (e : ConsumedSeqEntry) : Option Json :=
  if e.exactSeqs = ∅ then none else some (.arr (e.exactSeqs.seqs.map fun n : Nat => Json.int n))

/-- The values of an entry, of which those that are missing are not written. -/
def entryValues (e : ConsumedSeqEntry) : List (String × Option Json) := [
  ("seq", positiveField e.seq),
  ("readOrder", e.readOrder.map fun order : Nat => Json.int order),
  ("reviewedSeq", e.readOrder.bind fun _ => positiveField e.reviewedSeq),
  ("exactSeqs", exactField e)]

def entryFields (e : ConsumedSeqEntry) : List (String × Json) := present (entryValues e)

namespace ConsumedSeqState

/-- The entry written for a target. One that has no values is not written, nor can one be assigned
under `__proto__`. -/
def entryOf (c : ConsumedSeqState) (t : Target) : Option Json :=
  if t ≠ "__proto__" ∧ c.targets t ≠ .empty then some (.obj (entryFields (c.targets t))) else none

/-- The document, for the targets and the spellings that the index's maps list. -/
def persisted (c : ConsumedSeqState) (targets spellings : List Target) : Json :=
  .obj [
    ("targets", .obj (present (targets.map fun t => (t, c.entryOf t)))),
    ("aliases", .obj (present (spellings.map fun t => (t, (c.aliases t).map .str)))),
    ("nextReadOrder", .int c.nextReadOrder)]

/-- The lists name each target with an entry, and each spelling with an alias. -/
structure Lists (c : ConsumedSeqState) (targets spellings : List Target) : Prop where
  nodupTargets : targets.Nodup
  targets : ∀ t, c.targets t ≠ .empty → t ∈ targets
  nodupSpellings : spellings.Nodup
  spellings : ∀ t, (c.aliases t).isSome → t ∈ spellings

/-- What a document can hold. -/
structure Writable (c : ConsumedSeqState) : Prop where
  sound : c.Sound
  named : ∀ t, c.targets t ≠ .empty → Named t
  safe : ∀ t, ∀ n ∈ (c.targets t).exactSeqs, n ≤ maxSafeInteger
  spelled : ∀ t canonical, c.aliases t = some canonical → Named t ∧ canonical ≠ ""
  finite : {t | c.targets t ≠ .empty}.Finite
  finiteAliases : {t | (c.aliases t).isSome}.Finite

lemma Writable.exists_lists {c : ConsumedSeqState} (h : c.Writable) :
    ∃ targets spellings, c.Lists targets spellings := by
  refine ⟨h.finite.toFinset.toList, h.finiteAliases.toFinset.toList, Finset.nodup_toList _,
    fun t ht => ?_, Finset.nodup_toList _, fun t ht => ?_⟩
  · rw [Finset.mem_toList, Set.Finite.mem_toFinset]
    exact ht
  · rw [Finset.mem_toList, Set.Finite.mem_toFinset]
    exact ht

end ConsumedSeqState

/-! ### Reading what was written -/

lemma lookup_present {fields : List (String × Option Json)} (h : (fields.map Prod.fst).Nodup)
    (key : String) : (present fields).lookup key = (fields.lookup key).join := by
  induction fields with
  | nil => rfl
  | cons f fields ih =>
    obtain ⟨name, value⟩ := f
    obtain ⟨hname, hnodup⟩ := nodup_cons.mp h
    have hcons : present ((name, value) :: fields) =
        (value.map (name, ·)).toList ++ present fields := by
      cases value <;> simp [present]
    rw [hcons, lookup_cons]
    by_cases hkey : key = name
    · subst hkey
      have hmissing : fields.lookup key = none := by
        by_contra hsome
        obtain ⟨v, hv⟩ := Option.ne_none_iff_exists'.mp hsome
        exact hname (mem_map.mpr ⟨(key, v), mem_of_lookup hv, rfl⟩)
      rw [beq_self_eq_true]
      cases value with
      | none => simp [ih hnodup, hmissing]
      | some v => simp
    · have hne : (key == name) = false := by simpa using hkey
      rw [hne]
      cases value with
      | none => simpa using ih hnodup
      | some v => simpa [lookup_cons, hne] using ih hnodup

variable {ts : List Target} {f : Target → Option Json}

lemma lookup_map_self {t : Target} (h : t ∈ ts) :
    (ts.map fun t => (t, f t)).lookup t = some (f t) := by
  induction ts with
  | nil => cases h
  | cons t' ts ih =>
    rw [map_cons, lookup_cons]
    by_cases ht : t = t'
    · rw [ht, beq_self_eq_true]
    · rw [beq_eq_false_iff_ne.mpr ht]
      exact ih ((mem_cons.mp h).resolve_left ht)

lemma lookup_map_of_notMem {t : Target}
    (h : t ∉ ts) : (ts.map fun t => (t, f t)).lookup t = none := by
  by_contra hsome
  obtain ⟨v, hv⟩ := Option.ne_none_iff_exists'.mp hsome
  obtain ⟨t', ht', heq⟩ := mem_map.mp (mem_of_lookup hv)
  have hkey : t' = t := (Prod.ext_iff.mp heq).1
  exact h (hkey ▸ ht')

lemma lookup_present_map (hnodup : ts.Nodup) (hall : ∀ t, (f t).isSome → t ∈ ts) (t : Target) :
    (present (ts.map fun t => (t, f t))).lookup t = f t := by
  have hnames : ((ts.map fun t => (t, f t)).map Prod.fst).Nodup := by
    rw [map_map]
    exact (map_id ts).symm ▸ hnodup
  rw [lookup_present hnames]
  by_cases ht : t ∈ ts
  · rw [lookup_map_self ht]
    rfl
  · rw [lookup_map_of_notMem ht]
    exact (Option.not_isSome_iff_eq_none.mp fun hsome => ht (hall t hsome)).symm

lemma mem_present {fields : List (String × Option Json)} {key : String} {value : Json} :
    (key, value) ∈ present fields ↔ (key, some value) ∈ fields := by
  rw [present, mem_filterMap]
  constructor
  · rintro ⟨⟨name, v⟩, hmem, heq⟩
    obtain ⟨w, rfl, heq⟩ := Option.map_eq_some_iff.mp heq
    cases heq
    exact hmem
  · exact fun h => ⟨(key, some value), h, rfl⟩

/-! ### An entry -/

section Entry

variable {e : ConsumedSeqEntry} {n : Nat}

lemma positiveFiniteNumber_int (h : 0 < n) : positiveFiniteNumber (some (.int n)) = some n := by
  rw [positiveFiniteNumber, if_pos (by omega), Int.toNat_natCast]

lemma positiveFiniteNumber_positiveField (n : Nat) :
    (positiveFiniteNumber (positiveField n)).getD 0 = n := by
  rw [positiveField]
  split_ifs with hn
  · rw [positiveFiniteNumber_int hn]
    rfl
  · exact (Nat.eq_zero_of_not_pos hn).symm

lemma get?_entryFields (e : ConsumedSeqEntry) (key : String) :
    (Json.obj (entryFields e)).get? key = ((entryValues e).lookup key).join := by
  rw [Json.get?_obj, entryFields, lookup_present]
  simp [entryValues]

lemma exactSequence_int {after : Nat} (h : after < n) (hsafe : n ≤ maxSafeInteger) :
    exactSequence after (.int n) = some n :=
  exactSequence_eq_some.mpr ⟨rfl, h, hsafe⟩

lemma normalizeSeenExactSeqs_seqs {x : Exact} {after : Nat} {value : Option Json}
    (hvalue : Json.items value = x.seqs.map fun n : Nat => Json.int n) (habove : ∀ n ∈ x, after < n)
    (hsafe : ∀ n ∈ x, n ≤ maxSafeInteger) (hbounded : x.seqs.length ≤ seenExactSeqsLimit) :
    normalizeSeenExactSeqs value after = x := by
  have hread : (x.seqs.map fun n : Nat => Json.int n).filterMap (exactSequence after) = x.seqs := by
    rw [filterMap_map]
    refine (filterMap_congr fun n hn => ?_).trans filterMap_some
    exact exactSequence_int (habove n hn) (hsafe n hn)
  have hnodup : x.seqs.dedup = x.seqs := Nodup.dedup (x.ascending.imp fun h => h.ne)
  have hsort : Exact.sortIncoming x.seqs = x.seqs := by
    refine mergeSort_of_pairwise ?_
    exact x.ascending.imp fun h => by simpa using h.le
  refine Exact.ext ?_
  simp only [normalizeSeenExactSeqs, hvalue, hread, hnodup, hsort]
  exact History.sliceLast_eq_self hbounded

/-- A sound entry with values is read as it was written. -/
theorem normalizeEntry_entryFields (hsound : e.Sound) (hne : e ≠ .empty)
    (horder : ∀ order, e.readOrder = some order → 0 < order)
    (hsafe : ∀ n ∈ e.exactSeqs, n ≤ maxSafeInteger) :
    normalizeEntry (.obj (entryFields e)) = some e := by
  have hseq : (positiveFiniteNumber ((Json.obj (entryFields e)).get? "seq")).getD 0 = e.seq := by
    rw [get?_entryFields]
    exact positiveFiniteNumber_positiveField e.seq
  have hread : positiveFiniteNumber ((Json.obj (entryFields e)).get? "readOrder") =
      e.readOrder := by
    have hfield : ((entryValues e).lookup "readOrder").join =
        e.readOrder.map fun order : Nat => Json.int order := rfl
    rw [get?_entryFields, hfield]
    rcases ho : e.readOrder with _ | order
    · rfl
    · exact positiveFiniteNumber_int (horder order ho)
  have hreviewed : (e.readOrder.bind fun _ =>
      positiveFiniteNumber ((Json.obj (entryFields e)).get? "reviewedSeq")).getD 0 =
        e.reviewedSeq := by
    have hfield : ((entryValues e).lookup "reviewedSeq").join =
        e.readOrder.bind fun _ => positiveField e.reviewedSeq := rfl
    rw [get?_entryFields, hfield]
    rcases ho : e.readOrder with _ | order
    · exact (hsound.reviewed ho).symm
    · exact positiveFiniteNumber_positiveField e.reviewedSeq
  have hitems : Json.items ((Json.obj (entryFields e)).get? "exactSeqs") =
      e.exactSeqs.seqs.map fun n : Nat => Json.int n := by
    rw [get?_entryFields]
    by_cases hempty : e.exactSeqs = ∅
    · have hfield : exactField e = none := if_pos hempty
      rw [hempty]
      exact congrArg Json.items hfield
    · have hfield : exactField e = some (.arr (e.exactSeqs.seqs.map fun n : Nat => Json.int n)) :=
        if_neg hempty
      exact congrArg Json.items hfield
  have hexact := normalizeSeenExactSeqs_seqs hitems hsound.above hsafe hsound.bounded
  have hvalues : ¬(positiveFiniteNumber ((Json.obj (entryFields e)).get? "seq") = none ∧
      e.readOrder = none ∧ e.exactSeqs = ∅) := by
    rintro ⟨hzero, hnone, hempty⟩
    rw [hzero] at hseq
    refine hne ?_
    obtain ⟨seq, exactSeqs, readOrder, reviewedSeq⟩ := e
    exact (ConsumedSeqEntry.mk.injEq ..).mpr ⟨hseq.symm, hempty, hnone, hsound.reviewed hnone⟩
  simp only [normalizeEntry, Json.isRecord, if_true, hseq, hread, hreviewed, hexact, if_neg hvalues]

end Entry

/-! ### The document -/

namespace ConsumedSeqState

variable {c : ConsumedSeqState} {targets spellings : List Target}

lemma entryOf_eq_some {t : Target} {value : Json} (h : c.entryOf t = some value) :
    c.targets t ≠ .empty ∧ value = .obj (entryFields (c.targets t)) := by
  rw [entryOf] at h
  split_ifs at h with hentry
  exact ⟨hentry.2, (Option.some.inj h).symm⟩

lemma Writable.normalizeEntry (h : c.Writable) {t : Target} (hne : c.targets t ≠ .empty) :
    Attention.normalizeEntry (.obj (entryFields (c.targets t))) = some (c.targets t) :=
  normalizeEntry_entryFields (h.sound.entries t) hne
    (fun order horder => (h.sound.orders t order horder).1) (h.safe t)

lemma Writable.normalizeTargets (h : c.Writable) (hlists : c.Lists targets spellings) (t : Target) :
    Attention.normalizeTargets (some (.obj (present (targets.map fun t => (t, c.entryOf t))))) t =
      c.targets t := by
  have hall : ∀ t, (c.entryOf t).isSome → t ∈ targets := by
    intro t hsome
    obtain ⟨value, hvalue⟩ := Option.isSome_iff_exists.mp hsome
    exact hlists.targets t (entryOf_eq_some hvalue).1
  rw [Attention.normalizeTargets, fieldsOf, lookup_present_map hlists.nodupTargets hall]
  by_cases hne : c.targets t = .empty
  · have hnone : c.entryOf t = none := if_neg fun h => h.2 hne
    rw [hnone, hne, Option.bind_none, Option.getD_none, ite_self]
  · have hnamed := h.named t hne
    have hentry : c.entryOf t = some (.obj (entryFields (c.targets t))) :=
      if_pos ⟨hnamed.2, hne⟩
    rw [if_pos hnamed, hentry, Option.bind_some, h.normalizeEntry hne, Option.getD_some]

lemma Writable.lookup_aliasLinks (h : c.Writable) (hlists : c.Lists targets spellings)
    (t : Target) : (aliasLinks (some (.obj (present
      (spellings.map fun t => (t, (c.aliases t).map .str)))))).lookup t = c.aliases t := by
  have hlink : ∀ spellings : List Target,
      (present (spellings.map fun t => (t, (c.aliases t).map .str))).filterMap aliasLink =
        spellings.filterMap fun t => (c.aliases t).map (t, ·) := by
    intro spellings
    induction spellings with
    | nil => rfl
    | cons t spellings ih =>
      rcases halias : c.aliases t with _ | canonical
      · simpa [present, halias] using ih
      · obtain ⟨hnamed, hcanonical⟩ := h.spelled t canonical halias
        have hne : t ≠ canonical := by
          rintro rfl
          exact nomatch (h.sound.direct t t halias).symm.trans halias
        simpa [present, halias, aliasLink, hnamed.1, hcanonical, hne] using ih
  have hlookup : ∀ spellings : List Target, (t ∈ spellings ∨ c.aliases t = none) →
      (spellings.filterMap fun t => (c.aliases t).map (t, ·)).lookup t = c.aliases t := by
    intro spellings
    induction spellings with
    | nil => exact fun ht => (ht.resolve_left not_mem_nil).symm
    | cons t' spellings ih =>
      intro ht
      by_cases heq : t = t'
      · subst heq
        rcases halias : c.aliases t with _ | canonical
        · rw [filterMap_cons_none (by rw [halias]; rfl), ih (Or.inr halias), halias]
        · rw [filterMap_cons_some (by rw [halias]; rfl), lookup_cons, beq_self_eq_true]
      · have hrest : t ∈ spellings ∨ c.aliases t = none :=
          ht.imp_left fun hmem => (mem_cons.mp hmem).resolve_left heq
        rcases halias : c.aliases t' with _ | canonical
        · rw [filterMap_cons_none (by rw [halias]; rfl), ih hrest]
        · rw [filterMap_cons_some (by rw [halias]; rfl), lookup_cons, beq_eq_false_iff_ne.mpr heq]
          exact ih hrest
  rw [aliasLinks, fieldsOf, hlink, hlookup]
  rcases halias : c.aliases t with _ | canonical
  · exact Or.inr rfl
  · exact Or.inl (hlists.spellings t (by rw [halias]; rfl))

lemma Writable.normalizeAliases (h : c.Writable) {links : List (Target × Target)}
    (hlinks : ∀ t, links.lookup t = c.aliases t) (t : Target) :
    Attention.normalizeAliases links t = c.aliases t := by
  rw [Attention.normalizeAliases]
  rcases halias : c.aliases t with _ | canonical
  · split_ifs
    · rw [followAlias_end ((hlinks t).trans halias)]
      simp
    · rfl
  · obtain ⟨hnamed, -⟩ := h.spelled t canonical halias
    have hne : canonical ≠ t := by
      rintro rfl
      cases (h.sound.direct canonical canonical halias).symm.trans halias
    have hlookup : links.lookup t = some canonical := (hlinks t).trans halias
    have hlength : 0 < links.length := length_pos_of_mem (mem_of_lookup hlookup)
    have hend : links.lookup canonical = none :=
      (hlinks canonical).trans (h.sound.direct t canonical halias)
    obtain ⟨fuel, hfuel⟩ := Nat.exists_eq_succ_of_ne_zero hlength.ne'
    have hfollow : followAlias links (links.length + 1) [t] t = some canonical := by
      have hnew : canonical ∉ [t] := by simpa using hne
      rw [followAlias, hlookup]
      simp only [if_neg hnew]
      rw [hfuel]
      exact followAlias_end hend
    rw [if_pos hnamed, hfollow]
    simp [hne]

lemma Writable.maxObservedOrder_lt (h : c.Writable) (targets : List Target) :
    maxObservedOrder (some (.obj (present (targets.map fun t => (t, c.entryOf t))))) <
      c.nextReadOrder := by
  have hfold : ∀ fields : List (String × Json), (∀ f ∈ fields, ∃ t, c.entryOf t = some f.2) →
      ∀ m < c.nextReadOrder, fields.foldl observeOrder m < c.nextReadOrder := by
    intro fields
    induction fields with
    | nil => exact fun _ m hm => hm
    | cons f fields ih =>
      intro hfields m hm
      refine ih (fun f hf => hfields f (mem_cons_of_mem _ hf)) _ ?_
      obtain ⟨t, ht⟩ := hfields f mem_cons_self
      obtain ⟨hne, hvalue⟩ := entryOf_eq_some ht
      have hread := (readOrder_of_normalizeEntry (h.normalizeEntry hne)).2
      rw [observeOrder, hvalue, ← hread]
      split_ifs
      · refine max_lt hm ?_
        rcases horder : (c.targets t).readOrder with _ | order
        · exact h.sound.next
        · exact (h.sound.orders t order horder).2
      · exact hm
  refine hfold _ ?_ 0 h.sound.next
  rintro ⟨t, value⟩ hmem
  obtain ⟨t', -, heq⟩ := mem_map.mp (mem_present.mp hmem)
  exact ⟨t', (Prod.ext_iff.mp heq).2⟩

/-- What a document can hold is read as it was written. -/
theorem Writable.normalizeState (h : c.Writable) (hlists : c.Lists targets spellings) :
    Attention.normalizeState (c.persisted targets spellings) = c := by
  have hnext : max ((positiveFiniteNumber (some (.int c.nextReadOrder))).getD 1)
      (maxObservedOrder (some (.obj (present (targets.map fun t => (t, c.entryOf t))))) + 1) =
        c.nextReadOrder := by
    rw [positiveFiniteNumber_int h.sound.next]
    exact max_eq_left (h.maxObservedOrder_lt targets)
  have htargets := funext (h.normalizeTargets hlists)
  have haliases := funext (h.normalizeAliases (h.lookup_aliasLinks hlists))
  have hread : Attention.normalizeState (c.persisted targets spellings) = ⟨_, _, _⟩ := if_pos rfl
  rw [hread]
  exact (mk.injEq ..).mpr ⟨htargets, haliases, hnext⟩

end ConsumedSeqState

/-! ### What can be reached can be written -/

namespace ConsumedSeqState

variable {c : ConsumedSeqState} {t : Target}

lemma writable_empty : ConsumedSeqState.empty.Writable where
  sound := sound_empty
  named _ h := absurd rfl h
  safe _ _ h := absurd h (Exact.not_mem_empty _)
  spelled _ _ h := nomatch h
  finite := by simp [empty]
  finiteAliases := by simp [empty]

variable {canonical : Target}

lemma mem_of_followAlias {links : List (Target × Target)} {fuel : Nat} {visited : List Target}
    {t : Target} (h : followAlias links fuel visited t = some canonical) :
    canonical = t ∨ ∃ spelling, (spelling, canonical) ∈ links := by
  induction fuel generalizing visited t with
  | zero => cases h
  | succ fuel ih =>
    rw [followAlias] at h
    split at h
    · exact Or.inl (Option.some.inj h).symm
    · next next hnext =>
      split_ifs at h
      refine (ih h).elim (fun heq => Or.inr ⟨t, ?_⟩) Or.inr
      rw [heq]
      exact mem_of_lookup hnext

lemma writable_normalizeState (value : Json) : (Attention.normalizeState value).Writable := by
  have hsound := sound_normalizeState value
  by_cases hrecord : value.isRecord = true
  · have hread : normalizeState value = ⟨normalizeTargets (value.get? "targets"),
        normalizeAliases (aliasLinks (value.get? "aliases")), _⟩ := if_pos hrecord
    rw [hread] at hsound ⊢
    refine ⟨hsound, fun t ht => (entry_of_normalizeTargets ht).1, fun t n hn => ?_,
      fun t canonical ht => ?_, ?_, ?_⟩
    · have hn : n ∈ (normalizeTargets (value.get? "targets") t).exactSeqs := hn
      have hne : normalizeTargets (value.get? "targets") t ≠ .empty := by
        intro hempty
        rw [hempty] at hn
        exact Exact.not_mem_empty n hn
      obtain ⟨-, record, -, hentry⟩ := entry_of_normalizeTargets hne
      exact safe_of_normalizeEntry hentry n hn
    · have ht : normalizeAliases (aliasLinks (value.get? "aliases")) t =
          some canonical := ht
      rw [normalizeAliases] at ht
      split_ifs at ht with hnamed
      obtain ⟨hfollow, hne⟩ := Option.filter_eq_some_iff.mp ht
      refine ⟨hnamed, ?_⟩
      obtain ⟨spelling, hlink⟩ := (mem_of_followAlias hfollow).resolve_left (by simpa using hne)
      obtain ⟨field, -, hfield⟩ := mem_filterMap.mp hlink
      exact canonical_of_aliasLink hfield
    · refine Set.Finite.subset (finite_toSet ((fieldsOf (value.get? "targets")).map Prod.fst))
        fun t ht => ?_
      obtain ⟨-, record, hlookup, -⟩ := entry_of_normalizeTargets ht
      exact mem_map.mpr ⟨_, mem_of_lookup hlookup, rfl⟩
    · refine Set.Finite.subset (finite_toSet
        ((aliasLinks (value.get? "aliases")).map Prod.fst)) fun t ht => ?_
      by_contra hmissing
      have hnone : (aliasLinks (value.get? "aliases")).lookup t = none := by
        by_contra hsome
        obtain ⟨v, hv⟩ := Option.ne_none_iff_exists'.mp hsome
        exact hmissing (mem_map.mpr ⟨_, mem_of_lookup hv, rfl⟩)
      have ht : (normalizeAliases (aliasLinks (value.get? "aliases")) t).isSome := ht
      rw [normalizeAliases, followAlias_end hnone] at ht
      split_ifs at ht <;> simp at ht
  · have hread : normalizeState value = .empty := if_neg hrecord
    rw [hread]
    exact writable_empty

lemma Writable.withTarget (h : c.Writable) {e : ConsumedSeqEntry} (ht : Named t)
    (hsound : (c.withTarget t e).Sound) (hsafe : ∀ n ∈ e.exactSeqs, n ≤ maxSafeInteger) :
    (c.withTarget t e).Writable where
  sound := hsound
  named t' ht' := by
    by_cases heq : t' = t
    · exact heq ▸ ht
    · refine h.named t' ?_
      simpa [ConsumedSeqState.withTarget, heq] using ht'
  safe t' n hn := by
    by_cases heq : t' = t
    · exact hsafe n (by simpa [ConsumedSeqState.withTarget, heq] using hn)
    · exact h.safe t' n (by simpa [ConsumedSeqState.withTarget, heq] using hn)
  spelled := h.spelled
  finite := by
    refine Set.Finite.subset (h.finite.union (Set.finite_singleton t)) fun t' ht' => ?_
    by_cases heq : t' = t
    · exact Or.inr heq
    · refine Or.inl ?_
      simpa [ConsumedSeqState.withTarget, heq] using ht'
  finiteAliases := h.finiteAliases

lemma Writable.moveFrontier (h : c.Writable) (ht : Named t) (n : Nat) :
    (c.moveFrontier t n).Writable := by
  have hsound := h.sound.moveFrontier t n
  simp only [ConsumedSeqState.moveFrontier] at hsound ⊢
  split_ifs at hsound ⊢
  · exact h
  · exact h.withTarget ht hsound fun k hk => h.safe t k (Exact.mem_above.mp hk).1

lemma Writable.recordExact (h : c.Writable) (ht : Named t) {ns : List Nat}
    (hns : ∀ n ∈ ns, n ≤ maxSafeInteger) : (c.recordExact t ns).Writable := by
  have hsound := h.sound.recordExact t ns
  simp only [ConsumedSeqState.recordExact] at hsound ⊢
  split_ifs at hsound ⊢
  · exact h
  · exact h.withTarget ht hsound fun k hk => (mem_of_merge hk).1.elim (h.safe t k) (hns k)

lemma Writable.review (h : c.Writable) (ht : Named t) (n : Nat) : (c.review t n).Writable := by
  have hsound := h.sound.review t n
  refine ⟨hsound, fun t' ht' => ?_, fun t' k hk => ?_, h.spelled, ?_, h.finiteAliases⟩
  · by_cases heq : t' = t
    · exact heq ▸ ht
    · refine h.named t' ?_
      simpa [ConsumedSeqState.review, ConsumedSeqState.withTarget, heq] using ht'
  · by_cases heq : t' = t
    · exact h.safe t k (by simpa [ConsumedSeqState.review, ConsumedSeqState.withTarget, heq] using hk)
    · exact h.safe t' k (by
        simpa [ConsumedSeqState.review, ConsumedSeqState.withTarget, heq] using hk)
  · refine Set.Finite.subset (h.finite.union (Set.finite_singleton t)) fun t' ht' => ?_
    by_cases heq : t' = t
    · exact Or.inr heq
    · refine Or.inl ?_
      simpa [ConsumedSeqState.review, ConsumedSeqState.withTarget, heq] using ht'

lemma Writable.reviewIf (h : c.Writable) (ht : Named t) (review : Option Nat) :
    (c.reviewIf t review).Writable := by
  cases review with
  | none => exact h
  | some n => exact h.review ht n

/-- The aliases of a new alias are the old ones, or lead from a spelling to a target. -/
lemma alias_of_addAlias {spelling t x : Target}
    (h : (c.addAlias spelling canonical).aliases t = some x) :
    c.aliases t = some x ∨ (t = spelling ∨ c.aliases t = some spelling) ∧
      (x = canonical ∨ c.aliases canonical = some x) := by
  have hcut : ∀ t y, c.cutAliases spelling canonical t = some y → c.aliases t = some y := by
    intro t y hy
    rw [cutAliases] at hy
    split_ifs at hy
    · have hy : (if t = canonical then none else c.aliases t) = some y := hy
      split_ifs at hy
      exact hy
    · exact hy
  have htarget : c.aliasTarget spelling canonical = canonical ∨
      c.aliases canonical = some (c.aliasTarget spelling canonical) := by
    simp only [aliasTarget]
    split_ifs
    · exact Or.inl rfl
    · rcases c.aliases canonical with _ | y
      · exact Or.inl rfl
      · exact Or.inr rfl
  simp only [addAlias] at h
  split_ifs at h
  · exact Or.inl h
  · exact Or.inl (hcut t x h)
  · have h : (if t = spelling || c.cutAliases spelling canonical t = some spelling then
      some (c.aliasTarget spelling canonical) else c.cutAliases spelling canonical t) = some x := h
    split_ifs at h with hmoved
    · cases h
      refine Or.inr ⟨?_, htarget⟩
      rcases Bool.or_eq_true_iff.mp hmoved with ht | ht
      · exact Or.inl (of_decide_eq_true ht)
      · exact Or.inr (hcut t spelling (of_decide_eq_true ht))
    · exact Or.inl (hcut t x h)

lemma Writable.addAlias (h : c.Writable) {spelling : Target} (hspelling : Named spelling)
    (hcanonical : Named canonical) : (c.addAlias spelling canonical).Writable := by
  have hsound := h.sound.addAlias spelling canonical
  have htargets := targets_addAlias c spelling canonical
  refine ⟨hsound, ?_, ?_, fun t x hx => ?_, ?_, ?_⟩
  · rw [htargets]
    exact h.named
  · rw [htargets]
    exact h.safe
  · rcases alias_of_addAlias hx with hold | ⟨ht, hx⟩
    · exact h.spelled t x hold
    · refine ⟨?_, ?_⟩
      · rcases ht with rfl | ht
        · exact hspelling
        · exact (h.spelled t spelling ht).1
      · rcases hx with rfl | hx
        · exact hcanonical.1
        · exact (h.spelled canonical x hx).2
  · rw [htargets]
    exact h.finite
  · refine Set.Finite.subset (h.finiteAliases.union (Set.finite_singleton spelling)) fun t ht => ?_
    obtain ⟨x, hx⟩ := Option.isSome_iff_exists.mp ht
    rcases alias_of_addAlias hx with hold | ⟨rfl | hold, -⟩
    · exact Or.inl (Option.isSome_iff_exists.mpr ⟨x, hold⟩)
    · exact Or.inr rfl
    · exact Or.inl (Option.isSome_iff_exists.mpr ⟨spelling, hold⟩)

end ConsumedSeqState

/-- Callers name the targets they record under, with message sequences. An empty target of a check
is passed over. -/
def Bookkeeping.Names : Bookkeeping → Prop
  | .recordModelSeen t _ | .recordReadContext t _ | .recordSendContext t _ _ => Named t
  | .recordExactSeen shown => ∀ s ∈ shown, (s.1 ≠ "" → Named s.1) ∧ ∀ n ∈ s.2, n ≤ maxSafeInteger
  | .recordHistoryRead read =>
    Named read.spelling ∧ Named read.target ∧ ∀ n ∈ read.shown, n ≤ maxSafeInteger
  | .recordTargetAlias spelling canonical => Named spelling ∧ Named canonical
  | _ => True

namespace ConsumedSeqState

variable {c : ConsumedSeqState}

theorem Writable.consume (h : c.Writable) {b : Bookkeeping} (hb : b.Names) :
    (c.consume b).Writable := by
  cases b with
  | recordModelSeen t n => exact h.moveFrontier hb n
  | recordReadContext t n => exact h.review hb n
  | recordExactSeen shown =>
    simp only [ConsumedSeqState.consume]
    induction shown generalizing c with
    | nil => exact h
    | cons target shown ih =>
      obtain ⟨hnamed, hsafe⟩ := hb target mem_cons_self
      refine ih ?_ fun s hs => hb s (mem_cons_of_mem _ hs)
      rw [recordShown]
      split_ifs with hempty
      · exact h
      · exact h.recordExact (hnamed hempty) hsafe
  | recordHistoryRead read =>
    obtain ⟨hspelling, htarget, hshown⟩ := hb
    exact (((h.addAlias hspelling htarget).moveFrontier htarget _).recordExact htarget
      hshown).reviewIf htarget _
  | recordSendContext t through review =>
    simp only [ConsumedSeqState.consume]
    split_ifs
    · exact h
    · exact (h.moveFrontier hb through).reviewIf hb review
  | recordTargetAlias spelling canonical => exact h.addAlias hb.1 hb.2
  | _ => exact h

end ConsumedSeqState

lemma lasting_writable : Lasting Bookkeeping.Names ConsumedSeqState.Writable where
  empty := writable_empty
  next _ h := h.sound.next
  consume _ _ hb h := h.consume hb

lemma writable_readState (file : Option Json) : (readState file).Writable := by
  cases file with
  | none => exact writable_empty
  | some value => exact writable_normalizeState value

/-! ### The main result -/

/-- The Agent is cleared and hydrated again from a file. -/
def Index.restored (s : Index) (file : Option Json) : Index :=
  Index.hydrate { s.clearAgent with durable := some (readState file) }

/-- A read of a thread under a short spelling, and a check of a direct conversation. -/
def shownTwice : List Label := [
  .bookkeeping (.recordHistoryRead ⟨"#general:abcd1234", "#general:full", [5], 3, some 5, none⟩),
  .bookkeeping (.recordExactSeen [("@bob", [4, 2])])]

end Coforge.Attention
