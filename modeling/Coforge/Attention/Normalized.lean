import Coforge.Attention.Normal
import Mathlib

/-!
# What a normalized file promises

A file holds every read order as a double, and the next read order is the greatest of them and 1.
`normalized_iff` says when a state that was read keeps all that `normalizeState` promises. Only the
next read order can fail: from `2 ^ 53` on the sum may be the greatest order itself, and the next
review then takes an order that was used already.
-/

namespace Coforge.Attention

open List Option

namespace Normal

/-- The read orders of a file, with the target each is of. -/
def orders (value : Parsed) : List (Target × Double) :=
  (Parsed.entries (value.get? "targets")).filterMap fun field =>
    if field.1 = "" ∨ field.2.isRecord = false then none
    else (positiveFiniteNumber (field.2.get? "readOrder")).map (field.1, ·)

/-- The order from which a file counts on. -/
def rawNextReadOrder (value : Parsed) : Double :=
  (positiveFiniteNumber (value.get? "nextReadOrder")).getD .one

/-- The greatest read order of a file does not absorb a 1, or the file's next one is above it. An
order of `__proto__` is lost, so it does not matter. -/
def Counts (value : Parsed) : Prop :=
  ∀ t order, (t, order) ∈ orders value → t ≠ "__proto__" →
    (∀ t' other, (t', other) ∈ orders value → other ≤ order) →
      order.value < 2 ^ 53 ∨ (order.value < 2 ^ 54 ∧ ∃ j : ℕ, Odd j ∧ order.value = 2 * j) ∨
        order < rawNextReadOrder value

/-- What `normalizeState` promises of the state it reads from a value. -/
structure Normalized (value : Parsed) (c : ConsumedSeqState) : Prop where
  entries : ∀ t e, (t, e) ∈ c.targets → e.Sound
  direct : ∀ spelling canonical, (spelling, canonical) ∈ c.aliases →
    c.aliases.lookup canonical = none
  looping : ∀ spelling name, Leads (aliasLinks (value.get? "aliases")) spelling name →
    Loops (aliasLinks (value.get? "aliases")) name → c.aliases.lookup spelling = none
  ending : ∀ spelling canonical, spelling ≠ "__proto__" → spelling ≠ canonical →
    Leads (aliasLinks (value.get? "aliases")) spelling canonical →
    (aliasLinks (value.get? "aliases")).lookup canonical = none →
      c.aliases.lookup spelling = some canonical
  increasing : ∀ t e order, (t, e) ∈ c.targets → e.readOrder = some order →
    order < c.nextReadOrder
  stable : normalizeState c.toParsed = c

/-! ### Read orders -/

section Orders

variable {entries : List (Target × ConsumedSeqEntry)} {order : Double}

lemma le_foldl_max (entries : List (Target × ConsumedSeqEntry)) (start : Double) :
    start ≤ entries.foldl (fun order entry => max order (entry.2.readOrder.getD .zero)) start := by
  induction entries generalizing start with
  | nil => exact le_refl start
  | cons entry entries ih => exact (le_max_left _ _).trans (ih _)

lemma foldl_max_le {start bound : Double} (hstart : start ≤ bound)
    (h : ∀ entry ∈ entries, entry.2.readOrder.getD .zero ≤ bound) :
    entries.foldl (fun order entry => max order (entry.2.readOrder.getD .zero)) start ≤ bound := by
  induction entries generalizing start with
  | nil => exact hstart
  | cons entry entries ih =>
    obtain ⟨hentry, hrest⟩ := forall_mem_cons.mp h
    exact ih (max_le hstart hentry) hrest

lemma le_foldl_of_mem {t : Target} {e : ConsumedSeqEntry} {start : Double} (h : (t, e) ∈ entries) :
    e.readOrder.getD .zero ≤
      entries.foldl (fun order entry => max order (entry.2.readOrder.getD .zero)) start := by
  induction entries generalizing start with
  | nil => cases h
  | cons entry entries ih =>
    rcases mem_cons.mp h with rfl | h
    · exact (le_max_right _ _).trans (le_foldl_max _ _)
    · exact ih h

lemma le_maxObservedOrder {t : Target} {e : ConsumedSeqEntry} (h : (t, e) ∈ entries)
    (horder : e.readOrder = some order) : order ≤ maxObservedOrder entries := by
  have hle := @le_foldl_of_mem _ _ _ .zero h
  rwa [horder] at hle

lemma maxObservedOrder_le {bound : Double}
    (h : ∀ t e order, (t, e) ∈ entries → e.readOrder = some order → order ≤ bound) :
    maxObservedOrder entries ≤ bound := by
  refine foldl_max_le (Double.zero_le _) ?_
  rintro ⟨t, e⟩ hentry
  rcases horder : e.readOrder with _ | order
  · exact Double.zero_le _
  · exact h t e order hentry horder

end Orders

/-! ### Fields and entries -/

section Reading

variable {value : Parsed} {targets : Option Parsed} {t : Target} {e : ConsumedSeqEntry}

lemma mem_readEntries : (t, e) ∈ readEntries targets ↔
    ∃ record, (t, record) ∈ Parsed.entries targets ∧ t ≠ "" ∧ normalizeEntry record = some e := by
  rw [readEntries, mem_filterMap]
  constructor
  · rintro ⟨⟨name, record⟩, hfield, hread⟩
    split_ifs at hread with hname
    obtain ⟨e', he', heq⟩ := map_eq_some_iff.mp hread
    cases heq
    exact ⟨record, hfield, hname, he'⟩
  · rintro ⟨record, hfield, hname, he⟩
    refine ⟨(t, record), hfield, ?_⟩
    rw [if_neg hname, he]
    rfl

lemma readOrder_of_normalizeEntry {record : Parsed} (h : normalizeEntry record = some e) :
    record.isRecord = true ∧ e.readOrder = positiveFiniteNumber (record.get? "readOrder") := by
  simp only [normalizeEntry] at h
  split_ifs at h with hrecord
  exact ⟨hrecord, some.inj h ▸ rfl⟩

lemma normalizeEntry_of_readOrder {record : Parsed} {order : Double}
    (hrecord : record.isRecord = true)
    (horder : positiveFiniteNumber (record.get? "readOrder") = some order) :
    ∃ e, normalizeEntry record = some e ∧ e.readOrder = some order := by
  simp only [normalizeEntry, if_pos hrecord, horder]
  rw [if_neg (by simp)]
  exact ⟨_, rfl, rfl⟩

lemma mem_orders {order : Double} : (t, order) ∈ orders value ↔
    ∃ e, (t, e) ∈ readEntries (value.get? "targets") ∧ e.readOrder = some order := by
  rw [orders, mem_filterMap]
  constructor
  · rintro ⟨⟨name, record⟩, hfield, hread⟩
    split_ifs at hread with hskip
    rw [not_or, Bool.not_eq_false] at hskip
    obtain ⟨order', horder, heq⟩ := map_eq_some_iff.mp hread
    cases heq
    obtain ⟨e, he, hkept⟩ := normalizeEntry_of_readOrder hskip.2 horder
    exact ⟨e, mem_readEntries.mpr ⟨record, hfield, hskip.1, he⟩, hkept⟩
  · rintro ⟨e, hentry, horder⟩
    obtain ⟨record, hfield, hname, he⟩ := mem_readEntries.mp hentry
    obtain ⟨hrecord, hread⟩ := readOrder_of_normalizeEntry he
    refine ⟨(t, record), hfield, ?_⟩
    rw [if_neg (by simp [hname, hrecord]), ← hread, horder]
    rfl

end Reading

/-! ### The state that is read -/

section State

variable {value : Parsed} {t : Target} {e : ConsumedSeqEntry}

lemma targets_normalizeState : (normalizeState value).targets =
    (readEntries (value.get? "targets")).filter fun entry => entry.1 ≠ "__proto__" := by
  rw [normalizeState]
  split_ifs with hrecord
  · rfl
  · cases value <;> first | rfl | exact absurd rfl hrecord

lemma aliases_normalizeState : (normalizeState value).aliases =
    (aliasLinks (value.get? "aliases")).filterMap fun link =>
      (normalizeAliases (aliasLinks (value.get? "aliases")) link.1).map (link.1, ·) := by
  rw [normalizeState]
  split_ifs with hrecord
  · rfl
  · cases value <;> first | rfl | exact absurd rfl hrecord

lemma mem_targets : (t, e) ∈ (normalizeState value).targets ↔
    (t, e) ∈ readEntries (value.get? "targets") ∧ t ≠ "__proto__" := by
  rw [targets_normalizeState, mem_filter, decide_eq_true_iff]

lemma written_of_mem_targets (h : (t, e) ∈ (normalizeState value).targets) : t ≠ "" ∧ e.Written := by
  obtain ⟨record, -, hname, he⟩ := mem_readEntries.mp (mem_targets.mp h).1
  exact ⟨hname, written_of_normalizeEntry he⟩

lemma nextReadOrder_normalizeState (h : value.isRecord = true) :
    (normalizeState value).nextReadOrder = max (rawNextReadOrder value)
      (maxObservedOrder (readEntries (value.get? "targets"))).addOne := by
  rw [normalizeState, if_pos h]
  rfl

lemma isRecord_of_mem_targets (h : (t, e) ∈ (normalizeState value).targets) :
    value.isRecord = true := by
  by_contra hrecord
  rw [normalizeState, if_neg hrecord] at h
  cases h

lemma increasing_iff : (∀ t e order, (t, e) ∈ (normalizeState value).targets →
      e.readOrder = some order → order < (normalizeState value).nextReadOrder) ↔ Counts value := by
  constructor
  · intro h t order horder hproto hgreatest
    obtain ⟨e, hentry, hread⟩ := mem_orders.mp horder
    have hkept := mem_targets.mpr ⟨hentry, hproto⟩
    have hlt := h t e order hkept hread
    have hmax : maxObservedOrder (readEntries (value.get? "targets")) = order := by
      refine le_antisymm (maxObservedOrder_le fun t' e' other hentry' hread' => ?_)
        (le_maxObservedOrder hentry hread)
      exact hgreatest t' other (mem_orders.mpr ⟨e', hentry', hread'⟩)
    rw [nextReadOrder_normalizeState (isRecord_of_mem_targets hkept), hmax, lt_max_iff,
      @Double.lt_def order order.addOne, Double.lt_addOne_iff] at hlt
    rcases hlt with hraw | hsmall | hmiddle
    · exact Or.inr (Or.inr hraw)
    · exact Or.inl hsmall
    · exact Or.inr (Or.inl hmiddle)
  · intro h t e order hkept hread
    obtain ⟨hentry, hproto⟩ := mem_targets.mp hkept
    rw [nextReadOrder_normalizeState (isRecord_of_mem_targets hkept), lt_max_iff]
    rcases (le_maxObservedOrder hentry hread).lt_or_eq with hless | hmax
    · exact Or.inr (hless.trans_le (Double.le_addOne _))
    · rw [← hmax, @Double.lt_def order order.addOne, Double.lt_addOne_iff]
      have hgreatest : ∀ t' other, (t', other) ∈ orders value → other ≤ order := by
        intro t' other hother
        obtain ⟨e', hentry', hread'⟩ := mem_orders.mp hother
        exact hmax ▸ le_maxObservedOrder hentry' hread'
      rcases h t order (mem_orders.mpr ⟨e, hentry, hread⟩) hproto hgreatest with
        hsmall | hmiddle | hraw
      · exact Or.inr (Or.inl hsmall)
      · exact Or.inr (Or.inr hmiddle)
      · exact Or.inl hraw

end State

/-! ### Aliases -/

section Aliases

variable {links : List (Target × Target)} {f : Target → Option Target} {spelling canonical : Target}

lemma mem_filterMap_pair : (spelling, canonical) ∈ links.filterMap (fun link =>
      (f link.1).map (link.1, ·)) ↔
    (∃ next, (spelling, next) ∈ links) ∧ f spelling = some canonical := by
  rw [mem_filterMap]
  constructor
  · rintro ⟨⟨name, next⟩, hlink, hread⟩
    obtain ⟨canonical', hf, heq⟩ := map_eq_some_iff.mp hread
    cases heq
    exact ⟨⟨next, hlink⟩, hf⟩
  · rintro ⟨⟨next, hlink⟩, hf⟩
    refine ⟨(spelling, next), hlink, ?_⟩
    rw [hf]
    rfl

lemma lookup_filterMap_pair (links : List (Target × Target)) :
    (links.filterMap fun link => (f link.1).map (link.1, ·)).lookup spelling =
      (links.lookup spelling).bind fun _ => f spelling := by
  induction links with
  | nil => rfl
  | cons link links ih =>
    obtain ⟨name, next⟩ := link
    rw [filterMap_cons, lookup_cons]
    by_cases hname : spelling = name
    · subst hname
      rcases hf : f spelling with _ | canonical
      · -- nothing is kept of this name, and nothing of a later field of it
        simp only [hf, map_none, ih, beq_self_eq_true, bind_some]
        cases links.lookup spelling <;> rfl
      · simp
    · have hbeq : (spelling == name) = false := beq_false_of_ne hname
      rcases hf : f name with _ | canonical
      · simpa only [map_none, hbeq] using ih
      · simpa only [map_some, lookup_cons, hbeq] using ih

lemma mem_aliasLinks {fields : Option Parsed} : (spelling, canonical) ∈ aliasLinks fields ↔
    (spelling, Parsed.str canonical) ∈ Parsed.entries fields ∧
      spelling ≠ "" ∧ canonical ≠ "" ∧ spelling ≠ canonical := by
  rw [aliasLinks, mem_filterMap]
  constructor
  · rintro ⟨⟨name, v⟩, hfield, hlink⟩
    unfold aliasLink at hlink
    split at hlink
    · next text hv =>
      split_ifs at hlink with hok
      obtain ⟨rfl, rfl⟩ := Prod.mk.inj (some.inj hlink)
      obtain rfl : v = .str text := hv
      exact ⟨hfield, hok⟩
    · cases hlink
  · rintro ⟨hfield, hok⟩
    exact ⟨_, hfield, if_pos hok⟩

lemma lookup_aliases {value : Parsed} : (normalizeState value).aliases.lookup spelling =
    normalizeAliases (aliasLinks (value.get? "aliases")) spelling := by
  rw [aliases_normalizeState, lookup_filterMap_pair]
  rcases hnext : (aliasLinks (value.get? "aliases")).lookup spelling with _ | next
  · rw [bind_none, eq_comm, eq_none_iff_forall_ne_some]
    intro canonical hcanonical
    obtain ⟨-, hleads, -, hne⟩ := normalizeAliases_eq_some.mp hcanonical
    rcases Relation.ReflTransGen.cases_head hleads with heq | ⟨next, hstep, -⟩
    · exact hne heq
    · exact absurd (hnext.symm.trans hstep) (by simp)
  · rfl

lemma ne_empty_of_leads {fields : Option Parsed} (h : Leads (aliasLinks fields) spelling canonical)
    (hne : spelling ≠ canonical) : spelling ≠ "" ∧ canonical ≠ "" := by
  constructor
  · rcases Relation.ReflTransGen.cases_head h with heq | ⟨next, hstep, -⟩
    · exact absurd heq hne
    · exact (mem_aliasLinks.mp (mem_of_lookup hstep)).2.1
  · rcases Relation.ReflTransGen.cases_tail h with heq | ⟨last, -, hstep⟩
    · exact absurd heq.symm hne
    · exact (mem_aliasLinks.mp (mem_of_lookup hstep)).2.2.1

section Kept

variable {value : Parsed}

lemma mem_aliases (h : (spelling, canonical) ∈ (normalizeState value).aliases) :
    normalizeAliases (aliasLinks (value.get? "aliases")) spelling = some canonical := by
  rw [aliases_normalizeState] at h
  exact (mem_filterMap_pair.mp h).2

lemma lookup_aliases_of_unlinked (h : (aliasLinks (value.get? "aliases")).lookup canonical = none) :
    (normalizeState value).aliases.lookup canonical = none := by
  rw [aliases_normalizeState, lookup_filterMap_pair, h]
  rfl

lemma lookup_aliases_of_loops {name : Target}
    (hleads : Leads (aliasLinks (value.get? "aliases")) spelling name)
    (hloops : Loops (aliasLinks (value.get? "aliases")) name) :
    (normalizeState value).aliases.lookup spelling = none := by
  rw [lookup_aliases, eq_none_iff_forall_ne_some]
  intro canonical hcanonical
  obtain ⟨-, hend, hunlinked, -⟩ := normalizeAliases_eq_some.mp hcanonical
  exact not_loops_of_leads hleads hend hunlinked hloops

end Kept

end Aliases

/-! ### Reading the result again -/

section Again

variable {value : Parsed}

lemma entries_toParsed (c : ConsumedSeqState) : c.toParsed.get? "targets" =
        some (.obj (c.targets.map fun entry => (entry.1, entry.2.toParsed))) ∧
      c.toParsed.get? "aliases" = some (.obj (c.aliases.map fun link => (link.1, .str link.2))) ∧
      c.toParsed.get? "nextReadOrder" = some (numberValue c.nextReadOrder) := by
  refine ⟨?_, ?_, ?_⟩ <;> simp [ConsumedSeqState.toParsed, Parsed.get?, lookup]

lemma readEntries_map {entries : List (Target × ConsumedSeqEntry)}
    (h : ∀ t e, (t, e) ∈ entries → t ≠ "" ∧ e.Written) :
    readEntries (some (.obj (entries.map fun entry => (entry.1, entry.2.toParsed)))) = entries := by
  rw [readEntries, Parsed.entries, filterMap_map]
  refine (filterMap_congr fun entry hentry => ?_).trans filterMap_some
  obtain ⟨hname, hwritten⟩ := h entry.1 entry.2 hentry
  simp only [Function.comp_apply, if_neg hname, normalizeEntry_toParsed hwritten, map_some]

lemma aliasLinks_map {links : List (Target × Target)} (h : ∀ spelling canonical,
    (spelling, canonical) ∈ links → spelling ≠ "" ∧ canonical ≠ "" ∧ spelling ≠ canonical) :
    aliasLinks (some (.obj (links.map fun link => (link.1, .str link.2)))) = links := by
  rw [aliasLinks, Parsed.entries, filterMap_map]
  refine (filterMap_congr fun link hlink => ?_).trans filterMap_some
  exact if_pos (h link.1 link.2 hlink)

lemma named_of_mem_aliases {spelling canonical : Target}
    (h : (spelling, canonical) ∈ (normalizeState value).aliases) :
    spelling ≠ "" ∧ canonical ≠ "" ∧ spelling ≠ canonical := by
  obtain ⟨-, hleads, -, hne⟩ := normalizeAliases_eq_some.mp (mem_aliases h)
  obtain ⟨hspelling, hcanonical⟩ := ne_empty_of_leads hleads hne
  exact ⟨hspelling, hcanonical, hne⟩

lemma normalizeAliases_again {spelling canonical : Target}
    (h : (spelling, canonical) ∈ (normalizeState value).aliases) :
    normalizeAliases (normalizeState value).aliases spelling = some canonical := by
  have hkept := mem_aliases h
  obtain ⟨hnamed, -, hend, hne⟩ := normalizeAliases_eq_some.mp hkept
  have hlink : Link (normalizeState value).aliases spelling canonical :=
    lookup_aliases.trans hkept
  exact normalizeAliases_eq_some.mpr
    ⟨hnamed, Relation.ReflTransGen.single hlink, lookup_aliases_of_unlinked hend, hne⟩

lemma filterMap_aliases {links kept : List (Target × Target)} (h : ∀ spelling canonical,
    (spelling, canonical) ∈ kept → normalizeAliases links spelling = some canonical) :
    (kept.filterMap fun link => (normalizeAliases links link.1).map (link.1, ·)) = kept := by
  refine (filterMap_congr fun link hlink => ?_).trans filterMap_some
  rw [h link.1 link.2 hlink]
  rfl

lemma positive_rawNextReadOrder : 0 < (rawNextReadOrder value).value := by
  rw [rawNextReadOrder]
  rcases hread : positiveFiniteNumber (value.get? "nextReadOrder") with _ | x
  · exact one_pos
  · exact positive_of_read hread

lemma positive_nextReadOrder : 0 < (normalizeState value).nextReadOrder.value := by
  by_cases hrecord : value.isRecord = true
  · rw [nextReadOrder_normalizeState hrecord]
    exact positive_rawNextReadOrder.trans_le (Double.le_def.mp (le_max_left _ _))
  · rw [normalizeState, if_neg hrecord]
    exact one_pos

/-- The next order is no less than that of the kept entries: what is dropped had orders too. -/
lemma addOne_le_nextReadOrder : (maxObservedOrder (normalizeState value).targets).addOne ≤
      (normalizeState value).nextReadOrder := by
  by_cases hrecord : value.isRecord = true
  · rw [nextReadOrder_normalizeState hrecord]
    refine le_trans (Double.addOne_mono (Double.le_def.mp ?_)) (le_max_right _ _)
    refine maxObservedOrder_le fun t e order hentry horder => ?_
    exact le_maxObservedOrder (mem_targets.mp hentry).1 horder
  · rw [normalizeState, if_neg hrecord]
    exact Double.addOne_zero_le

theorem normalizeState_toParsed (value : Parsed) :
    normalizeState (normalizeState value).toParsed = normalizeState value := by
  obtain ⟨htargets, haliases, hnext⟩ := entries_toParsed (normalizeState value)
  have hentries : readEntries ((normalizeState value).toParsed.get? "targets") =
      (normalizeState value).targets := by
    rw [htargets]
    exact readEntries_map fun t e h => written_of_mem_targets h
  have hlinks : aliasLinks ((normalizeState value).toParsed.get? "aliases") =
      (normalizeState value).aliases := by
    rw [haliases]
    exact aliasLinks_map fun spelling canonical h => named_of_mem_aliases h
  have hkept : ((normalizeState value).targets.filter fun entry => entry.1 ≠ "__proto__") =
      (normalizeState value).targets := by
    refine filter_eq_self.mpr fun entry hentry => decide_eq_true ?_
    exact (mem_targets.mp hentry).2
  have horder : rawNextReadOrder (normalizeState value).toParsed =
      (normalizeState value).nextReadOrder := by
    rw [rawNextReadOrder, hnext, positiveFiniteNumber_numberValue positive_nextReadOrder]
    rfl
  have hmax := max_eq_left (@addOne_le_nextReadOrder value)
  have hflat := filterMap_aliases fun spelling canonical h => @normalizeAliases_again value _ _ h
  have hrecord : (normalizeState value).toParsed.isRecord = true := rfl
  calc normalizeState (normalizeState value).toParsed
      = ⟨(normalizeState (normalizeState value).toParsed).targets,
          (normalizeState (normalizeState value).toParsed).aliases,
          (normalizeState (normalizeState value).toParsed).nextReadOrder⟩ := rfl
    _ = ⟨(normalizeState value).targets, (normalizeState value).aliases,
          (normalizeState value).nextReadOrder⟩ := by
        rw [targets_normalizeState, aliases_normalizeState, nextReadOrder_normalizeState hrecord,
          hentries, hlinks, hkept, hflat, horder, hmax]
    _ = normalizeState value := rfl

end Again

/-- Reading keeps every promise exactly if the greatest order of the file does not absorb a 1. -/
theorem normalized_iff (value : Parsed) :
    Normalized value (normalizeState value) ↔ Counts value := by
  constructor
  · intro h
    exact increasing_iff.mp h.increasing
  · intro hcounts
    refine ⟨?_, ?_, ?_, ?_, increasing_iff.mpr hcounts, normalizeState_toParsed value⟩
    · intro t e hentry
      exact (written_of_mem_targets hentry).2.toSound
    · intro spelling canonical halias
      exact lookup_aliases_of_unlinked (normalizeAliases_eq_some.mp (mem_aliases halias)).2.2.1
    · intro spelling name hleads hloops
      exact lookup_aliases_of_loops hleads hloops
    · intro spelling canonical hproto hne hleads hend
      have hnamed : Named spelling := ⟨(ne_empty_of_leads hleads hne).1, hproto⟩
      exact lookup_aliases.trans (normalizeAliases_eq_some.mpr ⟨hnamed, hleads, hend, hne⟩)

/-! ### An order that is used again -/

/-- The first double that absorbs a 1. -/
def absorbing : Double :=
  ⟨2 ^ 53, 2 ^ 52, 1, by norm_num, by norm_num, by norm_num, by norm_num⟩

/-- A file with one target whose read order is that double. -/
def absorbingFile : Parsed :=
  .obj [("targets", .obj [("#a", .obj [("readOrder", numberValue absorbing)])])]

theorem not_normalized_absorbingFile :
    ¬ Normalized absorbingFile (normalizeState absorbingFile) := by
  intro hnormal
  have hcounts := increasing_iff.mp hnormal.increasing
  have hpositive : (0 : ℚ) < absorbing.value := by norm_num [absorbing]
  have horders : orders absorbingFile = [("#a", absorbing)] := by
    simp [orders, absorbingFile, Parsed.get?, Parsed.entries, lookup, Parsed.isRecord,
      positiveFiniteNumber_numberValue hpositive]
  have hraw : rawNextReadOrder absorbingFile = .one := rfl
  have hgreatest : ∀ t' other, (t', other) ∈ orders absorbingFile → other ≤ absorbing := by
    intro t' other hother
    rw [horders, mem_singleton] at hother
    exact (Prod.mk.inj hother).2.le
  have hmem : ("#a", absorbing) ∈ orders absorbingFile := horders ▸ mem_singleton_self _
  rcases hcounts "#a" absorbing hmem (by decide) hgreatest with hlt | ⟨-, j, hodd, hj⟩ | hlt
  · norm_num [absorbing] at hlt
  · -- half of it is a power of two
    have hcast : (j : ℚ) = ((2 ^ 52 : ℕ) : ℚ) := by
      norm_num [absorbing] at hj ⊢
      linarith
    have heq : j = 2 ^ 52 := by exact_mod_cast hcast
    exact Nat.not_even_iff_odd.mpr hodd (heq ▸ Nat.even_pow.mpr ⟨even_two, by norm_num⟩)
  · rw [hraw, Double.lt_def] at hlt
    norm_num [absorbing, Double.one] at hlt

end Normal

end Coforge.Attention
