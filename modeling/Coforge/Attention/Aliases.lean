import Coforge.Attention.Seen

/-!
# Seen under a spelling

What the Agent has seen is kept under canonical targets, and a spelling is looked up through its
alias. When a spelling becomes an alias of a target, or of another one, what was seen under it so
far stays where it was recorded. Everything else only adds to what is seen, as long as no target
holds too many exact sequences.

A run forgets nothing that was seen under any spelling exactly if no new alias leads to a target
that has seen less.
-/

namespace Coforge.Attention

open Transition ConsumedSeqState

namespace ConsumedSeqState

/-- The canonical target of a spelling. -/
def resolve (c : ConsumedSeqState) (spelling : Target) : Target :=
  (c.aliases spelling).getD spelling

/-- Whether a target has seen a sequence. -/
def SeenIn (c : ConsumedSeqState) (t : Target) (n : Nat) : Prop := (c.targets t).Seen n

variable {c : ConsumedSeqState} {spelling canonical t t' : Target} {n k : Nat} {ns : List Nat}

/-! ### What the operations add -/

lemma seenIn_moveFrontier : (c.moveFrontier t k).SeenIn t' n ↔ c.SeenIn t' n ∨ t' = t ∧ n ≤ k := by
  simp only [SeenIn, moveFrontier]
  split_ifs with hle
  · refine (or_iff_left_of_imp ?_).symm
    rintro ⟨rfl, hn⟩
    exact Or.inl (le_trans hn hle)
  · by_cases ht : t' = t
    · subst ht
      simp only [withTarget, if_true, ConsumedSeqEntry.Seen, Exact.mem_above, true_and]
      constructor
      · rintro (hn | ⟨hn, -⟩)
        · exact Or.inr hn
        · exact Or.inl (Or.inr hn)
      · rintro ((hn | hn) | hn)
        · exact Or.inl (le_trans hn (not_le.mp hle).le)
        · exact (le_or_gt n k).imp id fun hlt => ⟨hn, hlt⟩
        · exact Or.inl hn
    · simp [withTarget, ht]

/-- No exact sequence of the target is cut off when these are added. -/
def FitsRecord (c : ConsumedSeqState) (t : Target) (ns : List Nat) : Prop :=
  (merged (c.targets t) ns).length ≤ seenExactSeqsLimit

lemma seenIn_recordExact (hfits : c.FitsRecord t ns) :
    (c.recordExact t ns).SeenIn t' n ↔ c.SeenIn t' n ∨ t' = t ∧ n ∈ ns := by
  simp only [SeenIn, recordExact]
  split_ifs with hnil
  · simp [hnil]
  · by_cases ht : t' = t
    · subst ht
      have hmem : n ∈ (c.targets t').exactSeqs.merge (c.targets t').seq ns ↔
          (n ∈ (c.targets t').exactSeqs ∨ n ∈ ns) ∧ (c.targets t').seq < n := by
        rw [Exact.mem_def, seqs_merge, History.sliceLast_eq_self hfits, mem_merged]
      simp only [withTarget, if_true, ConsumedSeqEntry.Seen, hmem, true_and]
      constructor
      · rintro (hn | ⟨hn | hn, -⟩)
        · exact Or.inl (Or.inl hn)
        · exact Or.inl (Or.inr hn)
        · exact Or.inr hn
      · rintro ((hn | hn) | hn)
        · exact Or.inl hn
        · exact (le_or_gt n _).imp id fun hlt => ⟨Or.inl hn, hlt⟩
        · exact (le_or_gt n _).imp id fun hlt => ⟨Or.inr hn, hlt⟩
    · simp [withTarget, ht]

lemma seenIn_reviewIf (review : Option Nat) :
    (c.reviewIf t review).SeenIn t' n ↔ c.SeenIn t' n := by
  cases review with
  | none => exact Iff.rfl
  | some k =>
    by_cases ht : t' = t
    · subst ht
      simp only [SeenIn, reviewIf, review, withTarget, if_true]
      exact Iff.rfl
    · simp only [SeenIn, reviewIf, review, withTarget, if_neg ht]

lemma aliases_moveFrontier : (c.moveFrontier t k).aliases = c.aliases := by
  simp only [moveFrontier]
  split_ifs <;> rfl

lemma aliases_recordExact : (c.recordExact t ns).aliases = c.aliases := by
  simp only [recordExact]
  split_ifs <;> rfl

lemma aliases_reviewIf (review : Option Nat) : (c.reviewIf t review).aliases = c.aliases := by
  cases review <;> rfl

/-! ### New aliases -/

/-- The two names can be a spelling and its canonical target. -/
def Aliasing (spelling canonical : Target) : Prop :=
  spelling ≠ "" ∧ canonical ≠ "" ∧ spelling ≠ canonical

lemma addAlias_of_not_aliasing (h : ¬Aliasing spelling canonical) :
    c.addAlias spelling canonical = c := by
  rw [addAlias, if_pos]
  simp only [Aliasing, ne_eq, not_and_or, not_not] at h
  simpa [or_assoc] using h

/-- A new alias changes what its spelling resolves to, and what resolved to the same target does if
it was recorded through the spelling. -/
lemma resolve_addAlias (hdirect : Direct c.aliases) (h : Aliasing spelling canonical) (t : Target) :
    (c.addAlias spelling canonical).resolve t = c.resolve t ∨ c.resolve t = c.resolve spelling ∧
        (c.addAlias spelling canonical).resolve t = c.aliasTarget spelling canonical := by
  obtain ⟨hspelling, hcanonical, hne⟩ := h
  have hrefused : ¬(spelling = "" || canonical = "" || spelling = canonical) = true := by
    simp [hspelling, hcanonical, hne]
  -- a cut alias named the spelling, and its name is the target of the new one
  have hcut : c.cutAliases spelling canonical t = c.aliases t ∨
      t = canonical ∧ c.aliases canonical = some spelling := by
    rw [cutAliases]
    split_ifs with hnamed
    · by_cases ht : t = canonical
      · refine Or.inr ⟨ht, ?_⟩
        rcases halias : c.aliases canonical with _ | x
        · rw [halias] at hnamed
          exact absurd hnamed.symm hne
        · rw [halias] at hnamed
          exact congrArg some hnamed
      · exact Or.inl (if_neg ht)
    · exact Or.inl rfl
  rcases hcut with hcut | ⟨rfl, hnamed⟩
  · simp only [addAlias, if_neg hrefused, resolve]
    split_ifs with hsame
    · exact Or.inl (congrArg (·.getD t) hcut)
    · simp only [hcut]
      by_cases hmoved : (t = spelling || c.aliases t = some spelling) = true
      · rw [if_pos hmoved]
        refine Or.inr ⟨?_, rfl⟩
        rcases Bool.or_eq_true_iff.mp hmoved with ht | ht
        · rw [of_decide_eq_true ht]
        · have ht := of_decide_eq_true ht
          rw [ht, hdirect t spelling ht]
          rfl
      · rw [if_neg hmoved]
        exact Or.inl rfl
  · refine Or.inr ⟨?_, ?_⟩
    · rw [resolve, resolve, hnamed, hdirect t spelling hnamed]
      rfl
    · have hend := cutAliases_aliasTarget hdirect spelling t
      have htarget : c.aliasTarget spelling t = t := by
        simp [aliasTarget, hnamed]
      rw [htarget] at hend
      simp only [addAlias, if_neg hrefused, resolve]
      split_ifs
      · simp [hend, htarget]
      · simp [hend, htarget, hne.symm]

lemma resolve_spelling (h : Aliasing spelling canonical) :
    (c.addAlias spelling canonical).resolve spelling = c.aliasTarget spelling canonical := by
  obtain ⟨hspelling, hcanonical, hne⟩ := h
  have hrefused : ¬(spelling = "" || canonical = "" || spelling = canonical) = true := by
    simp [hspelling, hcanonical, hne]
  simp only [addAlias, if_neg hrefused, resolve]
  split_ifs with hsame
  · simp [hsame]
  · simp

/-- The new alias leads to a target that has seen what the spelling had, counting what is seen of it
in the same step. -/
def Covers (c : ConsumedSeqState) (spelling canonical : Target) (also : Nat → Prop) : Prop :=
  Aliasing spelling canonical → ∀ n, c.SeenIn (c.resolve spelling) n →
    c.SeenIn (c.aliasTarget spelling canonical) n ∨ also n

/-- Nothing is forgotten under any spelling exactly if the new alias covers what it hides. -/
lemma covers_iff (hdirect : Direct c.aliases) (also : Target → Nat → Prop) :
    (∀ t n, c.SeenIn (c.resolve t) n → c.SeenIn ((c.addAlias spelling canonical).resolve t) n ∨
        also ((c.addAlias spelling canonical).resolve t) n) ↔
      c.Covers spelling canonical (also (c.aliasTarget spelling canonical)) := by
  constructor
  · intro h haliasing n hn
    have hspelling := h spelling n hn
    rwa [resolve_spelling haliasing] at hspelling
  · intro h t n hn
    by_cases haliasing : Aliasing spelling canonical
    · rcases resolve_addAlias hdirect haliasing t with hsame | ⟨hold, hnew⟩
      · exact Or.inl (hsame ▸ hn)
      · rw [hnew]
        exact h haliasing n (hold ▸ hn)
    · rw [addAlias_of_not_aliasing haliasing]
      exact Or.inl hn

/-! ### The bookkeeping -/

def FitsShown : ConsumedSeqState → List (Target × List Nat) → Prop
  | _, []            => True
  | c, shown :: rest =>
    (shown.1 ≠ "" → c.FitsRecord shown.1 shown.2) ∧ FitsShown (c.recordShown shown) rest

/-- No target holds more exact sequences than the limit. -/
def Fits (c : ConsumedSeqState) : Bookkeeping → Prop
  | .recordExactSeen shown  => c.FitsShown shown
  | .recordHistoryRead read =>
    ((c.addAlias read.spelling read.target).moveFrontier read.target read.through).FitsRecord
      read.target read.shown
  | _                       => True

instance instDecidableFitsShown :
    ∀ (c : ConsumedSeqState) (shown : List (Target × List Nat)), Decidable (c.FitsShown shown)
  | _, []            => isTrue trivial
  | c, shown :: rest =>
    have : Decidable ((c.recordShown shown).FitsShown rest) :=
      instDecidableFitsShown (c.recordShown shown) rest
    inferInstanceAs (Decidable ((shown.1 ≠ "" → _ ≤ _) ∧ _))

instance (c : ConsumedSeqState) : ∀ b, Decidable (c.Fits b)
  | .recordExactSeen shown => inferInstanceAs (Decidable (c.FitsShown shown))
  | .recordHistoryRead _   => inferInstanceAs (Decidable (_ ≤ _))
  | .look | .recordModelSeen _ _ | .recordReadContext _ _ | .recordSendContext _ _ _
  | .recordTargetAlias _ _ | .clear _ | .clearThrough _ _ | .clearTargets _ | .disk _ => isTrue trivial

/-- A new alias covers what it hides. -/
def KeepsSeen (c : ConsumedSeqState) : Bookkeeping → Prop
  | .recordHistoryRead read =>
    c.Covers read.spelling read.target fun n =>
      c.aliasTarget read.spelling read.target = read.target ∧ (n ≤ read.through ∨ n ∈ read.shown)
  | .recordTargetAlias spelling canonical => c.Covers spelling canonical fun _ => False
  | _                                     => True

/-- What was seen under a spelling is seen under it still. -/
def Remembers (c c' : ConsumedSeqState) : Prop :=
  ∀ t n, c.SeenIn (c.resolve t) n → c'.SeenIn (c'.resolve t) n

lemma remembers_refl (c : ConsumedSeqState) : c.Remembers c := fun _ _ h => h

lemma remembers_of_more {c' : ConsumedSeqState} (haliases : c'.aliases = c.aliases)
    (hmore : ∀ t n, c.SeenIn t n → c'.SeenIn t n) : c.Remembers c' := by
  intro t n hn
  rw [resolve, haliases]
  exact hmore _ n hn

lemma remembers_foldl_recordShown (shown : List (Target × List Nat)) (hfits : c.FitsShown shown) :
    c.Remembers (shown.foldl recordShown c) := by
  induction shown generalizing c with
  | nil => exact remembers_refl c
  | cons target shown ih =>
    have hone : c.Remembers (c.recordShown target) := by
      simp only [recordShown]
      split_ifs with hempty
      · exact remembers_refl c
      · exact remembers_of_more aliases_recordExact fun t n hn =>
          (seenIn_recordExact (hfits.1 hempty)).mpr (Or.inl hn)
    exact fun t n hn => ih hfits.2 t n (hone t n hn)

/-- The bookkeeping remembers exactly if its new alias covers what it hides. -/
theorem remembers_consume_iff (hdirect : Direct c.aliases) {b : Bookkeeping} (hfits : c.Fits b) :
    c.Remembers (c.consume b) ↔ c.KeepsSeen b := by
  cases b with
  | recordModelSeen target k =>
    refine iff_of_true (remembers_of_more aliases_moveFrontier fun t n hn => ?_) trivial
    exact seenIn_moveFrontier.mpr (Or.inl hn)
  | recordReadContext target k =>
    exact iff_of_true (remembers_of_more rfl fun t n hn =>
      (seenIn_reviewIf (some k)).mpr hn) trivial
  | recordExactSeen shown => exact iff_of_true (remembers_foldl_recordShown shown hfits) trivial
  | recordHistoryRead read =>
    rw [KeepsSeen, ← covers_iff hdirect fun t n =>
      t = read.target ∧ (n ≤ read.through ∨ n ∈ read.shown)]
    have haliases : (c.consume (.recordHistoryRead read)).aliases =
        (c.addAlias read.spelling read.target).aliases := by
      rw [consume, aliases_reviewIf, aliases_recordExact, aliases_moveFrontier]
    have hseen (t : Target) (n : Nat) : (c.consume (.recordHistoryRead read)).SeenIn t n ↔
        c.SeenIn t n ∨ t = read.target ∧ (n ≤ read.through ∨ n ∈ read.shown) := by
      rw [consume, seenIn_reviewIf, seenIn_recordExact hfits, seenIn_moveFrontier,
        and_or_left, or_assoc]
      simp only [SeenIn, targets_addAlias]
    refine forall₃_congr fun t n _ => ?_
    rw [hseen, resolve, haliases]
    rfl
  | recordSendContext target through review =>
    refine iff_of_true ?_ trivial
    simp only [consume]
    split_ifs
    · exact remembers_refl c
    · refine remembers_of_more ?_ fun t n hn => ?_
      · rw [aliases_reviewIf, aliases_moveFrontier]
      · exact (seenIn_reviewIf review).mpr (seenIn_moveFrontier.mpr (Or.inl hn))
  | recordTargetAlias spelling canonical =>
    rw [KeepsSeen, ← covers_iff hdirect fun _ _ => False]
    refine forall₃_congr fun t n _ => ?_
    simp only [consume, SeenIn, targets_addAlias, or_false]
  | _ => exact iff_of_true (remembers_refl c) trivial

end ConsumedSeqState

/-! ### Every run -/

/-- Whether the Agent has seen a sequence under a spelling. -/
def SeenAs (w : World) (spelling : Target) (n : Nat) : Prop :=
  w.index.hasSeen (w.index.resolveTarget spelling) n = true

instance (w : World) (spelling : Target) (n : Nat) : Decidable (SeenAs w spelling n) :=
  inferInstanceAs (Decidable (_ = true))

/-- The step clears no Agent, and leaves no target with more exact sequences than the limit. -/
def Roomy (w : World) : Label → Prop
  | .bookkeeping b => w.index.snapshot.Fits b
  | .clearAgent    => False
  | _              => True

instance (w : World) : ∀ l, Decidable (Roomy w l)
  | .bookkeeping b => inferInstanceAs (Decidable (w.index.snapshot.Fits b))
  | .clearAgent    => isFalse id
  | .receive _ _ _ _ | .announce _ _ _ | .flush _ _ _ | .recover _ _ _ | .answer _ _ | .forget _
  | .resume _ | .answerRecovery _ _ => isTrue trivial

/-- A new alias of the step leads to a target that has seen what the spelling had. -/
def KeepsSeen (w : World) : Label → Prop
  | .bookkeeping b => w.index.snapshot.KeepsSeen b
  | _              => True

lemma seenAs_iff {w : World} {t : Target} {n : Nat} :
    SeenAs w t n ↔ w.index.snapshot.SeenIn (w.index.snapshot.resolve t) n := by
  rw [SeenAs, Index.hasSeen_iff_snapshot, Index.resolveTarget_eq]
  rfl

lemma remembers_step_iff {w : World} {l : Label} (h : Holds ConsumedSeqState.Sound w.index)
    (hroomy : Roomy w l) : (∀ w', step w l = some w' → ∀ t n, SeenAs w t n → SeenAs w' t n) ↔
      (step w l).isSome → KeepsSeen w l := by
  have hiff (w' : World) (hstep : step w l = some w') :
      (∀ t n, SeenAs w t n → SeenAs w' t n) ↔ KeepsSeen w l := by
    have hremembers : (∀ t n, SeenAs w t n → SeenAs w' t n) ↔
        w.index.snapshot.Remembers (w.consume w.index.snapshot l) := by
      rw [← (World.consumes_step hstep).snapshot]
      exact forall₂_congr fun t n => imp_congr seenAs_iff seenAs_iff
    rw [hremembers]
    cases l with
    | bookkeeping b => exact remembers_consume_iff h.snapshot.direct hroomy
    | clearAgent => exact hroomy.elim
    | _ => exact iff_of_true (remembers_refl _) trivial
  constructor
  · intro hall hsome
    obtain ⟨w', hw'⟩ := Option.isSome_iff_exists.mp hsome
    exact (hiff w' hw').mp (hall w' hw')
  · intro hkeeps w' hw'
    exact (hiff w' hw').mpr (hkeeps (Option.isSome_iff_exists.mpr ⟨w', hw'⟩))

/-- What was seen under a spelling at any point of the run is seen under it at any later point. -/
def Remembered (w : World) (ls : List Label) : Prop :=
  ∀ as bs cs v v', ls = as ++ bs ++ cs → run step w as = some v → run step v bs = some v' →
    ∀ t n, SeenAs v t n → SeenAs v' t n

/-- A daemon that runs without clearing the Agent, and never holds more exact sequences of a target
than the limit, remembers under every spelling what was seen under it exactly if each new alias
leads to a target that has seen it too. -/
theorem remembered_iff_keepsSeen (ws : String) (store : Option (Option Json)) (ls : List Label)
    (hroomy : Permitted step Roomy (openWorld ws store) ls) : Remembered (openWorld ws store) ls ↔
      Permitted step (fun w l => (step w l).isSome → KeepsSeen w l) (openWorld ws store) ls := by
  rw [← @permitted_iff_within _ _ _ _ (fun w l => ∀ w', step w l = some w' →
    ∀ t n, SeenAs w t n → SeenAs w' t n) _ (fun w => Holds ConsumedSeqState.Sound w.index)
    (fun w l w' h hstep => h.step lasting_sound (by cases l <;> trivial) hstep)
    (fun w l h hl => remembers_step_iff h hl) _ _ (holds_openWorld ws store) hroomy]
  exact (@permitted_iff_relation _ _ _ (fun w w' => ∀ t n, SeenAs w t n → SeenAs w' t n)
    (fun _ _ _ h => h) (fun _ _ _ h h' t n hn => h' t n (h t n hn)) _ _).symm

/-- A held send to `@Bob` showed its context up to 7. -/
def presentedHold : Label := .bookkeeping (.recordSendContext "@Bob" 7 (some 7))

/-- A read around one message, whose answer names the canonical target. -/
def readAround : Label := .bookkeeping (.recordHistoryRead ⟨"@Bob", "@bob", [3], 0, none, none⟩)

/-- The hold itself forgets nothing. -/
theorem remembered_when_held : Remembered (openWorld "w" (some none)) [presentedHold] :=
  (remembered_iff_keepsSeen "w" (some none) [presentedHold] (by decide +kernel)).mpr
    ⟨fun _ => trivial, fun _ _ => trivial⟩

/-- The read around forgets under `@Bob` what the hold showed there. -/
theorem forgets_when_aliased : ¬ ∀ (ws : String) (store : Option (Option Json)) (ls : List Label),
      Permitted step Roomy (openWorld ws store) ls → Remembered (openWorld ws store) ls := by
  intro h
  have hforgets := h "w" (some none) [presentedHold, readAround] (by decide +kernel)
    [presentedHold] [readAround] [] _ _ rfl rfl rfl "@Bob" 7 (by decide +kernel)
  revert hforgets
  decide +kernel

end Coforge.Attention
