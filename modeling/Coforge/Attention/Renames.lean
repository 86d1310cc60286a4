import Coforge.Attention.Aliases

/-!
# Renaming a target

A spelling becomes an alias of a canonical target when the server says that both name one
conversation. The map of aliases stays one step deep through any order of such renames: what a
spelling resolved to before, and everything else that led there, moves to the new target, and a
rename that reverses an older one undoes it.

Only one spelling can leave the ones it resolved alike with: one that was an alias of another
target before it is renamed again.
-/

namespace Coforge.Attention

open Transition

namespace ConsumedSeqState

variable {c : ConsumedSeqState} {spelling canonical t : Target}

lemma cutAliases_eq (h : t ≠ canonical ∨ c.resolve t ≠ spelling) :
    c.cutAliases spelling canonical t = c.aliases t := by
  rw [cutAliases]
  split_ifs with hcut
  · refine if_neg ?_
    rintro rfl
    exact h.elim (fun hne => hne rfl) fun hled => hled hcut
  · rfl

lemma resolve_addAlias_eq (hdirect : Direct c.aliases) (h : Aliasing spelling canonical)
    (t : Target) : (c.addAlias spelling canonical).resolve t =
      if t = spelling ∨ c.resolve t = spelling then c.aliasTarget spelling canonical
      else c.resolve t := by
  by_cases ht : t = spelling
  · rw [if_pos (Or.inl ht), ht, resolve_spelling h]
  have hne : spelling ≠ canonical := h.2.2
  have hrefused : ¬(spelling = "" || canonical = "" || spelling = canonical) = true := by
    simp [h.1, h.2.1, hne]
  by_cases hled : c.resolve t = spelling
  · have halias : c.aliases t = some spelling := by
      rcases hnone : c.aliases t with _ | x
      · rw [resolve, hnone] at hled
        exact absurd hled ht
      · rw [resolve, hnone] at hled
        exact congrArg some hled
    -- the spelling is no alias itself, so the new one is entered
    have hroot : c.cutAliases spelling canonical spelling = none :=
      (cutAliases_eq (Or.inl hne)).trans (hdirect t spelling halias)
    rw [if_pos (Or.inr hled)]
    simp only [addAlias, if_neg hrefused, hroot, resolve]
    rw [if_neg (by simp)]
    by_cases hcut : t = canonical
    · subst hcut
      have hcut : c.cutAliases spelling t t = none := by
        rw [cutAliases, if_pos (by rw [halias]; rfl), if_pos rfl]
      simp [hcut, ht, aliasTarget, halias]
    · simp [cutAliases_eq (Or.inl hcut), halias]
  · rw [if_neg (not_or.mpr ⟨ht, hled⟩)]
    have hkept : c.cutAliases spelling canonical t = c.aliases t := cutAliases_eq (Or.inr hled)
    have hstays : c.aliases t ≠ some spelling := by
      intro halias
      exact hled (by rw [resolve, halias]; rfl)
    simp only [addAlias, if_neg hrefused, resolve]
    split_ifs
    · simp [hkept]
    · simp [hkept, ht, hstays]

lemma resolve_canonical (hdirect : Direct c.aliases) (h : Aliasing spelling canonical) :
    (c.addAlias spelling canonical).resolve canonical = c.aliasTarget spelling canonical := by
  rw [resolve_addAlias_eq hdirect h]
  split_ifs with hled
  · rfl
  · exact (if_neg fun hcut => hled (Or.inr hcut)).symm

lemma resolve_resolve (hdirect : Direct c.aliases) (t : Target) :
    c.resolve (c.resolve t) = c.resolve t := by
  rcases halias : c.aliases t with _ | x
  · have ht : c.resolve t = t := by rw [resolve, halias]; rfl
    rw [ht, ht]
  · have ht : c.resolve t = x := by rw [resolve, halias]; rfl
    rw [ht, resolve, hdirect t x halias]
    rfl

end ConsumedSeqState

/-! ### What a rename does -/

/-- What spellings resolve to before and after a rename. -/
structure Renamed (spelling canonical : Target) (before after : Target → Target) : Prop where
  /-- The two names resolve to one target. -/
  together : after spelling = after canonical
  /-- What resolved alike still does. Only a spelling that was an alias of another target leaves the
  ones it resolved alike with. -/
  alike : ∀ t t', before t = before t' →
    before spelling = spelling ∨ t ≠ spelling ∧ t' ≠ spelling → after t = after t'
  /-- A rename that reverses an older one wins. -/
  newer : before canonical = spelling → after spelling = canonical ∧ after canonical = canonical

lemma ConsumedSeqState.renamed_addAlias {c : ConsumedSeqState} (hdirect : Direct c.aliases)
    {spelling canonical : Target} (hspelling : spelling ≠ "") (hcanonical : canonical ≠ "") :
    Renamed spelling canonical c.resolve (c.addAlias spelling canonical).resolve := by
  by_cases hsame : spelling = canonical
  · rw [addAlias_of_not_aliasing fun h => h.2.2 hsame]
    subst hsame
    exact ⟨rfl, fun _ _ halike _ => halike, fun h => ⟨h, h⟩⟩
  · have haliasing : Aliasing spelling canonical := ⟨hspelling, hcanonical, hsame⟩
    refine ⟨?_, fun t t' halike hleaves => ?_, fun hreverses => ?_⟩
    · rw [resolve_spelling haliasing, resolve_canonical hdirect haliasing]
    · rw [resolve_addAlias_eq hdirect haliasing, resolve_addAlias_eq hdirect haliasing, halike]
      rcases hleaves with hroot | ⟨ht, ht'⟩
      · -- the spelling was canonical, so what resolves as it does leads to it
        refine ite_congr (propext ?_) (fun _ => rfl) fun _ => rfl
        constructor
        · rintro (rfl | hled)
          · exact Or.inr (halike.symm.trans hroot)
          · exact Or.inr hled
        · rintro (rfl | hled)
          · exact Or.inr hroot
          · exact Or.inr hled
      · simp [ht, ht']
    · have htarget : c.aliasTarget spelling canonical = canonical := if_pos hreverses
      rw [resolve_spelling haliasing, resolve_canonical hdirect haliasing, htarget]
      exact ⟨rfl, rfl⟩

/-! ### Every run -/

lemma Index.resolveTarget_recordTargetAlias (s : Index) (spelling canonical : Target) :
    (s.recordTargetAlias spelling canonical).resolveTarget =
      (s.snapshot.addAlias spelling canonical).resolve := by
  funext t
  rw [Index.resolveTarget_eq]
  exact congrArg (fun c : ConsumedSeqState => c.resolve t)
    (Index.consumes_apply (.recordTargetAlias spelling canonical) s).snapshot

/-- Whatever was renamed before, no alias names a spelling that is an alias, and a rename of two
names brings both together. -/
theorem aliases_renamed (ws : String) (store : Option (Option Json)) (ls : List Label) (w : World)
    (hrun : run step (openWorld ws store) ls = some w) : Direct w.index.hydrate.aliases ∧
      (∀ t, w.index.resolveTarget (w.index.resolveTarget t) = w.index.resolveTarget t) ∧
        ∀ spelling canonical, spelling ≠ "" → canonical ≠ "" →
          Renamed spelling canonical w.index.resolveTarget
            (w.index.recordTargetAlias spelling canonical).resolveTarget := by
  have hsound : Holds ConsumedSeqState.Sound w.index := by
    refine holds_run lasting_sound (fun c hc => ?_)
      (permitted_of_mem (fun l _ => by cases l <;> trivial) _) hrun
    obtain ⟨file, -, rfl⟩ := Option.map_eq_some_iff.mp hc
    exact sound_readState file
  have hdirect : Direct w.index.snapshot.aliases := hsound.snapshot.direct
  refine ⟨hdirect, fun t => ConsumedSeqState.resolve_resolve hdirect t, ?_⟩
  intro spelling canonical hspelling hcanonical
  rw [Index.resolveTarget_recordTargetAlias]
  exact ConsumedSeqState.renamed_addAlias hdirect hspelling hcanonical

/-- `#old` was renamed to `#general`, and then to `#news`. -/
def renamedOnce : List Label := [.bookkeeping (.recordTargetAlias "#old" "#general")]

theorem aliases_renamed_again : ∃ w, run step (openWorld "w" none) renamedOnce = some w ∧
    Renamed "#old" "#news" w.index.resolveTarget
      (w.index.recordTargetAlias "#old" "#news").resolveTarget := by
  obtain ⟨w, hw⟩ := Option.isSome_iff_exists.mp
    (show (run step (openWorld "w" none) renamedOnce).isSome = true from rfl)
  exact ⟨w, hw, (aliases_renamed "w" none renamedOnce w hw).2.2 "#old" "#news" (by decide)
    (by decide)⟩

/-- An empty name is never an alias, and the second rename parts `#old` from `#general`. -/
theorem aliases_part :
    ¬ (∀ (ws : String) (store : Option (Option Json)) (ls : List Label) (w : World),
      run step (openWorld ws store) ls = some w → ∀ spelling canonical,
        (w.index.recordTargetAlias spelling canonical).resolveTarget spelling =
          (w.index.recordTargetAlias spelling canonical).resolveTarget canonical) ∧
    ¬ ∀ (ws : String) (store : Option (Option Json)) (ls : List Label) (w : World),
      run step (openWorld ws store) ls = some w → ∀ spelling canonical t t',
        w.index.resolveTarget t = w.index.resolveTarget t' →
          (w.index.recordTargetAlias spelling canonical).resolveTarget t =
            (w.index.recordTargetAlias spelling canonical).resolveTarget t' := by
  constructor
  · intro h
    have htogether := h "w" none [] _ rfl "" "#news"
    revert htogether
    decide
  · intro h
    have halike := h "w" none renamedOnce _ rfl "#old" "#news" "#old" "#general" (by decide)
    revert halike
    decide

end Coforge.Attention
