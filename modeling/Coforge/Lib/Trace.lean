import Mathlib

/-!
# Traces

A trace lists what happened in a run, the newest event first: the past of an event is what stands
behind it. `Each` says that every event met a condition on its past, and `Since` that nothing
closed what the trace opened last. Both are read off a trace event by event, and both are stated
over any two events of the trace as well.
-/

namespace Trace

variable {α : Type*} {P Q : List α → α → Prop} {opens closes : α → Prop} {x : α} {trace : List α}

/-! ### Each event and its past -/

/-- Every event of the trace met `P` with its past. -/
def Each (P : List α → α → Prop) : List α → Prop
  | []        => True
  | x :: past => P past x ∧ Each P past

@[simp] lemma each_nil : Each P [] := trivial

@[simp] lemma each_cons : Each P (x :: trace) ↔ P trace x ∧ Each P trace := Iff.rfl

/-- The past of an event is the rest of the trace behind it. -/
theorem each_iff : Each P trace ↔ ∀ later x past, trace = later ++ x :: past → P past x := by
  induction trace with
  | nil => simp
  | cons y trace ih =>
    rw [each_cons, ih]
    constructor
    · rintro ⟨hy, hrest⟩ later x past heq
      rcases List.cons_eq_append_iff.mp heq with ⟨-, heq⟩ | ⟨later', rfl, heq⟩
      · cases heq
        exact hy
      · exact hrest later' x past (List.cons.inj heq).2
    · intro h
      refine ⟨h [] y trace rfl, fun later x past heq => h (y :: later) x past ?_⟩
      rw [heq]
      rfl

lemma Each.mono (hle : ∀ past x, P past x → Q past x) (h : Each P trace) : Each Q trace := by
  induction trace with
  | nil => trivial
  | cons x trace ih => exact ⟨hle _ _ h.1, ih h.2⟩

lemma Each.of_mem (h : Each P trace) (hx : x ∈ trace) : ∃ past, x :: past <:+ trace ∧ P past x := by
  obtain ⟨later, past, rfl⟩ := List.append_of_mem hx
  exact ⟨past, List.suffix_append _ _, each_iff.mp h later x past rfl⟩

lemma Each.right {later past : List α} (h : Each P (later ++ past)) : Each P past := by
  induction later with
  | nil => exact h
  | cons y later ih => exact ih h.2

/-- Events that meet the condition whatever went before. -/
lemma Each.append {news : List α} (hnews : ∀ x ∈ news, ∀ past, P past x) (h : Each P trace) :
    Each P (news ++ trace) := by
  induction news with
  | nil => exact h
  | cons x news ih =>
    exact ⟨hnews x List.mem_cons_self _, ih fun y hy => hnews y (List.mem_cons_of_mem x hy)⟩

/-- What each new event keeps, a longer trace keeps. -/
lemma of_suffix {S : List α → Prop} (hcons : ∀ x past, S past → S (x :: past))
    {past trace : List α} (hle : past <:+ trace) (h : S past) : S trace := by
  obtain ⟨news, rfl⟩ := hle
  induction news with
  | nil => exact h
  | cons x news ih => exact hcons x _ ih

/-! ### What is open -/

/-- Between the end of the trace and the last event that closes there is one that opens. -/
def Since (opens closes : α → Prop) (trace : List α) : Prop :=
  ∀ between y past, trace = between ++ y :: past → closes y → ∃ z ∈ between, opens z

lemma since_cons :
    Since opens closes (x :: trace) ↔ ¬ closes x ∧ (opens x ∨ Since opens closes trace) := by
  constructor
  · intro h
    refine ⟨fun hx => ?_, ?_⟩
    · obtain ⟨z, hz, -⟩ := h [] x trace rfl hx
      exact absurd hz List.not_mem_nil
    · by_cases hopens : opens x
      · exact .inl hopens
      · refine .inr fun between y past heq hy => ?_
        obtain ⟨z, hz, hopen⟩ := h (x :: between) y past (by rw [heq]; rfl) hy
        rcases List.mem_cons.mp hz with rfl | hz
        · exact absurd hopen hopens
        · exact ⟨z, hz, hopen⟩
  · rintro ⟨hx, h⟩ between y past heq hy
    rcases List.cons_eq_append_iff.mp heq with ⟨-, heq⟩ | ⟨between', rfl, heq⟩
    · cases heq
      exact absurd hy hx
    · rcases h with hopen | hrest
      · exact ⟨x, List.mem_cons_self, hopen⟩
      · obtain ⟨z, hz, hopen⟩ := hrest between' y past (List.cons.inj heq).2 hy
        exact ⟨z, List.mem_cons_of_mem x hz, hopen⟩

/-- An event that neither opens nor closes changes nothing. -/
lemma Since.cons (h : Since opens closes trace) (hx : ¬ closes x) :
    Since opens closes (x :: trace) :=
  since_cons.mpr ⟨hx, .inr h⟩

/-- If only what is open is closed, then between any two events that close there is one that
opens. -/
theorem exists_open_between (h : Each (fun past x => closes x → Since opens closes past) trace)
    {later between past : List α} {x y : α} (heq : trace = later ++ x :: (between ++ y :: past))
    (hx : closes x) (hy : closes y) : ∃ z ∈ between, opens z :=
  each_iff.mp h later x _ heq hx between y past rfl hy

end Trace
