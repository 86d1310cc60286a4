import Coforge.Idempotency.Redis

/-!
# One idempotency key, one persisted message

The claim is what keeps a second call away from persistence, so a key stays safe as long as
some value is stored under it once a message exists. The catch path of `execute` gives the
claim up whatever it is that failed. When it was the completion write, and the write had not
taken effect, the key is free again although its message is persisted.

`ClaimKept` is the condition that no call releases its claim in that situation, and under it a
key never sees two messages.
-/

namespace Coforge.Idempotency

open Transition Option

/-- No release takes effect for a call whose message is persisted but whose claim is still in
place, because its completion write was lost. -/
def ClaimKept (s : State) : Label → Prop
  | .release owner outcome =>
    ∀ m, s.calls owner = some (.releasing (some m)) →
      s.stored = some (.processing owner) → outcome = .failedBefore
  | _ => True

/-- What a call's phase says about the key and the persisted messages. -/
def PhaseInv (s : State) (owner : String) : Phase → Prop
  | .claiming          => s.stored ≠ some (.processing owner)
  | .persisting        => s.stored = some (.processing owner) ∧ s.persisted = []
  | .completing m      => s.stored = some (.processing owner) ∧ s.persisted = [m]
  | .releasing none    => s.stored = some (.processing owner) ∧ s.persisted = []
  | .releasing (some m) =>
    s.persisted = [m] ∧
      (s.stored = some (.processing owner) ∨ s.stored = some (completedRecord m))
  | .returned m        => s.persisted = [m]
  | .finding           => True
  | .threw             => True

/-- The key is free only while nothing is persisted, a completed record is that of the one
persisted message, and the claim belongs to a call. -/
structure Inv (s : State) : Prop where
  free : s.stored = none → s.persisted = []
  completed : ∀ r, s.stored = some (.completed r) →
    ∃ m, s.persisted = [m] ∧ StoredValue.completed r = completedRecord m
  claimed : ∀ owner, s.stored = some (.processing owner) → s.calls owner ≠ none
  single : s.persisted.length ≤ 1
  phase : ∀ owner p, s.calls owner = some p → PhaseInv s owner p

lemma inv_init : Inv .init where
  free _ := rfl
  completed := by simp [State.init]
  claimed := by simp [State.init]
  single := by simp [State.init]
  phase := by simp [State.init]

@[simp] lemma State.move_stored (s : State) (owner : String) (p : Phase) :
    (s.move owner p).stored = s.stored := rfl

@[simp] lemma State.move_persisted (s : State) (owner : String) (p : Phase) :
    (s.move owner p).persisted = s.persisted := rfl

@[simp] lemma State.move_calls_self (s : State) (owner : String) (p : Phase) :
    (s.move owner p).calls owner = some p := by simp [State.move]

variable {s : State} {owner : String} {p : Phase}

lemma State.move_calls_of_ne {other : String}
    (h : other ≠ owner) : (s.move owner p).calls other = s.calls other := by
  simp [State.move, h]

variable {t : State}

/-- `PhaseInv` reads the key and the persisted messages only. -/
lemma phaseInv_congr (hst : t.stored = s.stored) (hp : t.persisted = s.persisted)
    (owner : String) (p : Phase) : PhaseInv t owner p ↔ PhaseInv s owner p := by
  cases p with
  | releasing m => cases m <;> simp [PhaseInv, hst, hp]
  | _ => simp [PhaseInv, hst, hp]

lemma Inv.move (h : Inv s) (hp : PhaseInv s owner p) : Inv (s.move owner p) where
  free := h.free
  completed := h.completed
  claimed o ho := by
    by_cases hoo : o = owner
    · simp [hoo]
    · rw [State.move_calls_of_ne hoo]
      exact h.claimed o ho
  single := h.single
  phase o q hq := by
    rw [phaseInv_congr (s.move_stored owner p) (s.move_persisted owner p)]
    by_cases hoo : o = owner
    · subst hoo
      simp only [State.move_calls_self, some.injEq] at hq
      exact hq ▸ hp
    · rw [State.move_calls_of_ne hoo] at hq
      exact h.phase o q hq

/-! ### One lemma per command -/

lemma owner_unique {o o' : String} (h : s.stored = some (.processing o))
    (h' : s.stored = some (.processing o')) : o = o' := by
  rw [h] at h'
  simpa using h'

/-- What remains of a phase once one call has moved: its own new phase, and those of the
others. -/
lemma phase_update
    (hcalls : t.calls = Function.update s.calls owner (some p)) (hp : PhaseInv t owner p)
    (hothers : ∀ o q, o ≠ owner → s.calls o = some q → PhaseInv t o q) :
    ∀ o q, t.calls o = some q → PhaseInv t o q := by
  intro o q hq
  rw [hcalls] at hq
  by_cases hoo : o = owner
  · subst hoo
    simp only [Function.update_self, some.injEq] at hq
    exact hq ▸ hp
  · exact hothers o q hoo (by simpa [hoo] using hq)

/-- A call that holds no claim does not notice what happens to the key, as long as it is not
given the claim and no result is in place yet. -/
lemma phaseInv_store (h : Inv s) {o : String} {q : Phase} (hq : s.calls o = some q)
    (hopen : ∀ r, s.stored ≠ some (.completed r)) (ho : s.stored ≠ some (.processing o))
    {v : Option StoredValue} (hv : v ≠ some (.processing o)) :
    PhaseInv { s with stored := v } o q := by
  have hold := h.phase o q hq
  cases q with
  | claiming => exact hv
  | persisting => exact absurd hold.1 ho
  | completing m => exact absurd hold.1 ho
  | releasing m =>
    cases m with
    | none => exact absurd hold.1 ho
    | some m =>
      rcases hold.2 with hclaim | hdone
      · exact absurd hclaim ho
      · exact absurd hdone (hopen _)
  | returned m => exact hold
  | finding => trivial
  | threw => trivial

lemma inv_take (h : Inv s) (hfree : s.stored = none)
    (hp : PhaseInv { s with stored := some (.processing owner) } owner p) :
    Inv ({ s with stored := some (.processing owner) }.move owner p) where
  free := by simp
  completed := by simp
  claimed o ho := by
    have : owner = o := by simpa using ho
    simp [← this]
  single := h.single
  phase := by
    refine @phase_update s owner p _ rfl ?_ fun o q hoo hq => ?_
    · exact (phaseInv_congr rfl rfl owner p).mpr hp
    · refine (phaseInv_congr rfl rfl o q).mpr (phaseInv_store h hq (by simp [hfree])
        (by simp [hfree]) ?_)
      simpa using fun he => hoo he.symm

lemma inv_claim (h : Inv s) (outcome : Outcome) : Inv (claim s owner outcome) := by
  cases outcome with
  | ok =>
    cases hs : s.stored with
    | some v => simpa [claim, hs] using h.move (p := .finding) trivial
    | none => simpa [claim, hs] using inv_take h hs (p := .persisting) ⟨rfl, h.free hs⟩
  | failedBefore => exact h.move (p := .threw) trivial
  | failedAfter =>
    cases hs : s.stored with
    | some v =>
      have heq : claim s owner .failedAfter = s.move owner .threw := by
        obtain ⟨stored, calls, persisted⟩ := s
        simp_all [claim]
      exact heq ▸ h.move (p := .threw) trivial
    | none => simpa [claim, hs] using inv_take h hs (p := .threw) trivial

lemma inv_find (h : Inv s) (outcome : Outcome) : Inv (find s owner outcome) := by
  cases outcome with
  | ok =>
    simp only [find]
    split
    · next m hm =>
      refine h.move (p := .returned m) ?_
      cases hs : s.stored with
      | none => simp [hs] at hm
      | some v =>
        cases v with
        | processing o => simp [hs, StoredValue.record] at hm
        | completed r =>
          obtain ⟨m', hp, hr⟩ := h.completed r hs
          simp only [hs, hr, map_some, record_completedRecord, some.injEq,
            MessageRequestRecord.completed.injEq] at hm
          simpa [PhaseInv, hm] using hp
    · exact h.move (p := .threw) trivial
  | failedBefore => exact h.move (p := .threw) trivial
  | failedAfter => exact h.move (p := .threw) trivial

lemma inv_persist (h : Inv s)
    (hc : s.calls owner = some .persisting) (result : Option PersistedDirectMessage) :
    Inv (persist s owner result) := by
  obtain ⟨hst, hnil⟩ := h.phase owner _ hc
  cases result with
  | none => exact h.move (p := .releasing none) ⟨hst, hnil⟩
  | some m =>
    refine ⟨by simp [persist, hst], by simp [persist, hst], ?_, by simp [persist, hnil], ?_⟩
    · intro o ho
      have : owner = o := by simpa [persist, hst] using ho
      simp [persist, ← this]
    · refine @phase_update s owner (.completing m) _ rfl
        ⟨hst, by simp [persist, hnil]⟩ fun o q hoo hq => ?_
      have hold := h.phase o q hq
      -- no other call relies on the claim, and none has seen a message
      cases q with
      | claiming => exact hold
      | persisting => exact absurd (owner_unique hold.1 hst) hoo
      | completing m' => simp [PhaseInv, hnil] at hold
      | releasing m' =>
        cases m' with
        | none => exact absurd (owner_unique hold.1 hst) hoo
        | some m' => simp [PhaseInv, hnil] at hold
      | returned m' => simp [PhaseInv, hnil] at hold
      | finding => trivial
      | threw => trivial

lemma inv_write {m : PersistedDirectMessage}
    (h : Inv s) (hst : s.stored = some (.processing owner)) (hm : s.persisted = [m])
    (hp : PhaseInv { s with stored := some (completedRecord m) } owner p) :
    Inv ({ s with stored := some (completedRecord m) }.move owner p) where
  free := by simp
  completed r hr := ⟨m, hm, by simpa using hr.symm⟩
  claimed := by simp [completedRecord]
  single := h.single
  phase := by
    refine @phase_update s owner p _ rfl ?_ fun o q hoo hq => ?_
    · exact (phaseInv_congr rfl rfl owner p).mpr hp
    · refine (phaseInv_congr rfl rfl o q).mpr (phaseInv_store h hq (by simp [hst]) ?_ ?_)
      · simpa [hst] using fun he => hoo he.symm
      · simp [completedRecord]

lemma inv_complete {m : PersistedDirectMessage} (h : Inv s)
    (hc : s.calls owner = some (.completing m)) (outcome : Outcome) :
    Inv (complete s owner m outcome) := by
  obtain ⟨hst, hm⟩ := h.phase owner _ hc
  cases outcome with
  | ok => exact inv_write h hst hm (p := .returned m) hm
  | failedBefore => exact h.move (p := .releasing (some m)) ⟨hm, .inl hst⟩
  | failedAfter => exact inv_write h hst hm (p := .releasing (some m)) ⟨hm, .inr rfl⟩

/-- The claim of a call whose persist callback threw is given up with nothing persisted. -/
lemma inv_release {r : Option PersistedDirectMessage}
    {outcome : Outcome} (h : Inv s) (hc : s.calls owner = some (.releasing r))
    (hok : ClaimKept s (.release owner outcome)) : Inv (release s owner outcome) := by
  by_cases hfree : outcome.effective ∧ s.stored = some (.processing owner)
  · have hnil : s.persisted = [] := by
      cases r with
      | none => exact (h.phase owner _ hc).2
      | some m =>
        have hlost := hok m hc hfree.2
        simp [hlost, Outcome.effective] at hfree
    have heq : release s owner outcome = { s with stored := none }.move owner .threw := by
      simp [release, hfree]
    rw [heq]
    refine ⟨fun _ => hnil, by simp, by simp, h.single, ?_⟩
    refine @phase_update s owner .threw _ rfl trivial fun o q hoo hq => ?_
    refine (phaseInv_congr rfl rfl o q).mpr (phaseInv_store h hq (by simp [hfree.2]) ?_ (by simp))
    simpa [hfree.2] using fun he => hoo he.symm
  · have heq : release s owner outcome = s.move owner .threw := by
      simp [release, hfree]
    exact heq ▸ h.move (p := .threw) trivial

lemma inv_step {l : Label} (h : Inv s) (hok : ClaimKept s l)
    (hstep : step s l = some t) : Inv t := by
  cases l with
  | execute owner =>
    simp only [step, ite_none_right_eq_some, some.injEq] at hstep
    obtain ⟨hnew, rfl⟩ := hstep
    refine h.move fun hst => ?_
    exact h.claimed owner hst hnew
  | claim owner outcome =>
    simp only [step, ite_none_right_eq_some, some.injEq] at hstep
    obtain ⟨-, rfl⟩ := hstep
    exact inv_claim h outcome
  | find owner outcome =>
    simp only [step, ite_none_right_eq_some, some.injEq] at hstep
    obtain ⟨-, rfl⟩ := hstep
    exact inv_find h outcome
  | persist owner result =>
    simp only [step, ite_none_right_eq_some, some.injEq] at hstep
    obtain ⟨hc, rfl⟩ := hstep
    exact inv_persist h hc result
  | complete owner outcome =>
    simp only [step] at hstep
    split at hstep
    · next m hc =>
      cases hstep
      exact inv_complete h hc outcome
    · cases hstep
  | release owner outcome =>
    simp only [step] at hstep
    split at hstep
    · next r hc =>
      cases hstep
      exact inv_release h hc hok
    · cases hstep
  | refresh owner outcome =>
    simp only [step] at hstep
    split at hstep <;> cases hstep <;> exact h

/-! ### The main result -/

/-- While no call gives up its claim over a lost completion write, a key sees at most one
successful persist, and every call that returns a value returns the persisted message. -/
theorem persists_at_most_once {ls : List Label} {s : State}
    (hok : Permitted step ClaimKept .init ls) (hrun : run step .init ls = some s) :
    s.persisted.length ≤ 1 ∧ ∀ owner m, s.calls owner = some (.returned m) → s.persisted = [m] := by
  have h : Inv s := invariant (fun _ _ _ => inv_step) inv_init hok hrun
  exact ⟨h.single, fun owner m hm => h.phase owner _ hm⟩

/-- A message with the given id, as a persist callback returns it. -/
def sampleMessage (id : String) : PersistedDirectMessage where
  id := id
  body := "hello"
  createdAt := ⟨0⟩
  sequence := 1
  threadRootId := none
  attachments := []
  deliveryId := none
  workspaceId := "workspace"
  agentId := none
  target := none
  latestSenderKind := none
  latestSenderHandle := none
  latestSenderDescription := none

/-- Two calls of one key, the first completing although its write reports an error, the second
answered from the record. -/
def answeredRun : List Label :=
  [.execute "a", .claim "a" .ok, .execute "b", .persist "a" (some (sampleMessage "m1")),
    .complete "a" .failedAfter, .release "a" .ok, .claim "b" .ok, .find "b" .ok]

theorem persists_at_most_once_answered :
    ∃ s, run step .init answeredRun = some s ∧ s.persisted.length ≤ 1 ∧
      ∀ owner m, s.calls owner = some (.returned m) → s.persisted = [m] := by
  refine ⟨_, rfl, @persists_at_most_once answeredRun _ ?_ rfl⟩
  simp [answeredRun, Permitted, ClaimKept, step, claim, persist, complete, State.init,
    Outcome.effective, completedRecord]

/-- The completion write of the first call is lost, its release takes effect, and the second
call finds the key free. -/
def lostCompletionRun : List Label :=
  [.execute "a", .claim "a" .ok, .persist "a" (some (sampleMessage "m1")),
    .complete "a" .failedBefore, .release "a" .ok,
    .execute "b", .claim "b" .ok, .persist "b" (some (sampleMessage "m2"))]

theorem lost_completion_persists_twice :
    ¬ ∀ ls s, run step .init ls = some s → s.persisted.length ≤ 1 ∧
      ∀ owner m, s.calls owner = some (.returned m) → s.persisted = [m] := by
  intro h
  have hlen := (h lostCompletionRun _ rfl).1
  exact absurd hlen (by decide)

/-! ### While every command succeeds -/

/-- The command of the step, if it is one, succeeds. -/
def Succeeds : Label → Prop
  | .claim _ outcome | .find _ outcome | .complete _ outcome | .release _ outcome
  | .refresh _ outcome => outcome = .ok
  | .execute _ | .persist _ _ => True

/-- The message the step persists. -/
def Label.persists : Label → List PersistedDirectMessage
  | .persist _ result => result.toList
  | _                 => []

/-- No completion write has failed. -/
def Unfailed (s : State) : Prop := ∀ owner m, s.calls owner ≠ some (.releasing (some m))

lemma Unfailed.claimKept (h : Unfailed s) (l : Label) : ClaimKept s l := by
  cases l with
  | release owner outcome => exact fun m hm _ => absurd hm (h owner m)
  | _ => trivial

lemma Unfailed.move (h : Unfailed s)
    (hp : ∀ m, p ≠ .releasing (some m)) : Unfailed (s.move owner p) := by
  intro o m hm
  by_cases hoo : o = owner
  · subst hoo
    rw [State.move_calls_self] at hm
    exact hp m (some.inj hm)
  · rw [State.move_calls_of_ne hoo] at hm
    exact h o m hm

/-- What a step that succeeds does: it leaves no failed write behind, and only the persist
callback adds to the persisted messages. -/
lemma succeeds_step {l : Label} (hok : Succeeds l) (h : Unfailed s) (hstep : step s l = some t) :
    Unfailed t ∧ t.persisted = s.persisted ++ l.persists := by
  have hset (v : Option StoredValue) : Unfailed { s with stored := v } := h
  cases l with
  | execute owner =>
    obtain ⟨-, rfl⟩ := by simpa only [step, ite_none_right_eq_some, some.injEq]
      using hstep
    exact ⟨h.move (by simp), (List.append_nil _).symm⟩
  | claim owner outcome =>
    obtain ⟨-, rfl⟩ := by simpa only [step, ite_none_right_eq_some, some.injEq]
      using hstep
    cases hok
    cases hs : s.stored with
    | none => simpa [claim, hs, Label.persists] using (hset _).move (p := .persisting) (by simp)
    | some v => simpa [claim, hs, Label.persists] using h.move (p := .finding) (by simp)
  | find owner outcome =>
    obtain ⟨-, rfl⟩ := by simpa only [step, ite_none_right_eq_some, some.injEq]
      using hstep
    cases hok
    simp only [find]
    split
    · exact ⟨h.move (by simp), (List.append_nil _).symm⟩
    · exact ⟨h.move (by simp), (List.append_nil _).symm⟩
  | persist owner result =>
    obtain ⟨-, rfl⟩ := by simpa only [step, ite_none_right_eq_some, some.injEq]
      using hstep
    cases result with
    | none => exact ⟨h.move (by simp), (List.append_nil _).symm⟩
    | some m =>
      have hadd : Unfailed { s with persisted := s.persisted ++ [m] } := h
      exact ⟨hadd.move (by simp), rfl⟩
  | complete owner outcome =>
    simp only [step] at hstep
    split at hstep
    · cases hstep
      cases hok
      exact ⟨(hset _).move (by simp), (List.append_nil _).symm⟩
    · cases hstep
  | release owner outcome =>
    simp only [step] at hstep
    split at hstep
    · cases hstep
      simp only [release]
      split
      · exact ⟨(hset _).move (by simp), (List.append_nil _).symm⟩
      · exact ⟨h.move (by simp), (List.append_nil _).symm⟩
    · cases hstep
  | refresh owner outcome =>
    simp only [step] at hstep
    split at hstep
    all_goals first | cases hstep; exact ⟨h, (List.append_nil _).symm⟩ | cases hstep

end Coforge.Idempotency
