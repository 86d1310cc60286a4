import Coforge.Supervisor.HeldRecovery

/-!
# A held Coordinator waits for its verdict

The three fields that `finish` changes around its awaits make the attempt under way the property
of one call: `Rely` is what a call may count on while it is suspended, and `Guar` what it leaves
the others. From the two, `resume` runs only after the verdict and never twice at once, and the
hold file goes only after `resume` has ended.
-/

namespace Coforge.Supervisor.HeldUpgradeRecovery

open Async List Option
open Async.Prog hiding throw

/-! ### What a recovery keeps -/

/-- The owner of the hold, if it is known, has been given its verdict. -/
def HeldState.Judged (s : HeldState) : Prop :=
  ∀ owner, s.requestId = some owner → owner ∈ s.verdicts

/-- The states a recovery passes through. -/
structure HeldState.Sound (s : HeldState) : Prop where
  finished : s.active = false → s.holdFile = false
  released : s.holdFile = false → s.resumed ≠ []
  judged : s.resumed ≠ [] → s.Judged
  named : ∀ attempt owner, s.finishing = some attempt → s.requestId = some owner →
    s.finishingRequestId = some owner
  recorded : s.bindings.verdicts ⊆ s.verdicts
  remembered : ∀ o, s.heldOperation = some o → operationAllowsWorkspaceRecovery o = true →
    o.requestId ∈ s.verdicts

/-- The call makes no attempt at the moment. -/
def HeldState.Away (call : Nat) (s : HeldState) : Prop :=
  ∀ attempt, s.finishing = some attempt → attempt.call ≠ call

/-- The call makes no attempt, or the one under way. -/
def HeldState.Ready (call : Nat) (s : HeldState) : Prop :=
  s.Away call ∨ ∃ attempt : Attempt, attempt.call = call ∧ s.finishing = some attempt

/-- What changes only by growing, and what never changes. -/
structure Grows (s t : HeldState) : Prop where
  owner : t.requestId = s.requestId
  verdicts : s.verdicts ⊆ t.verdicts
  resumed : s.resumed ⊆ t.resumed

lemma Grows.refl (s : HeldState) : Grows s s := ⟨rfl, fun _ => id, fun _ => id⟩

lemma Grows.trans {s t u : HeldState} (hst : Grows s t) (htu : Grows t u) : Grows s u :=
  ⟨htu.owner.trans hst.owner, fun _ h => htu.verdicts (hst.verdicts h),
    fun _ h => htu.resumed (hst.resumed h)⟩

lemma Grows.judged {s t : HeldState} (h : Grows s t) (hs : s.Judged) : t.Judged := by
  intro owner howner
  rw [h.owner] at howner
  exact h.verdicts (hs owner howner)

/-- The attempt of a call is the same, and goes on as it was. -/
structure SameAttempt (call : Nat) (s t : HeldState) : Prop where
  same : ∀ attempt, attempt.call = call →
    (t.finishing = some attempt ↔ s.finishing = some attempt)
  kept : ∀ attempt, attempt.call = call → s.finishing = some attempt →
    t.finishingRequestId = s.finishingRequestId ∧ t.active = s.active

lemma SameAttempt.refl (call : Nat) (s : HeldState) : SameAttempt call s s :=
  ⟨fun _ _ => .rfl, fun _ _ _ => ⟨rfl, rfl⟩⟩

lemma SameAttempt.trans {call : Nat} {s t u : HeldState} (hst : SameAttempt call s t)
    (htu : SameAttempt call t u) : SameAttempt call s u := by
  refine ⟨fun attempt hcall => (htu.same attempt hcall).trans (hst.same attempt hcall), ?_⟩
  intro attempt hcall hs
  obtain ⟨hid, hactive⟩ := hst.kept attempt hcall hs
  obtain ⟨hid', hactive'⟩ := htu.kept attempt hcall ((hst.same attempt hcall).mpr hs)
  exact ⟨hid'.trans hid, hactive'.trans hactive⟩

/-- What a call counts on while it is suspended. -/
structure Rely (call : Nat) (s t : HeldState) : Prop where
  sound : t.Sound
  grows : Grows s t
  attempt : SameAttempt call s t

/-- What a call leaves the others. -/
structure Guar (call : Nat) (s t : HeldState) : Prop where
  sound : s.Sound → t.Sound
  grows : Grows s t
  attempts : ∀ other, other ≠ call → SameAttempt other s t

namespace Rely

variable {call : Nat} {s t u : HeldState}

lemma refl (h : s.Sound) : Rely call s s := ⟨h, .refl s, .refl call s⟩

lemma trans (hst : Rely call s t) (htu : Rely call t u) : Rely call s u :=
  ⟨htu.sound, hst.grows.trans htu.grows, hst.attempt.trans htu.attempt⟩

lemma away (h : Rely call s t) (hs : s.Away call) : t.Away call := by
  intro attempt hattempt hcall
  exact hs attempt ((h.attempt.same attempt hcall).mp hattempt) hcall

lemma ready (h : Rely call s t) (hs : s.Ready call) : t.Ready call := by
  rcases hs with haway | ⟨attempt, hcall, hmine⟩
  · exact .inl (h.away haway)
  · exact .inr ⟨attempt, hcall, (h.attempt.same attempt hcall).mpr hmine⟩

lemma of_away (hs : s.Away call) (ht : t.Away call) (hsound : t.Sound) (hgrows : Grows s t) :
    Rely call s t := by
  refine ⟨hsound, hgrows, fun attempt hcall => ?_, fun attempt hcall hmine => ?_⟩
  · exact ⟨fun h => absurd hcall (ht attempt h), fun h => absurd hcall (hs attempt h)⟩
  · exact absurd hcall (hs attempt hmine)

end Rely

namespace Guar

variable {call : Nat} {s t u : HeldState}

lemma refl (call : Nat) (s : HeldState) : Guar call s s :=
  ⟨id, .refl s, fun other _ => .refl other s⟩

lemma trans (hst : Guar call s t) (htu : Guar call t u) : Guar call s u :=
  ⟨fun h => htu.sound (hst.sound h), hst.grows.trans htu.grows,
    fun other hne => (hst.attempts other hne).trans (htu.attempts other hne)⟩

end Guar

/-- A change that no attempt notices. -/
structure Unnoticed (s t : HeldState) : Prop where
  owner : t.requestId = s.requestId
  finishing : t.finishing = s.finishing
  finishingRequestId : t.finishingRequestId = s.finishingRequestId
  active : t.active = s.active
  holdFile : t.holdFile = s.holdFile
  resumed : t.resumed = s.resumed
  heldOperation : t.heldOperation = s.heldOperation
  verdicts : s.verdicts ⊆ t.verdicts
  recorded : s.bindings.verdicts ⊆ s.verdicts → t.bindings.verdicts ⊆ t.verdicts

namespace Unnoticed

variable {call : Nat} {s t : HeldState}

lemma refl (s : HeldState) : Unnoticed s s := ⟨rfl, rfl, rfl, rfl, rfl, rfl, rfl, fun _ => id, id⟩

lemma grows (h : Unnoticed s t) : Grows s t := ⟨h.owner, h.verdicts, by rw [h.resumed]; exact fun _ => id⟩

lemma sound (h : Unnoticed s t) (hs : s.Sound) : t.Sound where
  finished := by rw [h.active, h.holdFile]; exact hs.finished
  released := by rw [h.holdFile, h.resumed]; exact hs.released
  judged := by rw [h.resumed]; exact fun hne => h.grows.judged (hs.judged hne)
  named := by rw [h.finishing, h.owner, h.finishingRequestId]; exact hs.named
  recorded := h.recorded hs.recorded
  remembered o ho hallows := h.verdicts (hs.remembered o (h.heldOperation ▸ ho) hallows)

lemma attempt (h : Unnoticed s t) : SameAttempt call s t :=
  ⟨fun _ _ => by rw [h.finishing], fun _ _ _ => ⟨h.finishingRequestId, h.active⟩⟩

lemma rely (h : Unnoticed s t) (hs : s.Sound) : Rely call s t := ⟨h.sound hs, h.grows, h.attempt⟩

lemma guar (h : Unnoticed s t) : Guar call s t := ⟨h.sound, h.grows, fun _ _ => h.attempt⟩

end Unnoticed

lemma unnoticed_store (s : HeldState) (bindings : Operations) : Unnoticed s (s.store bindings) :=
  ⟨rfl, rfl, rfl, rfl, rfl, rfl, rfl, subset_append_left _ _, fun _ => subset_append_right _ _⟩

lemma unnoticed_complete (s : HeldState) (workspaceId requestId : String)
    (receipt : PendingUpgradeSettlement) :
    Unnoticed s (s.complete workspaceId requestId receipt).2 := by
  unfold HeldState.complete
  split
  · exact .refl s
  · split
    · exact .refl s
    · exact unnoticed_store s _

lemma unnoticed_apply {α : Type} {change : α × HeldState} {s t : HeldState} {o : HeldOutcome}
    {r : Except RecoveryError α} (hchange : Unnoticed s change.2)
    (h : o.apply change s = some (r, t)) : Unnoticed s t := by
  cases o with
  | done =>
    obtain ⟨-, rfl⟩ := Prod.mk.inj (some.inj h)
    exact hchange
  | found receipt => exact nomatch h
  | failed error =>
    obtain ⟨-, rfl⟩ := Prod.mk.inj (some.inj h)
    exact .refl s
  | lost error =>
    obtain ⟨-, rfl⟩ := Prod.mk.inj (some.inj h)
    exact hchange

/-- The effects other than those of an attempt change nothing that an attempt looks at. -/
lemma unnoticed_answer {e : HeldEffect} {o : HeldOutcome} {s t : HeldState} {r : e.Reply}
    (hresume : ∀ attempt, e ≠ .resume attempt) (hclear : ∀ attempt, e ≠ .clearHold attempt)
    (h : heldAnswer e o s = some (r, t)) : Unnoticed s t := by
  cases e with
  | snapshot => exact unnoticed_apply (.refl s) h
  | readReceipt requestId =>
    cases o with
    | found receipt =>
      obtain ⟨-, rfl⟩ := Prod.mk.inj (some.inj h)
      exact .refl s
    | failed error =>
      obtain ⟨-, rfl⟩ := Prod.mk.inj (some.inj h)
      exact .refl s
    | done => exact nomatch h
    | lost error => exact nomatch h
  | complete workspaceId requestId receipt => exact unnoticed_apply (unnoticed_complete s _ _ _) h
  | refreshChild workspaceId =>
    cases o with
    | done =>
      obtain ⟨-, rfl⟩ := Prod.mk.inj (some.inj h)
      exact .refl s
    | found receipt => exact nomatch h
    | failed error => exact nomatch h
    | lost error => exact nomatch h
  | join attempt =>
    cases o with
    | done =>
      obtain ⟨outcome, -, heq⟩ := map_eq_some_iff.mp h
      obtain ⟨-, rfl⟩ := Prod.mk.inj heq
      exact .refl s
    | found receipt => exact nomatch h
    | failed error => exact nomatch h
    | lost error => exact nomatch h
  | resume attempt => exact absurd rfl (hresume attempt)
  | clearHold attempt => exact absurd rfl (hclear attempt)
  | resumeUnheld => exact unnoticed_apply (.refl s) h

/-! ### The rules of a call -/

/-- When a call may run `resume`, and when it may remove the hold. -/
def HeldIssue (call : Nat) : HeldEffect → HeldState → Prop
  | .resume attempt, s =>
    attempt.call = call ∧ s.finishing = some attempt ∧ s.active = true ∧ s.Judged
  | .clearHold attempt, s =>
    attempt.call = call ∧ s.finishing = some attempt ∧ attempt ∈ s.resumed
  | _, _ => True

def heldContext (call : Nat) : Context HeldState HeldEffect.Reply where
  rely := Rely call
  answer e s r t := ∃ o, heldAnswer e o s = some (r, t)
  guar := Guar call
  issue := HeldIssue call

section Rules

variable {call : Nat} {s : HeldState}

lemma wp_issue {e : HeldEffect} {Q : Except RecoveryError e.Reply → HeldState → Prop}
    (hissue : HeldIssue call e s) (hQ : ∀ u o r t, Rely call s u → heldAnswer e o u = some (r, t) →
      Guar call u t ∧ Q (.ok r) t) : wp (heldContext call) (request e) Q s :=
  ⟨hissue, fun u hu r t ⟨o, hans⟩ => hQ u o r t hu hans⟩

lemma wp_unnoticed {e : HeldEffect} {Q : Except RecoveryError e.Reply → HeldState → Prop}
    (hresume : ∀ attempt, e ≠ .resume attempt) (hclear : ∀ attempt, e ≠ .clearHold attempt)
    (hQ : ∀ u o r t, Rely call s u → heldAnswer e o u = some (r, t) → Rely call s t → Q (.ok r) t) :
    wp (heldContext call) (request e) Q s := by
  have hissue : HeldIssue call e s := by
    cases e with
    | resume attempt => exact absurd rfl (hresume attempt)
    | clearHold attempt => exact absurd rfl (hclear attempt)
    | _ => trivial
  refine wp_issue hissue fun u o r t hu hans => ?_
  have hunnoticed := unnoticed_answer hresume hclear hans
  exact ⟨hunnoticed.guar, hQ u o r t hu hans (hu.trans (hunnoticed.rely hu.sound))⟩

lemma wp_settled {α : Type} {p : HeldOp (Except RecoveryError α)}
    {Q : Except RecoveryError α → HeldState → Prop}
    (h : wp (heldContext call) p (either Q fun e => Q (.error e)) s) :
    wp (heldContext call) (HeldOp.settled p) Q s := by
  rw [HeldOp.settled, wp_bind]
  refine wp_mono (fun r t hr => ?_) h
  cases r with
  | ok r => rwa [either_ok, wp_ofExcept]
  | error e => exact hr

lemma wp_snapshot {Q : Except RecoveryError Operations → HeldState → Prop}
    (hok : ∀ t, Rely call s t → Q (.ok t.bindings) t)
    (herror : ∀ e t, Rely call s t → Q (.error e) t) :
    wp (heldContext call) HeldOp.snapshot Q s := by
  refine wp_settled (wp_unnoticed (fun _ => nofun) (fun _ => nofun) ?_)
  intro u o r t hu hans ht
  cases o with
  | done =>
    cases hans
    exact hok u hu
  | found receipt => exact nomatch hans
  | failed error =>
    cases hans
    exact herror error u hu
  | lost error =>
    cases hans
    exact herror error u hu

lemma wp_readReceipt {requestId : String}
    {Q : Except RecoveryError (Option PendingUpgradeSettlement) → HeldState → Prop}
    (hQ : ∀ r t, Rely call s t → Q r t) :
    wp (heldContext call) (HeldOp.readReceipt requestId) Q s :=
  wp_settled (wp_unnoticed (fun _ => nofun) (fun _ => nofun) fun _ _ r t _ _ ht => hQ r t ht)

variable {Q : Except RecoveryError Unit → HeldState → Prop}

lemma wp_join {attempt : Attempt}
    (hQ : ∀ r t, Rely call s t → Q r t) : wp (heldContext call) (HeldOp.join attempt) Q s :=
  wp_settled (wp_unnoticed (fun _ => nofun) (fun _ => nofun) fun _ _ r t _ _ ht => hQ r t ht)

lemma wp_resumeUnheld
    (hQ : ∀ r t, Rely call s t → Q r t) : wp (heldContext call) HeldOp.resumeUnheld Q s :=
  wp_settled (wp_unnoticed (fun _ => nofun) (fun _ => nofun) fun _ _ r t _ _ ht => hQ r t ht)

lemma wp_refreshChild {workspaceId : String} (hQ : ∀ r t, Rely call s t → Q r t) :
    wp (heldContext call) (HeldOp.refreshChild workspaceId) Q s :=
  wp_unnoticed (fun _ => nofun) (fun _ => nofun) fun _ _ r t _ _ ht => hQ (.ok r) t ht

end Rules

/-! ### Verdicts -/

variable {workspaceId : String}

lemma mem_verdicts {bindings : Operations}
    {operations : List UpgradeOperation} {o : UpgradeOperation}
    (hmem : (workspaceId, operations) ∈ bindings) (ho : o ∈ operations)
    (hallows : operationAllowsWorkspaceRecovery o = true) : o.requestId ∈ bindings.verdicts := by
  refine mem_map.mpr ⟨o, mem_filter.mpr ⟨?_, hallows⟩, rfl⟩
  exact mem_flatMap.mpr ⟨_, hmem, ho⟩

variable {receipt : PendingUpgradeSettlement}

lemma allows_settled {o : UpgradeOperation} (h : terminalAllowsWorkspaceRecovery receipt = true) :
    operationAllowsWorkspaceRecovery (o.settled receipt) = true := by
  rw [terminalAllowsWorkspaceRecovery, Bool.or_eq_true, decide_eq_true_iff] at h
  unfold operationAllowsWorkspaceRecovery UpgradeOperation.settled PendingUpgradeSettlement.status
  cases hsucceeded : receipt.succeeded with
  | true => rfl
  | false =>
    have hcode : receipt.terminal.errorCode = some rolledBackCode := by simpa [hsucceeded] using h
    simp [hcode]

lemma verdict_complete {s : HeldState} {requestId : String}
    (hrecorded : (s.complete workspaceId requestId receipt).1 = true)
    (hallows : terminalAllowsWorkspaceRecovery receipt = true) :
    requestId ∈ (s.complete workspaceId requestId receipt).2.verdicts := by
  unfold HeldState.complete at hrecorded ⊢
  rcases hfind : s.bindings.find? fun b => b.1 = workspaceId with _ | ⟨id, operations⟩
  · simp only [hfind] at hrecorded
    exact nomatch hrecorded
  · rcases hop : (findOperation operations requestId).filter (·.state = .pending) with _ | o
    · simp only [hfind, hop] at hrecorded
      exact nomatch hrecorded
    · simp only [hfind, hop]
      obtain ⟨hfound, -⟩ := filter_eq_some_iff.mp hop
      have hid : o.requestId = requestId := by
        simpa using find?_some hfound
      have hmem : (id, operations) ∈ s.bindings := mem_of_find?_eq_some hfind
      have hws : id = workspaceId := by simpa using find?_some hfind
      refine mem_append_right _ ?_
      have hedited : o.settled receipt ∈ editOperation operations requestId (·.settled receipt) :=
        mem_map.mpr ⟨o, mem_of_find?_eq_some hfound, by rw [if_pos hid]⟩
      have hbinding := mem_map_of_mem (f := fun b : String × List UpgradeOperation =>
        if b.1 = workspaceId then (b.1, editOperation b.2 requestId (·.settled receipt)) else b) hmem
      simp only [hws, ↓reduceIte] at hbinding
      have hverdict := mem_verdicts hbinding hedited (allows_settled hallows)
      rwa [show (o.settled receipt).requestId = requestId from hid] at hverdict

lemma wp_complete {call : Nat} {s : HeldState} {requestId : String} {Q : Except RecoveryError Bool → HeldState → Prop}
    (hok : ∀ recorded t, Rely call s t →
      (recorded = true → terminalAllowsWorkspaceRecovery receipt = true →
        requestId ∈ t.verdicts) → Q (.ok recorded) t)
    (herror : ∀ e t, Rely call s t → Q (.error e) t) :
    wp (heldContext call) (HeldOp.complete workspaceId requestId receipt) Q s := by
  refine wp_settled (wp_unnoticed (fun _ => nofun) (fun _ => nofun) ?_)
  intro u o r t hu hans ht
  cases o with
  | done =>
    cases hans
    exact hok _ _ ht verdict_complete
  | found receipt => exact nomatch hans
  | failed error =>
    cases hans
    exact herror error _ ht
  | lost error =>
    cases hans
    exact herror error _ ht

/-! ### An attempt -/

/-- Inside an attempt: it is still the one under way. -/
structure Within (attempt : Attempt) (s t : HeldState) : Prop where
  sound : t.Sound
  grows : Grows s t
  mine : t.finishing = some attempt

lemma Within.of_rely {attempt : Attempt} {s t u : HeldState} (h : Within attempt s t)
    (hrely : Rely attempt.call t u) : Within attempt s u :=
  ⟨hrely.sound, h.grows.trans hrely.grows, (hrely.attempt.same attempt rfl).mpr h.mine⟩

lemma guar_mine {attempt : Attempt} {s t : HeldState} (hsound : s.Sound → t.Sound)
    (hgrows : Grows s t) (hs : s.finishing = some attempt)
    (ht : t.finishing = none ∨ t.finishing = some attempt) : Guar attempt.call s t := by
  refine ⟨hsound, hgrows, fun other hother => ?_⟩
  have hne (a : Attempt) (ha : a.call = other) : some attempt ≠ some a := by
    rintro heq
    rw [← some.inj heq] at ha
    exact hother ha.symm
  refine ⟨fun a ha => ?_, fun a ha hmine => absurd (hs.symm.trans hmine) (hne a ha)⟩
  rw [hs]
  rcases ht with ht | ht <;> rw [ht]
  · exact ⟨nofun, fun h => absurd h (hne a ha)⟩

section Attempt

variable {settle : String → HeldOp Unit} {attempt : Attempt} {requestId : String} {s : HeldState}

/-- `resume` ends: the attempt is recorded, whatever it answers. -/
lemma wp_resume {Q : Except RecoveryError Unit → HeldState → Prop} (hs : s.Sound)
    (hmine : s.finishing = some attempt) (hactive : s.active = true) (hjudged : s.Judged)
    (hQ : ∀ r t, Within attempt s t → t.active = true → attempt ∈ t.resumed → Q r t) :
    wp (heldContext attempt.call) (HeldOp.resume attempt) Q s := by
  refine wp_settled (wp_issue (e := .resume attempt) ⟨rfl, hmine, hactive, hjudged⟩ ?_)
  intro u o r t hu hans
  obtain ⟨⟨r', u'⟩, happly, heq⟩ := map_eq_some_iff.mp hans
  obtain ⟨rfl, rfl⟩ := Prod.mk.inj heq
  have hunnoticed : Unnoticed u u' := unnoticed_apply (.refl u) happly
  have hwithin : Within attempt s u' :=
    (Within.of_rely ⟨hs, .refl s, hmine⟩ hu).of_rely (hunnoticed.rely hu.sound)
  have hactive' : u'.active = true := by
    rw [hunnoticed.active, (hu.attempt.kept attempt rfl hmine).2, hactive]
  have hsound : HeldState.Sound { u' with resumed := attempt :: u'.resumed } :=
    { finished := hwithin.sound.finished
      released := fun _ => cons_ne_nil _ _
      judged := fun _ => (hwithin.grows.judged hjudged)
      named := hwithin.sound.named
      recorded := hwithin.sound.recorded
      remembered := hwithin.sound.remembered }
  have hgrows : Grows u' { u' with resumed := attempt :: u'.resumed } :=
    ⟨rfl, fun _ => id, subset_cons_self _ _⟩
  refine ⟨hunnoticed.guar.trans ⟨fun _ => hsound, hgrows, fun _ _ => ?_⟩, ?_⟩
  · exact ⟨fun _ _ => .rfl, fun _ _ _ => ⟨rfl, rfl⟩⟩
  · have h := hQ r' { u' with resumed := attempt :: u'.resumed }
      ⟨hsound, hwithin.grows.trans hgrows, hwithin.mine⟩ hactive' (mem_cons_self ..)
    cases r' <;> exact h

lemma wp_clearHold {Q : Except RecoveryError Unit → HeldState → Prop} (hs : s.Sound)
    (hmine : s.finishing = some attempt) (hresumed : attempt ∈ s.resumed)
    (hok : ∀ t, Within attempt s t → t.holdFile = false → Q (.ok ()) t)
    (herror : ∀ e t, Within attempt s t → Q (.error e) t) :
    wp (heldContext attempt.call) (HeldOp.clearHold attempt) Q s := by
  refine wp_settled (wp_issue (e := .clearHold attempt) ⟨rfl, hmine, hresumed⟩ ?_)
  intro u o r t hu hans
  have hwithin : Within attempt s u := Within.of_rely ⟨hs, .refl s, hmine⟩ hu
  have hmem : attempt ∈ u.resumed := hu.grows.resumed hresumed
  have hsound : HeldState.Sound { u with holdFile := false } :=
    { finished := fun _ => rfl
      released := fun _ => ne_nil_of_mem hmem
      judged := hwithin.sound.judged
      named := hwithin.sound.named
      recorded := hwithin.sound.recorded
      remembered := hwithin.sound.remembered }
  have hgrows : Grows u { u with holdFile := false } := ⟨rfl, fun _ => id, fun _ => id⟩
  have hguar : Guar attempt.call u { u with holdFile := false } :=
    ⟨fun _ => hsound, hgrows, fun _ _ => ⟨fun _ _ => .rfl, fun _ _ _ => ⟨rfl, rfl⟩⟩⟩
  have hcleared : Within attempt s { u with holdFile := false } :=
    ⟨hsound, hwithin.grows.trans hgrows, hwithin.mine⟩
  cases o with
  | done =>
    cases hans
    exact ⟨hguar, hok _ hcleared rfl⟩
  | found receipt => exact nomatch hans
  | failed error =>
    cases hans
    exact ⟨.refl _ _, herror error _ hwithin⟩
  | lost error =>
    cases hans
    exact ⟨hguar, herror error _ hcleared⟩

lemma wp_releaseHold (hs : s.Sound) (hmine : s.finishing = some attempt) (hactive : s.active = true)
    (hjudged : s.Judged) :
    wp (heldContext attempt.call) (releaseHold attempt) (fun _ => Within attempt s) s := by
  have hclear (t : HeldState) (ht : Within attempt s t) (hmem : attempt ∈ t.resumed) :
      wp (heldContext attempt.call) (HeldOp.clearHold attempt >>= fun _ =>
        update fun s => { s with active := false }) (fun _ => Within attempt s) t := by
    rw [wp_bind]
    refine wp_clearHold ht.sound ht.mine hmem (fun u hu hfile => ?_) fun e u hu => ?_
    · have hsound : HeldState.Sound { u with active := false } :=
        { finished := fun _ => hfile
          released := hu.sound.released
          judged := hu.sound.judged
          named := hu.sound.named
          recorded := hu.sound.recorded
          remembered := hu.sound.remembered }
      have hgrows : Grows u { u with active := false } := ⟨rfl, fun _ => id, fun _ => id⟩
      refine ⟨guar_mine (fun _ => hsound) hgrows hu.mine (.inr hu.mine), hsound, ?_, hu.mine⟩
      exact (ht.grows.trans hu.grows).trans hgrows
    · exact ⟨hu.sound, ht.grows.trans hu.grows, hu.mine⟩
  rw [releaseHold, wp_bind, wp_tryCatch]
  refine wp_resume hs hmine hactive hjudged fun r t ht _ hmem => ?_
  cases r with
  | ok _ => exact hclear t ht hmem
  | error e =>
    rw [either_error, wp_ite]
    split_ifs
    · exact hclear t ht hmem
    · exact ht

/-- What `#finish` may assume of `settle`: it leaves the attempt alone, and if it ends well the
request has its verdict. -/
def Settles (settle : String → HeldOp Unit) (attempt : Attempt) (requestId : String) : Prop :=
  ∀ s : HeldState, s.Sound → s.finishing = some attempt →
    wp (heldContext attempt.call) (settle requestId)
      (fun r t => Rely attempt.call s t ∧ (r = .ok () → requestId ∈ t.verdicts)) s

lemma wp_finishAttempt (receiptAlreadySettled : Bool) (hs : s.Sound)
    (hmine : s.finishing = some attempt) (hactive : s.active = true)
    (howner : ∀ owner, s.requestId = some owner → owner = requestId)
    (hjudged : receiptAlreadySettled = true → s.Judged)
    (hsettle : receiptAlreadySettled = false → Settles settle attempt requestId) :
    wp (heldContext attempt.call) (finishAttempt settle attempt requestId receiptAlreadySettled)
      (fun _ => Within attempt s) s := by
  have hrest (t : HeldState) (ht : Rely attempt.call s t) (hjudged : t.Judged) :
      wp (heldContext attempt.call)
        (gets (·.active) >>= fun active => if active then releaseHold attempt else pure ())
        (fun _ => Within attempt s) t := by
    have hactive' : t.active = true := (ht.attempt.kept attempt rfl hmine).2.trans hactive
    have hmine' := (ht.attempt.same attempt rfl).mpr hmine
    rw [wp_bind, wp_gets, either_ok, hactive', if_pos rfl]
    refine wp_mono (fun _ u hu => ?_) (wp_releaseHold ht.sound hmine' hactive' hjudged)
    exact ⟨hu.sound, ht.grows.trans hu.grows, hu.mine⟩
  rw [finishAttempt, wp_bind, wp_gets, either_ok, wp_bind, wp_ite]
  split_ifs with hcond
  · obtain ⟨-, hflag⟩ := Bool.and_eq_true_iff.mp hcond
    refine wp_mono (fun r t ht => ?_) (hsettle (by simpa using hflag) s hs hmine)
    cases r with
    | ok _ =>
      refine hrest t ht.1 fun owner h => ?_
      rw [ht.1.grows.owner] at h
      rw [howner owner h]
      exact ht.2 rfl
    | error e => exact Within.of_rely ⟨hs, .refl s, hmine⟩ ht.1
  · refine hrest s (.refl hs) ?_
    cases hflag : receiptAlreadySettled with
    | true => exact hjudged hflag
    | false =>
      intro owner h
      simp [hflag, h] at hcond

end Attempt

section Calls

variable {settle : String → HeldOp Unit} {call : Nat} {requestId : String} {s : HeldState}

lemma wp_awaitAttempt {attempt : Attempt} {body : HeldOp Unit}
    (h : wp (heldContext attempt.call) body (fun _ => Within attempt s) s) :
    wp (heldContext attempt.call)
      ((awaitAttempt attempt body).andFinally (update fun s =>
        if s.finishing = some attempt then { s with finishing := none, finishingRequestId := none }
        else s))
      (fun _ t => t.Sound ∧ Grows s t ∧ t.finishing = none) s := by
  rw [wp_andFinally, awaitAttempt, wp_bind, wp_result]
  refine wp_mono (fun r t ht => ?_) h
  rw [either_ok, wp_bind, wp_update, either_ok]
  set u : HeldState := { t with outcomes := (attempt, r) :: t.outcomes }
  have hunnoticed : Unnoticed t u := ⟨rfl, rfl, rfl, rfl, rfl, rfl, rfl, fun _ => id, id⟩
  refine ⟨hunnoticed.guar, wp_join fun r v hv => ?_⟩
  have hwithin : Within attempt s v := (ht.of_rely (hunnoticed.rely ht.sound)).of_rely hv
  rw [wp_update, if_pos hwithin.mine]
  have hsound : HeldState.Sound { v with finishing := none, finishingRequestId := none } :=
    { finished := hwithin.sound.finished
      released := hwithin.sound.released
      judged := hwithin.sound.judged
      named := fun _ _ h => nomatch h
      recorded := hwithin.sound.recorded
      remembered := hwithin.sound.remembered }
  have hgrows : Grows v { v with finishing := none, finishingRequestId := none } :=
    ⟨rfl, fun _ => id, fun _ => id⟩
  exact ⟨guar_mine (fun _ => hsound) hgrows hwithin.mine (.inl rfl), hsound,
    hwithin.grows.trans hgrows, rfl⟩

/-- One call of `finish`: an attempt it makes is over when it ends. -/
lemma wp_finish (receiptAlreadySettled : Bool) (hs : s.Sound) (haway : s.Away call)
    (hjudged : receiptAlreadySettled = true → s.requestId = some requestId → s.Judged)
    (hsettle : receiptAlreadySettled = false → ∀ attempt : Attempt, attempt.call = call →
      Settles settle attempt requestId) :
    wp (heldContext call) (finish settle call requestId receiptAlreadySettled)
      (fun _ t => Rely call s t) s := by
  rw [finish, wp_bind, wp_read, either_ok, wp_ite]
  split_ifs with hactive howner
  · exact .refl hs
  · exact .refl hs
  cases hfinishing : s.finishing with
  | some operation =>
    simp only [wp_bind]
    refine wp_join fun r t ht => ?_
    cases r <;> exact ht
  | none =>
    simp only [wp_bind, wp_update, either_ok]
    set attempt : Attempt := ⟨s.attempts, call⟩
    set u : HeldState := { s with attempts := s.attempts + 1, finishingRequestId := some requestId
                                  finishing := some attempt }
    have howns (owner : String) (h : s.requestId = some owner) : owner = requestId := by
      by_contra hne
      refine howner ⟨by rw [h]; rfl, ?_⟩
      rw [h]
      exact fun heq => hne (some.inj heq)
    have hsound : u.Sound :=
      { finished := hs.finished
        released := hs.released
        judged := hs.judged
        named := fun _ owner _ h => congrArg some (howns owner h).symm
        recorded := hs.recorded
        remembered := hs.remembered }
    have hgrows : Grows s u := ⟨rfl, fun _ => id, fun _ => id⟩
    have hguar : Guar call s u := by
      refine ⟨fun _ => hsound, hgrows, fun other hne => ⟨fun a ha => ?_, fun a _ h => ?_⟩⟩
      · rw [hfinishing]
        refine ⟨fun h => ?_, fun h => by cases h⟩
        rw [← some.inj h] at ha
        exact absurd ha.symm hne
      · rw [hfinishing] at h
        cases h
    have hjudged' (hflag : receiptAlreadySettled = true) : u.Judged := by
      intro owner h
      exact hjudged hflag (by rw [← howns owner h]; exact h) owner h
    have hattempt : wp (heldContext attempt.call)
        (finishAttempt settle attempt requestId receiptAlreadySettled)
        (fun _ => Within attempt u) u :=
      wp_finishAttempt receiptAlreadySettled hsound rfl (by simpa using hactive) howns hjudged'
        fun hflag => hsettle hflag attempt rfl
    refine ⟨hguar, wp_mono (fun r t ht => ?_) (wp_awaitAttempt hattempt)⟩
    obtain ⟨hsound', hgrows', hnone⟩ := ht
    have hrely : Rely call s t :=
      .of_away haway (fun a h => by cases hnone.symm.trans h) hsound' (hgrows.trans hgrows')
    cases r <;> exact hrely

/-- A receipt is settled, and the hold finished if it is the owner's and may release it. Inside an
attempt the second half is skipped. -/
lemma wp_settleUpgrade {workspaceId : String} {receipt : PendingUpgradeSettlement}
    (hmode : s.Ready call) :
    wp (heldContext call) (settleUpgrade call workspaceId requestId receipt)
      (fun _ t => Rely call s t) s := by
  rw [settleUpgrade, wp_bind]
  refine wp_complete (fun recorded t ht hverdict => ?_) fun e t ht => ht
  rw [either_ok, wp_ite]
  split_ifs with hrecorded
  · simp only [wp_bind]
    refine wp_refreshChild fun r u hu => ?_
    have hsu := ht.trans hu
    cases r with
    | error e => exact hsu
    | ok _ =>
      rw [either_ok, wp_bind, wp_read, either_ok, wp_ite]
      split_ifs with hauto
      · simp only [shouldAutoFinishHeldUpgrade, Bool.and_eq_true, decide_eq_true_iff,
          Bool.not_eq_true', decide_eq_false_iff_not] at hauto
        obtain ⟨⟨⟨-, -, howner⟩, hfinishing⟩, hallows⟩ := hauto
        have haway : u.Away call := by
          rcases hmode with haway | ⟨attempt, hcall, hmine⟩
          · exact hsu.away haway
          · have hmine' := (hsu.attempt.same attempt hcall).mpr hmine
            exact absurd (hsu.sound.named attempt requestId hmine' howner) hfinishing
        have hjudged : u.Judged := by
          intro owner h
          obtain rfl : requestId = owner := some.inj (howner.symm.trans h)
          exact hu.grows.verdicts (hverdict hrecorded hallows)
        simp only [wp_bind]
        refine wp_mono (fun r v hv => ?_) (wp_finish true hu.sound haway
          (fun _ _ => hjudged) (by intros; contradiction))
        cases r <;> exact hsu.trans hv
      · exact hsu
  · exact ht

lemma wp_sweep {pending : List PendingComputerUpgrade} (hs : s.Sound) (hmode : s.Ready call) :
    wp (heldContext call) (sweepComputerUpgradeReceipts call pending)
      (fun _ t => Rely call s t) s := by
  refine wp_forEach (fun _ t => Rely call s t) (fun t ht => ht) (fun operation rest t ht => ?_)
    (.refl hs)
  simp only [wp_bind]
  refine wp_readReceipt fun r u hu => ?_
  have hsu := ht.trans hu
  cases r with
  | error e => exact hsu
  | ok receipt =>
    rw [either_ok, wp_bind, wp_gets, either_ok]
    cases receipt.or (expiredReceipt operation u.clock) with
    | none => exact hsu
    | some receipt =>
      simp only [wp_bind]
      refine wp_mono (fun r v hv => ?_) (wp_settleUpgrade (hsu.ready hmode))
      cases r <;> exact hsu.trans hv

lemma wp_requireTerminalOperation (hs : s.Sound) :
    wp (heldContext call) (requireTerminalOperation (some requestId))
      (fun r t => Rely call s t ∧ (r = .ok () → requestId ∈ t.verdicts)) s := by
  rw [requireTerminalOperation, wp_ite]
  split_ifs with hany
  · exact ⟨.refl hs, nofun⟩
  · rw [wp_bind]
    refine wp_snapshot (fun t ht => ?_) fun e t ht => ⟨ht, nofun⟩
    rw [either_ok]
    rcases hfind : t.bindings.all.find? fun o => some o.requestId = some requestId with _ | o
    · simp only [hfind]
      exact ⟨ht, nofun⟩
    · simp only [hfind, wp_ite]
      split_ifs with hpending hallows
      · exact ⟨ht, nofun⟩
      · exact ⟨ht, nofun⟩
      · refine ⟨ht, fun _ => ht.sound.recorded ?_⟩
        have hid : o.requestId = requestId := by simpa using find?_some hfind
        have hmem : o ∈ t.bindings.all := mem_of_find?_eq_some hfind
        rw [← hid]
        exact mem_map.mpr ⟨o, mem_filter.mpr ⟨hmem, by simpa using hallows⟩, rfl⟩

lemma wp_settlePending {requireTerminal : Bool} (requestId : String) (id : Option String)
    (hmode : s.Ready call) (hid : requireTerminal = true → id = some requestId) :
    wp (heldContext call) (settlePendingUpgradeOperations call requireTerminal id)
      (fun r t => Rely call s t ∧
        (requireTerminal = true → r = .ok () → requestId ∈ t.verdicts)) s := by
  have hcaught (e : RecoveryError) (t : HeldState) (ht : Rely call s t) :
      wp (heldContext call) (if requireTerminal then throw e else pure ())
        (fun r t => Rely call s t ∧
          (requireTerminal = true → r = .ok () → requestId ∈ t.verdicts)) t := by
    rw [wp_ite]
    split_ifs with h
    · exact ⟨ht, fun _ => nofun⟩
    · exact ⟨ht, fun h' => absurd h' h⟩
  rw [settlePendingUpgradeOperations, wp_tryCatch]
  simp only [wp_bind]
  refine wp_snapshot (fun t ht => ?_) hcaught
  rw [either_ok, wp_bind]
  refine wp_mono (fun r u hu => ?_) (wp_sweep ht.sound (ht.ready hmode))
  have hsu := ht.trans hu
  cases r with
  | error e => exact hcaught e u hsu
  | ok _ =>
    by_cases h : requireTerminal = true
    · rw [either_ok, if_pos h, hid h]
      refine wp_mono (fun r v hv => ?_) (wp_requireTerminalOperation hu.sound)
      cases r with
      | ok _ => exact ⟨hsu.trans hv.1, fun _ _ => hv.2 rfl⟩
      | error e => exact hcaught e v (hsu.trans hv.1)
    · rw [either_ok, if_neg h]
      exact ⟨hsu, fun h' => absurd h' h⟩

lemma settles_settleHeld (attempt : Attempt) (requestId : String) :
    Settles (settleHeld attempt.call) attempt requestId := by
  intro s _ hmine
  refine wp_mono (fun r t ht => ⟨ht.1, ht.2 rfl⟩) (wp_settlePending requestId (some requestId)
    (.inr ⟨attempt, rfl, hmine⟩) fun _ => rfl)

lemma wp_heldBody (task : HeldCall) (hs : s.Sound) (haway : s.Away call) :
    wp (heldContext call) (heldBody call task) (fun _ => HeldState.Away call) s := by
  have hready : s.Ready call := .inl haway
  have hsettle (attempt : Attempt) (hcall : attempt.call = call) (requestId : String) :
      Settles (settleHeld call) attempt requestId := by
    rw [← hcall]
    exact settles_settleHeld attempt requestId
  cases task with
  | startup =>
    have hrest (t : HeldState) (ht : Rely call s t) :
        wp (heldContext call) (settlePendingUpgradeOperations call false none)
          (fun _ => HeldState.Away call) t := by
      refine wp_mono (fun r u hu => ?_) (wp_settlePending "" none
        (ht.ready hready) (by intros; contradiction))
      exact hu.1.away (ht.away haway)
    simp only [heldBody, wp_bind, wp_read, either_ok]
    cases hheld : s.heldOperation with
    | none => exact hrest s (.refl hs)
    | some operation =>
      simp only [wp_ite, wp_bind]
      split_ifs with hauto
      · have hallows := (Bool.and_eq_true_iff.mp hauto).2
        refine wp_mono (fun r t ht => ?_) (wp_finish true hs haway
          (fun _ howner owner h => ?_) (by intros; contradiction))
        · cases r with
          | ok _ => exact hrest t ht
          | error e => exact ht.away haway
        · obtain rfl : operation.requestId = owner := some.inj (howner.symm.trans h)
          exact hs.remembered operation hheld hallows
      · exact hrest s (.refl hs)
  | resume requestId =>
    simp only [heldBody, wp_bind, wp_gets, either_ok, wp_ite]
    split_ifs with hactive
    · refine wp_mono (fun r t ht => ?_) (wp_finish false hs haway (by intros; contradiction)
        fun _ attempt hcall => hsettle attempt hcall requestId)
      cases r <;> exact ht.away haway
    · exact wp_resumeUnheld fun r t ht => ht.away haway
  | check operation =>
    exact wp_mono (fun r t ht => ht.away haway) (wp_sweep hs hready)
  | complete workspaceId requestId receipt =>
    simp only [heldBody, wp_bind]
    refine wp_mono (fun r t ht => ?_) (wp_settleUpgrade hready)
    cases r <;> exact ht.away haway

end Calls

/-! ### All interleavings -/

lemma unnoticed_event {s t : HeldState} {l : HeldEvent} (h : heldEvent s l = some t) :
    Unnoticed s t := by
  cases l with
  | store bindings =>
    cases h
    exact unnoticed_store s bindings
  | tick now =>
    rw [heldEvent] at h
    split_ifs at h with hle
    cases h
    exact ⟨rfl, rfl, rfl, rfl, rfl, rfl, rfl, fun _ => id, id⟩

/-- The recovery of a hold with this owner. -/
def heldSpec (owner : Option String) : Pool.Spec heldRecovery where
  inv s := s.Sound ∧ s.requestId = owner
  context := heldContext
  fresh := HeldState.Away
  away := HeldState.Away
  rely_refl _ _ hs := .refl hs.1
  rely_trans _ _ _ _ := .trans
  guar_refl := .refl
  guar_trans _ _ _ _ := .trans
  guar_inv _ _ _ hs h := ⟨h.sound hs.1, h.grows.owner.trans hs.2⟩
  guar_rely _ j _ _ hij hs h := ⟨h.sound hs.1, h.grows, h.attempts j hij.symm⟩
  event_inv _ _ _ hs h :=
    ⟨(unnoticed_event h).sound hs.1, (unnoticed_event h).owner.trans hs.2⟩
  event_rely _ _ _ _ hs h := (unnoticed_event h).rely hs.1
  fresh_rely _ _ _ hs h := h.away hs
  away_rely _ _ _ hs h := h.away hs
  answer_of _ _ o _ _ _ h := ⟨o, h⟩
  body_safe _ task _ hs := wp_heldBody task hs.1

/-! ### A later call -/

/-- The operation of the owner is there, and may release the hold. -/
def Releasable (owner : String) (bindings : Operations) : Prop :=
  (∃ o ∈ bindings.all, o.requestId = owner) ∧
    ∀ o ∈ bindings.all, o.requestId = owner → operationAllowsWorkspaceRecovery o = true

section Later

variable {call : Nat} {owner : String} {s : HeldState}

lemma can_snapshot {Q : Except RecoveryError Operations → HeldState → Prop}
    (h : Q (.ok s.bindings) s) : Can heldAnswer HeldOp.snapshot Q s :=
  ⟨.done, .ok s.bindings, s, rfl, h⟩

lemma not_pending_of_allows {o : UpgradeOperation}
    (h : operationAllowsWorkspaceRecovery o = true) : o.state ≠ .pending := by
  intro hpending
  rw [operationAllowsWorkspaceRecovery, hpending] at h
  exact nomatch h

lemma anyRequest_of_ne (hid : owner ≠ "") : anyRequest (some owner) = false := by
  simp [anyRequest, truthy, hid]

lemma Releasable.not_pending (h : Releasable owner s.bindings) (hid : owner ≠ "") :
    pendingUpgradeOperations s.bindings (some owner) = [] := by
  rw [pendingUpgradeOperations, flatMap_eq_nil_iff]
  rintro ⟨workspaceId, operations⟩ hmem
  rw [map_eq_nil_iff, filter_eq_nil_iff]
  intro o ho hpending
  simp only [anyRequest_of_ne hid, Bool.false_or, Bool.and_eq_true, decide_eq_true_iff,
    some.injEq] at hpending
  have hall : o ∈ s.bindings.all := mem_flatMap.mpr ⟨_, hmem, ho⟩
  exact not_pending_of_allows (h.2 o hall hpending.2) hpending.1

/-- With a verdict there, `settle` finds nothing to do. -/
lemma can_settleHeld (hid : owner ≠ "") (h : Releasable owner s.bindings) :
    Can heldAnswer (settleHeld call owner) (fun r t => r = .ok () ∧ t = s) s := by
  refine .tryCatch (.bind (can_snapshot ?_))
  rw [either_ok, h.not_pending hid]
  change Can heldAnswer (requireTerminalOperation (some owner)) _ s
  rw [requireTerminalOperation, anyRequest_of_ne hid, if_neg Bool.false_ne_true]
  refine .bind (can_snapshot ?_)
  rw [either_ok]
  rcases hfind : s.bindings.all.find? fun o => some o.requestId = some owner with _ | o
  · obtain ⟨o, ho, howner⟩ := h.1
    exact absurd howner (by simpa using find?_eq_none.mp hfind o ho)
  · have hmem : o ∈ s.bindings.all := mem_of_find?_eq_some hfind
    have howner : o.requestId = owner := by simpa using find?_some hfind
    have hallows := h.2 o hmem howner
    simp only [hfind, hallows, if_neg (not_pending_of_allows hallows), Bool.not_true,
      Bool.false_eq_true, if_false]
    exact ⟨trivial, rfl⟩

lemma can_releaseHold (attempt : Attempt) :
    Can heldAnswer (releaseHold attempt) (fun r t => r = .ok () ∧ t =
      { s with resumed := attempt :: s.resumed, holdFile := false, active := false }) s := by
  refine .bind (.tryCatch ⟨.done, .ok (), _, rfl, ?_⟩)
  exact .bind ⟨.done, .ok (), _, rfl, ⟨rfl, rfl⟩⟩

lemma can_join {attempt : Attempt} {Q : Except RecoveryError Unit → HeldState → Prop}
    (hended : s.outcomes.lookup attempt = some (.ok ())) (h : Q (.ok ()) s) :
    Can heldAnswer (HeldOp.join attempt) Q s := by
  refine ⟨.done, .ok (), s, ?_, h⟩
  rw [heldAnswer, hended]
  rfl

lemma can_awaitAttempt (attempt : Attempt) {body : HeldOp Unit} {u : HeldState}
    (h : Can heldAnswer body (fun r t => r = .ok () ∧ t = u) s) :
    Can heldAnswer
      ((awaitAttempt attempt body).andFinally (update fun s =>
        if s.finishing = some attempt then { s with finishing := none, finishingRequestId := none }
        else s))
      (fun _ t => t.active = u.active ∧ t.holdFile = u.holdFile) s := by
  refine .bind (.result (.bind (.result (h.mono ?_))))
  rintro _ _ ⟨rfl, rfl⟩
  refine can_join ?_ ?_
  · exact lookup_cons_self
  · change (ite _ _ _ : HeldState).active = _ ∧ (ite _ _ _ : HeldState).holdFile = _
    split_ifs
    · exact ⟨rfl, rfl⟩
    · exact ⟨rfl, rfl⟩

lemma can_finish (hid : owner ≠ "") (hactive : s.active = true) (hidle : s.finishing = none)
    (howner : s.requestId = some owner) (h : Releasable owner s.bindings) :
    Can heldAnswer (heldBody call (.resume owner))
      (fun _ t => t.active = false ∧ t.holdFile = false) s := by
  have hattempt (attempt : Attempt) (u : HeldState) (hactive : u.active = true)
      (howner : u.requestId = some owner) (h : Releasable owner u.bindings) :
      Can heldAnswer (finishAttempt (settleHeld call) attempt owner false)
        (fun r t => r = .ok () ∧ t = { u with resumed := attempt :: u.resumed, holdFile := false
                                              active := false }) u := by
    refine .bind ?_
    have hcond : (u.requestId.isSome && !false) = true := by simp [howner]
    change Can heldAnswer ((if u.requestId.isSome && !false then settleHeld call owner else pure ())
      >>= _) _ u
    rw [if_pos hcond]
    refine .bind ?_
    refine (can_settleHeld hid h).mono ?_
    rintro _ t ⟨rfl, ht⟩
    rw [ht]
    change Can heldAnswer (if u.active then _ else _) _ u
    rw [if_pos hactive]
    exact can_releaseHold attempt
  change Can heldAnswer (if s.active then _ else _) _ s
  rw [if_pos hactive]
  refine .bind (.bind ?_)
  change Can heldAnswer (if !s.active then _ else _) _ s
  rw [hactive, if_neg (by simp), if_neg (by simp [howner]), hidle]
  dsimp only
  have hrun := can_awaitAttempt ⟨s.attempts, call⟩ (hattempt ⟨s.attempts, call⟩
    { s with attempts := s.attempts + 1, finishingRequestId := some owner
             finishing := some ⟨s.attempts, call⟩ } hactive howner h)
  refine .bind (.bind (hrun.mono ?_))
  intro r t ht
  cases r <;> exact ht

end Later

/-- The call is inside `resume`. -/
def Resuming (w : Roster HeldState HeldCall HeldEffect.Reply RecoveryError) (call : Nat) : Prop :=
  ∃ task p attempt, w.at? call = some (task, p) ∧ p.effect = .resume attempt

/-- The call is removing the hold file, in an attempt of its own. -/
def Clearing (w : Roster HeldState HeldCall HeldEffect.Reply RecoveryError) (call : Nat)
    (attempt : Attempt) : Prop :=
  ∃ task p, w.at? call = some (task, p) ∧ p.effect = .clearHold attempt

section Runs

variable {w : Roster HeldState HeldCall HeldEffect.Reply RecoveryError} {call : Nat}
  {owner : Option String}

lemma Resuming.issued (hw : (heldSpec owner).Inv w) (h : Resuming w call) :
    ∃ attempt, attempt.call = call ∧ w.shared.finishing = some attempt ∧ w.shared.Judged := by
  obtain ⟨task, ⟨e, k⟩, attempt, hat, rfl⟩ := h
  obtain ⟨u, ⟨hcall, hmine, -, hjudged⟩, hrely⟩ := hw.issued hat
  exact ⟨attempt, hcall, (hrely.attempt.same attempt hcall).mpr hmine, hrely.grows.judged hjudged⟩

lemma Clearing.issued {attempt : Attempt} (hw : (heldSpec owner).Inv w) (h : Clearing w call attempt) :
    attempt.call = call ∧ w.shared.finishing = some attempt ∧ attempt ∈ w.shared.resumed := by
  obtain ⟨task, ⟨e, k⟩, hat, rfl⟩ := h
  obtain ⟨u, ⟨hcall, hmine, hresumed⟩, hrely⟩ := hw.issued hat
  exact ⟨hcall, (hrely.attempt.same attempt hcall).mpr hmine, hrely.grows.resumed hresumed⟩

end Runs

lemma mem_of_resolve {persisted : Option String} {operations : List UpgradeOperation}
    {owner : String} (h : resolveHeldRequestId persisted operations = some owner) :
    ∃ o ∈ operations, o.requestId = owner := by
  rw [resolveHeldRequestId] at h
  rcases hfind : operations.find? fun o => some o.requestId = persisted with _ | o
  · simp only [hfind] at h
    split_ifs at h
    obtain ⟨o, ho, howner⟩ := map_eq_some_iff.mp h
    have hsorted := mem_mergeSort.mp (mem_of_head? ho)
    exact ⟨o, (mem_filter.mp hsorted).1, howner⟩
  · simp only [hfind] at h
    exact ⟨o, mem_of_find?_eq_some hfind, some.inj h⟩

lemma boot_inv (text : String) (bindings : Operations) (now : Nat) :
    (heldSpec (resolveHeldRequestId (some text) bindings.all)).Inv
      ⟨HeldState.boot (some text) bindings now, []⟩ := by
  refine Pool.Spec.inv_init ⟨?_, rfl⟩ fun i attempt h => nomatch h
  exact
    { finished := nofun
      released := nofun
      judged := fun h => absurd rfl h
      named := nofun
      recorded := fun _ => id
      remembered := fun o ho hallows =>
        mem_map.mpr ⟨o, mem_filter.mpr ⟨mem_of_find?_eq_some ho, hallows⟩, rfl⟩ }

/-- Of a Coordinator held for a known owner, at every point of every run: a call inside `resume`
finds the owner's verdict given, and no two calls are inside `resume`; a call removes the hold file
only after its own `resume` has ended and while none is running, and nothing else removes it; the
recovery is inactive only once that is done; an attempt under way is that of a live call; and while
the recovery is active with no attempt under way, a later call of the owner can finish. -/
theorem held_until_verdict {text owner : String} {bindings : Operations} {now : Nat}
    (hids : ∀ o ∈ bindings.all, o.requestId ≠ "")
    (howner : resolveHeldRequestId (some text) bindings.all = some owner)
    {moves : List (Move HeldEvent HeldCall HeldOutcome)}
    {w : Roster HeldState HeldCall HeldEffect.Reply RecoveryError}
    (hrun : Transition.run heldRecovery.step ⟨HeldState.boot (some text) bindings now, []⟩ moves =
      some w) : (∀ i, Resuming w i → owner ∈ w.shared.verdicts) ∧
    (∀ i j, Resuming w i → Resuming w j → i = j) ∧ (∀ i attempt, Clearing w i attempt →
      attempt ∈ w.shared.resumed ∧ ∀ j, ¬ Resuming w j) ∧
    (w.shared.holdFile = false → w.shared.resumed ≠ []) ∧
    (w.shared.active = false → w.shared.holdFile = false) ∧
    (∀ attempt, w.shared.finishing = some attempt → (w.at? attempt.call).isSome) ∧
    (w.shared.active = true → w.shared.finishing = none → Releasable owner w.shared.bindings →
      ∃ later w', Transition.run heldRecovery.step w (.call (.resume owner) :: later) = some w' ∧
        w'.shared.active = false ∧ w'.shared.holdFile = false) := by
  have hinv := Pool.Spec.safe_run (boot_inv text bindings now) hrun
  have hsame {i j : Nat} {a b : Attempt} (hi : a.call = i) (hj : b.call = j)
      (ha : w.shared.finishing = some a) (hb : w.shared.finishing = some b) : i = j := by
    rw [← hi, ← hj, some.inj (ha.symm.trans hb)]
  refine ⟨?verdict, ?once, ?removal, hinv.shared.1.released, hinv.shared.1.finished, ?live, ?later⟩
  case verdict =>
    intro i hi
    obtain ⟨_, _, _, hjudged⟩ := hi.issued hinv
    exact hjudged owner (hinv.shared.2.trans howner)
  case once =>
    intro i j hi hj
    obtain ⟨_, hcall, hmine, _⟩ := hi.issued hinv
    obtain ⟨_, hcall', hmine', _⟩ := hj.issued hinv
    exact hsame hcall hcall' hmine hmine'
  case removal =>
    intro i attempt hi
    obtain ⟨hcall, hmine, hresumed⟩ := hi.issued hinv
    refine ⟨hresumed, fun j hj => ?_⟩
    obtain ⟨_, hcall', hmine', _⟩ := hj.issued hinv
    obtain rfl : i = j := hsame hcall hcall' hmine hmine'
    obtain ⟨_, p, hat, hclear⟩ := hi
    obtain ⟨_, p', _, hat', hresume⟩ := hj
    obtain rfl : p = p' := congrArg Prod.snd (some.inj (hat.symm.trans hat'))
    exact nomatch hclear.symm.trans hresume
  case live =>
    intro attempt hmine
    cases hat : w.at? attempt.call with
    | none => exact absurd rfl (or_self_iff.mp (hinv.away hat) attempt hmine)
    | some c => rfl
  case later =>
    intro hactive hidle hreleasable
    obtain ⟨o, ho, rfl⟩ := mem_of_resolve howner
    have hcan : Can heldRecovery.answer
        (heldRecovery.body w.calls.length (.resume o.requestId))
        (fun _ t => t.active = false ∧ t.holdFile = false) w.shared :=
      can_finish (hids o ho) hactive hidle (hinv.shared.2.trans howner) hreleasable
    obtain ⟨later, w', _, hrun', hend⟩ := Pool.call_run hcan
    exact ⟨later, w', hrun', hend⟩

/-- One pending operation of one Workspace. -/
def pendingUpgrade : Operations :=
  [("workspace", [⟨"upgrade-1", "2.0.0", .pending, 0, none⟩])]

/-- An explicit resume is settling the owner's receipt while a watch settles the same one. -/
def resumeAndWatch : List (Move HeldEvent HeldCall HeldOutcome) :=
  [.call (.resume "upgrade-1"), .reply 0 .done, .call (.check ⟨"workspace", "upgrade-1", 0⟩),
    .reply 1 (.found (some ⟨true, ⟨some "2.0.0", none, none, 3⟩⟩)), .reply 0 (.found none),
    .reply 1 .done, .reply 1 .done, .reply 0 .done]

/-- The watch gives the verdict and leaves the rest to the explicit call, which resumes. -/
theorem held_until_verdict_watched : ∃ w, Transition.run heldRecovery.step
        ⟨HeldState.boot (some "upgrade-1") pendingUpgrade 5, []⟩ resumeAndWatch = some w ∧
      Resuming w 0 ∧ w.at? 1 = none ∧ "upgrade-1" ∈ w.shared.verdicts := by
  obtain ⟨w, hrun, hw⟩ := (any_eq_true (fun w : Roster _ _ _ _ =>
      (w.at? 0).any (fun c => c.2.effect = .resume ⟨0, 0⟩) && (w.at? 1).isNone)
      (Transition.run heldRecovery.step ⟨HeldState.boot (some "upgrade-1") pendingUpgrade 5, []⟩
        resumeAndWatch)).mp (by decide)
  obtain ⟨hfirst, hsecond⟩ := Bool.and_eq_true_iff.mp hw
  obtain ⟨⟨task, p⟩, hat, heffect⟩ := (any_eq_true _ _).mp hfirst
  have hresuming : Resuming w 0 := ⟨task, p, ⟨0, 0⟩, hat, of_decide_eq_true heffect⟩
  have hverdict := @held_until_verdict _ "upgrade-1" _ _ (by decide) (by decide) _ _ hrun
  exact ⟨w, hrun, hresuming, isNone_iff_eq_none.mp hsecond, hverdict.1 0 hresuming⟩

end Coforge.Supervisor.HeldUpgradeRecovery
