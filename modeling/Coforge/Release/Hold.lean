import Coforge.Release.Upgrade

/-!
# The launch-hold of an upgrade that fails early

`pauseLaunches` takes the hold in several steps. The failure of the last of them is undone by
`pauseLaunches` itself, and that of the snapshot by its caller, but nobody undoes a pause that
fails, or a hold file that is left by a failed write.
-/

namespace Coforge.Release

open Async
open Async.Prog hiding throw
open UpgradeOp

/-- The hold file was left behind by a failed write, or the pause failed. -/
def strands : Step × Outcome → Bool
  | (.act (.writeHold _), .lost _) => true
  | (.act .pause, .failed _)       => true
  | (.act .pause, .lost _)         => true
  | _                              => false

/-- A step of a resume failed, other than the release of the runners. -/
def resumeFailed : Step × Outcome → Bool
  | (.act (.resume _), .failed _) => true
  | (.act (.resume _), .lost _)   => true
  | (.act .removeHold, .failed _) => true
  | (.act .removeHold, .lost _)   => true
  | _                             => false

/-- Workspaces may launch. -/
def Machine.Free (m : Machine) : Prop := m.holdFile = false ∧ m.paused = false

instance (m : Machine) : Decidable m.Free := inferInstanceAs (Decidable (_ ∧ _))

/-- Launches are free, and no step of the kind that strands them was taken. -/
def Untouched (m : Machine) : Prop := m.Free ∧ m.log.any strands = false

/-- The hold may have been taken, and nothing stands in the way of a resume. -/
def Resumable (m : Machine) : Prop :=
  m.log.any strands = false ∧ (m.supervisorWasRunning = false → m.paused = false)

/-- How an operation that failed before its switch leaves the machine. -/
def LeavesFree (m : Machine) : Prop :=
  m.log.any resumeFailed = false → (m.Free ↔ m.log.any strands = false)

lemma Untouched.leavesFree {m : Machine} (h : Untouched m) : LeavesFree m :=
  fun _ => iff_of_true h.1 h.2

lemma leavesFree_of_stranded {m : Machine} (hfree : ¬ m.Free) (h : m.log.any strands = true) :
    LeavesFree m :=
  fun _ => iff_of_false hfree (by simp [h])

lemma leavesFree_of_failed {m : Machine} (h : m.log.any resumeFailed = true) : LeavesFree m :=
  fun hsucceeded => nomatch h.symm.trans hsucceeded

section Steps

variable {m : Machine} {α : Type}

/-- Nothing is asked of the steps but how they leave the launches. -/
abbrev observed : Context Machine Step.Reply :=
  alone Step.answer (fun _ _ => True) (fun _ _ => True)

lemma wp_aside {action : Action} {Q : Except UpgradeError Unit → Machine → Prop}
    (heffect : action.effect m = m)
    (hQ : ∀ r o, Q r (m.logged (.act action) o)) : wp observed (act action) Q m := by
  refine wp_act trivial ⟨trivial, ?_⟩ (fun f => ⟨trivial, hQ _ _⟩) fun _ f => ⟨trivial, ?_⟩
  · rw [heffect]
    exact hQ _ _
  · rw [heffect]
    exact hQ _ _

lemma Untouched.logged {step : Step} {o : Outcome} (h : Untouched m)
    (hstep : strands (step, o) = false) : Untouched (m.logged step o) := by
  refine ⟨h.1, ?_⟩
  rw [Machine.logged, List.any_cons, hstep, h.2]
  rfl

lemma Resumable.logged {step : Step} {o : Outcome} (h : Resumable m)
    (hstep : strands (step, o) = false) : Resumable (m.logged step o) := by
  refine ⟨?_, h.2⟩
  rw [Machine.logged, List.any_cons, hstep, h.1]
  rfl

/-- A program that does not come near the hold. -/
def Aside (p : UpgradeOp α) : Prop :=
  ∀ m, Untouched m → wp observed p (fun _ => Untouched) m

namespace Aside

variable {β : Type} {p q : UpgradeOp α} {f : α → UpgradeOp β}

lemma pure (a : α) : Aside (Pure.pure a : UpgradeOp α) := fun _ h => h

lemma fail (message : String) (code : Option UpdateErrorCode) :
    Aside (UpgradeOp.fail message code : UpgradeOp α) := fun _ h => h

lemma bind (hp : Aside p) (hf : ∀ a, Aside (f a)) : Aside (p >>= f) := by
  intro m h
  rw [wp_bind]
  refine wp_mono (fun r t ht => ?_) (hp m h)
  cases r with
  | ok a => exact hf a t ht
  | error e => exact ht

lemma ite {P : Prop} [Decidable P] (hp : Aside p) (hq : Aside q) : Aside (if P then p else q) := by
  split_ifs
  · exact hp
  · exact hq

lemma tryCatch {h : UpgradeError → UpgradeOp α} (hp : Aside p) (hh : ∀ e, Aside (h e)) :
    Aside (MonadExcept.tryCatch p h) := by
  intro m hm
  rw [wp_tryCatch]
  refine wp_mono (fun r t ht => ?_) (hp m hm)
  cases r with
  | ok a => exact ht
  | error e => exact hh e t ht

lemma settled {p : UpgradeOp (Except Failure α)} (hp : Aside p) : Aside (UpgradeOp.settled p) :=
  hp.bind fun r => by cases r <;> exact fun _ h => h

lemma act {action : Action} (heffect : ∀ m, action.effect m = m)
    (hstep : ∀ o, strands (.act action, o) = false) : Aside (UpgradeOp.act action) :=
  fun m h => wp_aside (heffect m) fun _ o => h.logged (hstep o)

lemma request {step : Step} (hquery : ∀ action, step ≠ .act action)
    (hstep : ∀ o, strands (step, o) = false) : Aside (Prog.request step : UpgradeOp step.Reply) :=
  fun _ h => wp_query hquery trivial fun o _ => ⟨trivial, h.logged (hstep o)⟩

end Aside

lemma aside_assertVersion (value message : String) : Aside (assertVersion value message) :=
  .ite (.pure ()) (.fail _ _)

lemma aside_readActive : Aside readActive :=
  .settled (.request (fun _ => nofun) fun _ => rfl)

lemma aside_assertInstalled (version : String) : Aside (act (.assertInstalled version)) :=
  .act (fun _ => rfl) fun _ => rfl

lemma aside_resolveVersion (selection : String) : Aside (resolveVersion selection) := by
  refine .ite (.bind (.tryCatch (.settled (.request (fun _ => nofun) fun _ => rfl))
    fun _ => .fail _ _) fun version => ?_) (.bind (aside_assertVersion _ _) fun _ => .pure _)
  exact .bind (aside_assertVersion _ _) fun _ => .ite (.fail _ _) (.pure _)

lemma aside_verifyActive (active : Option ActiveState) : Aside (match active with
    | some state =>
      if state.current = "" then Pure.pure ()
      else do
        assertVersion state.current "active version is invalid"
        act (.assertInstalled state.current)
    | none => Pure.pure ()) := by
  cases active with
  | none => exact .pure ()
  | some state =>
    exact .ite (.pure ()) (.bind (aside_assertVersion _ _) fun _ => aside_assertInstalled _)

lemma aside_prepare (selection : String) : Aside (prepare selection) := by
  refine .bind (aside_resolveVersion selection) fun version => .bind aside_readActive fun active => ?_
  refine .bind (aside_verifyActive active) fun _ => .bind (.act (fun _ => rfl) fun _ => rfl) fun _ => ?_
  exact .bind (.act (fun _ => rfl) fun _ => rfl) fun _ => .pure _

lemma aside_prepareRollback : Aside prepareRollback := by
  refine .bind aside_readActive fun active => ?_
  rcases active.bind fun state => state.previous.map fun previous => (state, previous) with
    _ | ⟨state, previous⟩
  · exact .fail _ _
  · refine .ite (.fail _ _) (.bind (aside_assertInstalled _) fun _ => ?_)
    exact .bind (aside_assertInstalled _) fun _ => .pure _

lemma aside_prepareOperation (options : UpgradeCoordinatorOptions) :
    Aside (prepareOperation options) := by
  unfold prepareOperation
  cases options.operation with
  | rollback => exact aside_prepareRollback
  | upgrade => exact aside_prepare _

/-! ### The hold -/

lemma wp_resumeLaunches {requestId : String} (h : Resumable m) :
    wp observed (resumeLaunches requestId)
      (either (fun _ => Untouched) fun _ t => t.log.any resumeFailed = true) m := by
  have hremove (t : Machine) (ht : t.log.any strands = false) (hpaused : t.paused = false) :
      wp observed (act .removeHold)
        (either (fun _ => Untouched) fun _ t => t.log.any resumeFailed = true) t := by
    refine wp_act trivial ⟨trivial, ⟨rfl, hpaused⟩, ?_⟩ (fun f => ⟨trivial, rfl⟩)
      fun _ f => ⟨trivial, rfl⟩
    exact ht
  rw [resumeLaunches, wp_bind, wp_gets, either_ok]
  cases hrunning : m.supervisorWasRunning with
  | false => exact hremove m h.1 (h.2 hrunning)
  | true =>
    have hresume (t : Machine) (ht : t.log.any strands = false) :
        wp observed (act (.resume requestId))
          (either (fun _ => wp observed (act .removeHold)
            (either (fun _ => Untouched) fun _ t => t.log.any resumeFailed = true))
            fun _ t => t.log.any resumeFailed = true) t := by
      refine wp_act trivial ⟨trivial, ?_⟩ (fun f => ⟨trivial, rfl⟩) fun _ f => ⟨trivial, rfl⟩
      exact hremove _ ht rfl
    simp only [if_true, wp_bind, wp_tryCatch]
    refine wp_aside rfl fun r o => ?_
    have hlogged : (m.logged (.act .release) o).log.any strands = false := by
      simpa [Machine.logged, strands] using h.1
    cases r <;> exact hresume _ hlogged

lemma wp_settleLifecycleWork (polls : Nat) (h : Resumable m) :
    wp observed (settleLifecycleWork polls) (fun _ => Resumable) m := by
  induction polls generalizing m with
  | zero =>
    rw [settleLifecycleWork, wp_bind]
    refine wp_pollWork trivial fun o ids => ⟨trivial, ?_⟩
    rw [either_ok, wp_ite]
    split_ifs
    · exact h.logged rfl
    · exact h.logged rfl
  | succ polls ih =>
    rw [settleLifecycleWork, wp_bind]
    refine wp_pollWork trivial fun o ids => ⟨trivial, ?_⟩
    rw [either_ok, wp_ite]
    split_ifs
    · exact ih (h.logged rfl)
    · exact h.logged rfl

lemma wp_snapshot (h : Resumable m) : wp observed snapshot (fun _ => Resumable) m := by
  rw [snapshot, wp_bind]
  refine wp_settled.mpr (wp_query (fun _ => nofun) trivial fun o bindings => ⟨trivial, ?_⟩)
  cases bindings <;> exact h.logged rfl

lemma wp_pauseLaunches {options : UpgradeCoordinatorOptions} (h : Untouched m) :
    wp observed (pauseLaunches options) (either (fun _ => Resumable) fun _ => LeavesFree) m := by
  have hsettle (t : Machine) (ht : Resumable t) :
      wp observed (tryCatch (settleLifecycleWork options.settlePolls) fun error => do
          tryCatch (resumeLaunches options.requestId) fun _ => pure ()
          throw error)
        (either (fun _ => Resumable) fun _ => LeavesFree) t := by
    rw [wp_tryCatch]
    refine wp_mono (fun r u hu => ?_) (wp_settleLifecycleWork _ ht)
    cases r with
    | ok _ => exact hu
    | error e =>
      simp only [either_error, wp_bind, wp_tryCatch]
      refine wp_mono (fun r v hv => ?_) (wp_resumeLaunches hu)
      cases r with
      | ok _ => exact hv.leavesFree
      | error e => exact leavesFree_of_failed hv
  have hpause (t : Machine) (ht : t.log.any strands = false) (hheld : t.holdFile = true) :
      wp observed (act .pause)
        (either (fun _ u => u.log.any strands = false ∧ u.supervisorWasRunning =
          t.supervisorWasRunning) fun _ => LeavesFree) t := by
    have hbound (u : Machine) (hu : u.holdFile = true) : ¬ u.Free :=
      fun hfree => by cases hu.symm.trans hfree.1
    refine wp_act trivial ⟨trivial, ht, rfl⟩ (fun f => ⟨trivial, ?_⟩) fun _ f => ⟨trivial, ?_⟩
    · exact leavesFree_of_stranded (hbound _ hheld) rfl
    · exact leavesFree_of_stranded (hbound _ hheld) rfl
  rw [pauseLaunches, wp_bind]
  refine wp_aside rfl fun r o => ?_
  have hdir : Untouched (m.logged (.act .mkdirState) o) := h.logged rfl
  cases r with
  | error e => exact hdir.leavesFree
  | ok _ =>
    rw [either_ok, wp_bind]
    refine wp_act trivial ⟨trivial, ?_⟩ (fun f => ⟨trivial, ?_⟩) fun _ f => ⟨trivial, ?_⟩
    · rw [either_ok, wp_bind]
      refine wp_identity trivial fun o running => ⟨trivial, ?_⟩
      simp only [either_ok, wp_bind, wp_update, wp_ite]
      refine ⟨trivial, ?_⟩
      split_ifs with hrunning
      · refine wp_mono (fun r t ht => ?_) (hpause _ ?_ rfl)
        · cases r with
          | ok _ => exact hsettle t ⟨ht.1, fun hstopped => by simp [ht.2, hrunning] at hstopped⟩
          | error e => exact ht
        · exact hdir.2
      · exact ⟨hdir.2, fun _ => hdir.1.2⟩
    · exact (hdir.logged rfl).leavesFree
    · exact leavesFree_of_stranded (fun hfree => by cases hfree.1) rfl

end Steps

/-! ### The whole operation -/

/-- Whatever it fails with names its receipt. -/
def Coordinated {α : Type} (p : UpgradeOp α) : Prop :=
  ∀ m, wp observed p (fun r _ => ∀ f, r ≠ .error (.failure f)) m

namespace Coordinated

variable {α β : Type}

lemma pure (a : α) : Coordinated (Pure.pure a : UpgradeOp α) := fun _ _ => nofun

lemma coordinator (message : String) (result : UpgradeResult) :
    Coordinated (MonadExcept.throw (.coordinator message result) : UpgradeOp α) :=
  fun _ _ => nofun

lemma bind {p : UpgradeOp α} {f : α → UpgradeOp β} (hp : Coordinated p)
    (hf : ∀ a, Coordinated (f a)) : Coordinated (p >>= f) := by
  intro m
  rw [wp_bind]
  refine wp_mono (fun r t ht => ?_) (hp m)
  cases r with
  | ok a => exact hf a t
  | error e => exact fun f h => ht f (congrArg _ (Except.error.inj h))

lemma tryCatch {p : UpgradeOp α} {h : UpgradeError → UpgradeOp α} (hh : ∀ e, Coordinated (h e)) :
    Coordinated (MonadExcept.tryCatch p h) := by
  intro m
  rw [wp_tryCatch]
  refine wp_mono (fun r t _ => ?_) (wp_top (fun _ _ => trivial) fun _ _ => trivial)
  cases r with
  | ok a => exact fun _ => nofun
  | error e => exact hh e t

lemma result {p : UpgradeOp α} {f : Except UpgradeError α → UpgradeOp β}
    (hf : ∀ r, Coordinated (f r)) : Coordinated (p.result >>= f) := by
  intro m
  rw [wp_bind, wp_result]
  exact wp_mono (fun r t _ => hf r t) (wp_top (fun _ _ => trivial) fun _ _ => trivial)

end Coordinated

lemma coordinated_commitOr {commit : UpgradeResult → UpgradeOp Unit} {result : UpgradeResult}
    {message : String} : Coordinated (commitOr commit result message) :=
  .tryCatch fun _ => .coordinator _ _

lemma coordinated_switchRuntime {options : UpgradeCoordinatorOptions}
    {snapshot : ManagedRuntimeSnapshot} {prepared : PreparedUpdate}
    {commit : UpgradeResult → UpgradeOp Unit} :
    Coordinated (switchRuntime options snapshot prepared commit) := by
  refine .result fun candidate => ?_
  cases candidate with
  | ok result => exact .bind (.tryCatch fun _ => .coordinator _ _) fun _ => .pure _
  | error candidateError =>
    unfold recoverPrevious
    cases prepared.previous with
    | none => exact .bind coordinated_commitOr fun _ => .coordinator _ _
    | some previous =>
      refine .result fun restored => ?_
      cases restored with
      | ok _ =>
        refine .bind coordinated_commitOr fun _ => ?_
        exact .bind (.tryCatch fun _ => .coordinator _ _) fun _ => .coordinator _ _
      | error rollbackError => exact .bind coordinated_commitOr fun _ => .coordinator _ _

lemma wp_coordinateUpgrade {options : UpgradeCoordinatorOptions}
    {commit : UpgradeResult → UpgradeOp Unit} {m : Machine} (h : Untouched m) :
    wp observed (coordinateUpgrade options commit)
      (fun r t => ∀ f, r = .error (.failure f) → LeavesFree t) m := by
  have hswitch (snapshot : ManagedRuntimeSnapshot) (prepared : PreparedUpdate) (t : Machine) :
      wp observed (switchRuntime options snapshot prepared commit)
        (fun r t => ∀ f, r = .error (.failure f) → LeavesFree t) t :=
    wp_mono (fun r u hu f hr => absurd hr (hu f)) (coordinated_switchRuntime t)
  rw [coordinateUpgrade, wp_ite]
  split_ifs
  · exact fun _ _ => h.leavesFree
  · rw [wp_bind]
    refine wp_aside rfl fun r o => ?_
    have hlock : Untouched (m.logged (.act .lock) o) := h.logged rfl
    cases r with
    | error e => exact fun _ _ => hlock.leavesFree
    | ok _ =>
      rw [either_ok, wp_bind]
      refine wp_mono (fun r t ht => ?_) (aside_prepareOperation options _ hlock)
      cases r with
      | error e => exact fun _ _ => ht.leavesFree
      | ok prepared =>
        rw [either_ok, wp_bind]
        refine wp_mono (fun r u hu => ?_) (wp_pauseLaunches ht)
        cases r with
        | error e => exact fun _ _ => hu
        | ok _ =>
          rw [either_ok, wp_bind, wp_tryCatch]
          refine wp_mono (fun r v hv => ?_) (wp_snapshot hu)
          cases r with
          | ok snapshot => exact hswitch snapshot prepared v
          | error e =>
            simp only [either_error, wp_bind]
            refine wp_mono (fun r w hw => ?_) (wp_resumeLaunches hv)
            cases r with
            | ok _ => exact fun _ _ => hw.leavesFree
            | error e => exact fun _ _ => leavesFree_of_failed hw

/-- An upgrade to `1.1.0`; its deadline leaves time for one poll. -/
def upgradeTo110 : UpgradeCoordinatorOptions where
  requestId := "0190c2a0-1111-7222-8333-444444444444"
  operation := .upgrade
  selection := "1.1.0"
  restartsInPlace := false
  settlePolls := 0

def installed100 : Machine := Machine.start (some ⟨"1.0.0", none⟩) none false false

/-- The steps up to the pause: the Coordinator is running. -/
def upToPause : List Outcome := List.replicate 8 .done

def refused : Failure := ⟨"socket closed", none⟩

end Coforge.Release
