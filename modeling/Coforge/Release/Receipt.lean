import Coforge.Release.Hold

/-!
# The receipt of an upgrade

What a receipt says is read off the log of the steps before it: which version was prepared, which
was activated last, and which passed its probe since. `issues` states what a step may count on, so
that a `wp` of the whole run says that the receipt is true, that launches are resumed only after
it, and that it is written once.
-/

namespace Coforge.Release

open Async
open Async.Prog hiding throw
open UpgradeOp

/-! ### Reading the log -/

abbrev Log : Type := List (Step × Outcome)

/-- The steps of a switch: they touch the processes or the selected version. -/
def Step.switches : Step → Bool
  | .act action =>
    match action with
    | .holdRunners | .assertRestartable | .stopHost | .writeActive _ | .linkActive _
    | .restartHost | .ensureRunning | .probe _ => true
    | _ => false
  | _ => false

/-- No switch has begun. -/
def Unswitched (log : Log) : Prop := ∀ x ∈ log, x.1.switches = false

/-- The receipts written so far. -/
def written : Log → List UpgradeResult
  | []                                        => []
  | (.act (.writeReceipt result), .done) :: log => result :: written log
  | _ :: log                                  => written log

/-- The version of the last activation, if that was completed. -/
def lastActivated : Log → Option String
  | []                                        => none
  | (.act (.linkActive version), .done) :: _  => some version
  | (.act (.writeActive _), _) :: _           => none
  | _ :: log                                  => lastActivated log

/-- The version whose probe passed as the last step of a switch. -/
def probed : Log → Option String
  | [] => none
  | (step, o) :: log =>
    if step.switches then
      match step, o with
      | .act (.probe version), .done => some version
      | _, _                         => none
    else probed log

/-- The version that was installed last. -/
def lastInstalled : Log → Option String
  | []                                           => none
  | (.act (.installVersion version), .done) :: _ => some version
  | _ :: log                                     => lastInstalled log

/-- The version that an operation prepared: an upgrade installs it, and a rollback goes back to
the previous one. -/
def preparedVersion (operation : UpgradeOperationKind) (before : Option ActiveState) (log : Log) :
    Option String :=
  match operation with
  | .upgrade  => lastInstalled log
  | .rollback => before.bind (·.previous)

/-- A receipt that lets Workspaces launch. -/
def UpgradeResult.Releases (result : UpgradeResult) : Prop :=
  result.status = .succeeded ∨ result.errorCode = some rolledBackCode

/-- What a receipt says is so. -/
structure Truthful (operation : UpgradeOperationKind) (before : Option ActiveState)
    (result : UpgradeResult) (m : Machine) : Prop where
  succeeded : result.status = .succeeded → ∃ version, result.version = some version ∧
    preparedVersion operation before m.log = some version ∧
    m.active.map (·.current) = some version ∧ lastActivated m.log = some version ∧
    probed m.log = some version
  rolledBack : result.errorCode = some rolledBackCode → ∃ state, before = some state ∧
    result.restoredVersion = some state.current ∧ m.active = some state ∧
    lastActivated m.log = some state.current ∧ probed m.log = some state.current

/-- Once a switch has begun, a receipt that lets Workspaces launch is durable. -/
def MayResume (m : Machine) : Prop :=
  Unswitched m.log ∨ ∃ result, written m.log = [result] ∧ m.receipt = some result ∧ result.Releases

/-- What the coordinator owes before a step. -/
def issues (operation : UpgradeOperationKind) (before : Option ActiveState) :
    Step → Machine → Prop
  | .act (.writeReceipt result), m => written m.log = [] ∧ Truthful operation before result m
  | .act (.resume _), m            => MayResume m
  | .act .removeHold, m            => MayResume m
  | _, _                           => True

/-- A receipt once written stays, and none is written twice. -/
structure KeepsReceipt (m t : Machine) : Prop where
  stays : written m.log ≠ [] → written t.log = written m.log ∧ t.receipt = m.receipt
  once : written m.log = [] → written t.log = [] ∧ t.receipt = m.receipt ∨
    ∃ result, written t.log = [result] ∧ t.receipt = some result

lemma KeepsReceipt.refl (m : Machine) : KeepsReceipt m m :=
  ⟨fun _ => ⟨rfl, rfl⟩, fun h => .inl ⟨h, rfl⟩⟩

variable {t u : Machine}

lemma KeepsReceipt.trans {m : Machine} (hmt : KeepsReceipt m t) (htu : KeepsReceipt t u) :
    KeepsReceipt m u := by
  constructor
  · intro hm
    obtain ⟨hwritten, hreceipt⟩ := hmt.stays hm
    obtain ⟨hwritten', hreceipt'⟩ := htu.stays (by rwa [hwritten])
    exact ⟨hwritten'.trans hwritten, hreceipt'.trans hreceipt⟩
  · intro hm
    rcases hmt.once hm with ⟨hwritten, hreceipt⟩ | ⟨result, hwritten, hreceipt⟩
    · rcases htu.once hwritten with ⟨hnone, hsame⟩ | hsome
      · exact .inl ⟨hnone, hsame.trans hreceipt⟩
      · exact .inr hsome
    · obtain ⟨hwritten', hreceipt'⟩ := htu.stays (by rw [hwritten]; exact List.cons_ne_nil _ _)
      exact .inr ⟨result, hwritten'.trans hwritten, hreceipt'.trans hreceipt⟩

/-! ### Steps that leave the evidence alone -/

/-- Receipts and the prepared version are what they were. -/
structure Silent (m t : Machine) : Prop where
  receipt : t.receipt = m.receipt
  committedResult : t.committedResult = m.committedResult
  written : written t.log = written m.log
  installed : lastInstalled t.log = lastInstalled m.log

/-- So is the selected version. -/
structure Still (m t : Machine) : Prop extends Silent m t where
  active : t.active = m.active
  activated : lastActivated t.log = lastActivated m.log

lemma Silent.refl (m : Machine) : Silent m m := ⟨rfl, rfl, rfl, rfl⟩

lemma Silent.trans {m : Machine} (hmt : Silent m t) (htu : Silent t u) : Silent m u :=
  ⟨htu.receipt.trans hmt.receipt, htu.committedResult.trans hmt.committedResult,
    htu.written.trans hmt.written, htu.installed.trans hmt.installed⟩

lemma Silent.keepsReceipt {m : Machine} (h : Silent m t) : KeepsReceipt m t :=
  ⟨fun _ => ⟨h.written, h.receipt⟩, fun hm => .inl ⟨h.written.trans hm, h.receipt⟩⟩

lemma Still.refl (m : Machine) : Still m m := ⟨.refl m, rfl, rfl⟩

lemma Still.trans {m : Machine} (hmt : Still m t) (htu : Still t u) : Still m u :=
  ⟨hmt.toSilent.trans htu.toSilent, htu.active.trans hmt.active, htu.activated.trans hmt.activated⟩

/-- The actions that change no evidence. -/
def Action.still : Action → Bool
  | .installVersion _ | .writeActive _ | .linkActive _ | .writeReceipt _ => false
  | _ => true

lemma Still.logged {m : Machine} {step : Step} {o : Outcome}
    (h : ∀ action, step = .act action → action.still = true) : Still m (m.logged step o) := by
  cases step with
  | act action =>
    have hstill := h action rfl
    cases action with
    | installVersion version => exact nomatch hstill
    | writeActive state => exact nomatch hstill
    | linkActive version => exact nomatch hstill
    | writeReceipt result => exact nomatch hstill
    | _ => exact ⟨⟨rfl, rfl, rfl, rfl⟩, rfl, rfl⟩
  | _ => exact ⟨⟨rfl, rfl, rfl, rfl⟩, rfl, rfl⟩

lemma Still.effect {m : Machine} {action : Action} (h : action.still = true) :
    Still m (action.effect m) := by
  cases action with
  | writeActive state => exact nomatch h
  | writeReceipt result => exact nomatch h
  | _ => exact ⟨⟨rfl, rfl, rfl, rfl⟩, rfl, rfl⟩

lemma Unswitched.logged {m : Machine} {step : Step} {o : Outcome} (h : Unswitched m.log)
    (hstep : step.switches = false) : Unswitched (m.logged step o).log := by
  intro x hx
  rcases List.mem_cons.mp hx with rfl | hx
  · exact hstep
  · exact h x hx

/-! ### Rules -/

section Rules

variable {operation : UpgradeOperationKind} {before : Option ActiveState} {m : Machine} {α : Type}

abbrev answering (operation : UpgradeOperationKind) (before : Option ActiveState) :
    Context Machine Step.Reply :=
  alone Step.answer KeepsReceipt (issues operation before)

variable {action : Action} {Q : Except UpgradeError Unit → Machine → Prop}

/-- Later than `m`, with the same evidence, and with no switch unless one had begun or the step is
one of a switch. -/
lemma wp_still (hissue : issues operation before (.act action) m) (hstill : action.still = true)
    (hok : ∀ t, Still m t →
      (Step.switches (.act action) = false → Unswitched m.log → Unswitched t.log) → Q (.ok ()) t)
    (herror : ∀ f t, Still m t →
      (Step.switches (.act action) = false → Unswitched m.log → Unswitched t.log) →
      Q (.error (.failure f)) t) : wp (answering operation before) (act action) Q m := by
  have hsame (t : Machine) (o : Outcome) (ht : Still m t) (hlog : t.log = m.log) :
      Still m (t.logged (.act action) o) ∧ (Step.switches (.act action) = false →
        Unswitched m.log → Unswitched (t.logged (.act action) o).log) := by
    refine ⟨ht.trans (.logged fun a ha => by cases ha; exact hstill), fun hstep hm => ?_⟩
    exact Unswitched.logged (by rwa [hlog]) hstep
  have hlog : (action.effect m).log = m.log := by cases action <;> rfl
  refine wp_act hissue ?_ (fun f => ?_) fun _ f => ?_
  · obtain ⟨hkept, hun⟩ := hsame _ .done (Still.effect hstill) hlog
    exact ⟨hkept.keepsReceipt, hok _ hkept hun⟩
  · obtain ⟨hkept, hun⟩ := hsame m (.failed f) (.refl m) rfl
    exact ⟨hkept.keepsReceipt, herror f _ hkept hun⟩
  · obtain ⟨hkept, hun⟩ := hsame _ (.lost f) (Still.effect hstill) hlog
    exact ⟨hkept.keepsReceipt, herror f _ hkept hun⟩

/-- What holds before the switch: the same evidence, and no switch. -/
structure Idle (m t : Machine) : Prop extends Still m t where
  unswitched : Unswitched t.log

lemma Idle.refl (h : Unswitched m.log) : Idle m m := ⟨.refl m, h⟩

variable {t : Machine}

lemma Idle.trans {m u : Machine} (hmt : Idle m t) (htu : Idle t u) : Idle m u :=
  ⟨hmt.toStill.trans htu.toStill, htu.unswitched⟩

lemma Idle.logged {step : Step} {o : Outcome} (h : Unswitched m.log)
    (hquery : ∀ action, step ≠ .act action) : Idle m (m.logged step o) := by
  refine ⟨.logged fun action ha => absurd ha (hquery action), h.logged ?_⟩
  cases step with
  | act action => exact absurd rfl (hquery action)
  | _ => rfl

lemma wp_idle (h : Unswitched m.log) (hissue : issues operation before (.act action) m)
    (hstill : action.still = true) (hstep : Step.switches (.act action) = false)
    (hok : ∀ t, Idle m t → Q (.ok ()) t) (herror : ∀ f t, Idle m t → Q (.error (.failure f)) t) :
    wp (answering operation before) (act action) Q m :=
  wp_still hissue hstill (fun t ht hun => hok t ⟨ht, hun hstep h⟩)
    fun f t ht hun => herror f t ⟨ht, hun hstep h⟩

lemma wp_look {step : Step} {Q : Except UpgradeError step.Reply → Machine → Prop}
    (h : Unswitched m.log) (hquery : ∀ action, step ≠ .act action)
    (hQ : ∀ r t, Idle m t → Q (.ok r) t) : wp (answering operation before) (request step) Q m := by
  have hissue : issues operation before step m := by
    cases step with
    | act action => exact absurd rfl (hquery action)
    | _ => trivial
  refine wp_query hquery hissue fun o r => ?_
  have hidle : Idle m (m.logged step o) := .logged h hquery
  exact ⟨hidle.keepsReceipt, hQ r _ hidle⟩

lemma wp_readActive {Q : Except UpgradeError (Option ActiveState) → Machine → Prop}
    (hok : ∀ t, Still m t → (Unswitched m.log → Unswitched t.log) → Q (.ok m.active) t)
    (herror : ∀ f t, Still m t → (Unswitched m.log → Unswitched t.log) →
      Q (.error (.failure f)) t) : wp (answering operation before) readActive Q m := by
  refine wp_settled.mpr (@wp_step _ _ _ .readActive _ trivial fun o r t hturn => ?_)
  obtain ⟨content, hread, heq⟩ := Option.map_eq_some_iff.mp hturn
  cases heq
  have hstill : Still m (m.logged .readActive o) := .logged fun _ => nofun
  have hun : Unswitched m.log → Unswitched (m.logged .readActive o).log := fun h => h.logged rfl
  refine ⟨hstill.keepsReceipt, ?_⟩
  cases o with
  | done =>
    cases hread
    exact hok _ hstill hun
  | failed f =>
    cases hread
    exact herror _ _ hstill hun
  | lost f => exact nomatch hread
  | version text => exact nomatch hread
  | runtimes bindings => exact nomatch hread
  | underWay ids => exact nomatch hread

/-- An error that says nothing of a receipt. -/
def UpgradeError.Early : UpgradeError → Prop
  | .failure _       => True
  | .coordinator _ _ => False

/-- A program of the time before the switch. -/
def Idles (operation : UpgradeOperationKind) (before : Option ActiveState) (p : UpgradeOp α) :
    Prop :=
  ∀ m, Unswitched m.log → wp (answering operation before) p
    (either (fun _ t => Idle m t) fun e t => Idle m t ∧ e.Early) m

namespace Idles

variable {β : Type} {p q : UpgradeOp α} {f : α → UpgradeOp β}

lemma pure (a : α) : Idles operation before (Pure.pure a : UpgradeOp α) := fun _ h => .refl h

lemma throw {e : UpgradeError} (he : e.Early) :
    Idles operation before (MonadExcept.throw e : UpgradeOp α) := fun _ h => ⟨.refl h, he⟩

lemma bind (hp : Idles operation before p) (hf : ∀ a, Idles operation before (f a)) :
    Idles operation before (p >>= f) := by
  intro m h
  rw [wp_bind]
  refine wp_mono (fun r t ht => ?_) (hp m h)
  cases r with
  | error e => exact ht
  | ok a =>
    have hidle : Idle m t := ht
    refine wp_mono (fun r u hu => ?_) (hf a t hidle.unswitched)
    cases r with
    | ok b => exact hidle.trans hu
    | error e => exact ⟨hidle.trans hu.1, hu.2⟩

lemma ite {P : Prop} [Decidable P] (hp : Idles operation before p)
    (hq : Idles operation before q) : Idles operation before (if P then p else q) := by
  split_ifs
  · exact hp
  · exact hq

lemma tryCatch {h : UpgradeError → UpgradeOp α} (hp : Idles operation before p)
    (hh : ∀ e, e.Early → Idles operation before (h e)) :
    Idles operation before (MonadExcept.tryCatch p h) := by
  intro m hm
  rw [wp_tryCatch]
  refine wp_mono (fun r t ht => ?_) (hp m hm)
  cases r with
  | ok a => exact ht
  | error e =>
    have hidle : Idle m t := ht.1
    refine wp_mono (fun r u hu => ?_) (hh e ht.2 t hidle.unswitched)
    cases r with
    | ok b => exact hidle.trans hu
    | error e' => exact ⟨hidle.trans hu.1, hu.2⟩

lemma settled {p : UpgradeOp (Except Failure α)} (hp : Idles operation before p) :
    Idles operation before (UpgradeOp.settled p) := by
  refine hp.bind fun r m h => ?_
  cases r with
  | ok a => exact .refl h
  | error f => exact ⟨.refl h, trivial⟩

lemma gets (f : Machine → α) : Idles operation before (Prog.gets f) := fun _ h => .refl h

lemma request {step : Step} (hquery : ∀ action, step ≠ .act action) :
    Idles operation before (Prog.request step : UpgradeOp step.Reply) :=
  fun _ h => wp_look h hquery fun _ _ ht => ht

lemma act {action : Action} (hissue : ∀ m, Unswitched m.log → issues operation before (.act action) m)
    (hstill : action.still = true) (hstep : Step.switches (.act action) = false) :
    Idles operation before (UpgradeOp.act action) := by
  refine fun m h => wp_idle h (hissue m h) hstill hstep (fun t ht => ht) fun f t ht => ?_
  exact ⟨ht, trivial⟩

end Idles

lemma idles_assertVersion (value message : String) :
    Idles operation before (assertVersion value message) :=
  .ite (.pure ()) (.throw trivial)

lemma idles_assertInstalled (version : String) :
    Idles operation before (act (.assertInstalled version)) :=
  .act (fun _ _ => trivial) rfl rfl

lemma idles_resolveVersion (selection : String) :
    Idles operation before (resolveVersion selection) := by
  refine .ite (.bind (.tryCatch (.settled (.request fun _ => nofun)) fun _ _ => .throw trivial)
    fun version => ?_) (.bind (idles_assertVersion _ _) fun _ => .pure _)
  exact .bind (idles_assertVersion _ _) fun _ => .ite (.throw trivial) (.pure _)

lemma idles_resumeLaunches (requestId : String) :
    Idles operation before (resumeLaunches requestId) := by
  refine .bind (.gets _) fun running => .bind (.ite ?_ (.pure ())) fun _ => ?_
  · refine .bind (.tryCatch (.act (fun _ _ => trivial) rfl rfl) fun _ _ => .pure ()) fun _ => ?_
    exact .act (fun _ h => .inl h) rfl rfl
  · exact .act (fun _ h => .inl h) rfl rfl

lemma idles_settleLifecycleWork (polls : Nat) :
    Idles operation before (settleLifecycleWork polls) := by
  induction polls with
  | zero =>
    refine .bind (p := pollWork) (.request fun _ => nofun) fun ids => ?_
    exact .ite (.throw trivial) (.pure ())
  | succ polls ih =>
    refine .bind (p := pollWork) (.request fun _ => nofun) fun ids => ?_
    exact .ite ih (.pure ())

lemma idles_update_running (running : Bool) :
    Idles operation before (update fun m => { m with supervisorWasRunning := running }) := by
  intro m h
  rw [wp_update]
  have hidle : Idle m { m with supervisorWasRunning := running } :=
    ⟨⟨⟨rfl, rfl, rfl, rfl⟩, rfl, rfl⟩, h⟩
  exact ⟨hidle.keepsReceipt, hidle⟩

lemma idles_pauseLaunches (options : UpgradeCoordinatorOptions) :
    Idles operation before (pauseLaunches options) := by
  refine .bind (.act (fun _ _ => trivial) rfl rfl) fun _ =>
    .bind (.act (fun _ _ => trivial) rfl rfl) fun _ =>
    .bind (p := identity) (.request fun _ => nofun) fun running =>
    .bind (idles_update_running running) fun _ => .ite ?_ (.pure ())
  refine .bind (.act (fun _ _ => trivial) rfl rfl) fun _ =>
    .tryCatch (idles_settleLifecycleWork _) fun error hearly => ?_
  exact .bind (.tryCatch (idles_resumeLaunches _) fun _ _ => .pure ()) fun _ => .throw hearly

lemma idles_snapshot : Idles operation before snapshot :=
  .bind (.settled (.request fun _ => nofun)) fun _ => .bind (.gets _) fun _ => .pure _

/-! ### What is prepared -/

/-- Before the switch: nothing is written, and the version selected is the one before. -/
structure Fresh (before : Option ActiveState) (m : Machine) : Prop where
  active : m.active = before
  written : written m.log = []
  committedResult : m.committedResult = none
  unswitched : Unswitched m.log

lemma Fresh.of_idle (h : Fresh before m) (ht : Idle m t) : Fresh before t :=
  ⟨ht.active.trans h.active, ht.written.trans h.written,
    ht.committedResult.trans h.committedResult, ht.unswitched⟩

/-- The update that was prepared, and what it takes to undo it. -/
structure Prepared (operation : UpgradeOperationKind) (before : Option ActiveState)
    (prepared : PreparedUpdate) (m : Machine) : Prop where
  version : preparedVersion operation before m.log = some prepared.version
  previous : prepared.previous = before.map (·.current)
  rollbackVersion : ∀ state, before = some state → prepared.rollbackVersion = state.previous

lemma Prepared.of_silent {prepared : PreparedUpdate}
    (h : Prepared operation before prepared m) (ht : Silent m t) :
    Prepared operation before prepared t := by
  refine ⟨?_, h.previous, h.rollbackVersion⟩
  rw [← h.version]
  cases operation with
  | upgrade => exact ht.installed
  | rollback => rfl

variable {version : String}

lemma wp_installVersion (h : Fresh before m)
    (hok : ∀ t, Fresh before t → lastInstalled t.log = some version → Q (.ok ()) t)
    (herror : ∀ f t, Fresh before t → Q (.error (.failure f)) t) :
    wp (answering operation before) (act (.installVersion version)) Q m := by
  have hlogged (o : Outcome) : Fresh before (m.logged (.act (.installVersion version)) o) :=
    ⟨h.active, h.written, h.committedResult, h.unswitched.logged rfl⟩
  have hkeeps (o : Outcome) : KeepsReceipt m (m.logged (.act (.installVersion version)) o) :=
    ⟨fun _ => ⟨rfl, rfl⟩, fun hm => .inl ⟨hm, rfl⟩⟩
  exact wp_act trivial ⟨hkeeps _, hok _ (hlogged _) rfl⟩
    (fun _ => ⟨hkeeps _, herror _ _ (hlogged _)⟩) fun _ _ => ⟨hkeeps _, herror _ _ (hlogged _)⟩

/-- How a program of the time before the switch ends: the machine is fresh, and what it fails
with says nothing of a receipt. -/
abbrev freshly (before : Option ActiveState) (P : α → Machine → Prop) :
    Except UpgradeError α → Machine → Prop :=
  either (fun a t => Fresh before t ∧ P a t) fun e t => Fresh before t ∧ e.Early

lemma Idles.fresh {p : UpgradeOp α} (hp : Idles operation before p) (h : Fresh before m) :
    wp (answering operation before) p (freshly before fun _ _ => True) m := by
  refine wp_mono (fun r t ht => ?_) (hp m h.unswitched)
  cases r with
  | ok a => exact ⟨h.of_idle ht, trivial⟩
  | error e => exact ⟨h.of_idle ht.1, ht.2⟩

lemma Idles.wp_bind_fresh {β : Type} {p : UpgradeOp β} {f : β → UpgradeOp α}
    {P : α → Machine → Prop} (hp : Idles operation before p) (h : Fresh before m)
    (hf : ∀ b t, Fresh before t → wp (answering operation before) (f b) (freshly before P) t) :
    wp (answering operation before) (p >>= f) (freshly before P) m := by
  rw [wp_bind]
  refine wp_mono (fun r t ht => ?_) (hp.fresh h)
  cases r with
  | ok b => exact hf b t ht.1
  | error e => exact ht

lemma idles_verifyActive (active : Option ActiveState) : Idles .upgrade before (match active with
    | some state =>
      if state.current = "" then Pure.pure ()
      else do
        assertVersion state.current "active version is invalid"
        act (.assertInstalled state.current)
    | none => Pure.pure ()) := by
  cases active with
  | none => exact .pure ()
  | some state =>
    exact .ite (.pure ()) (.bind (idles_assertVersion _ _) fun _ => idles_assertInstalled _)

lemma wp_prepare {selection : String} (h : Fresh before m) :
    wp (answering .upgrade before) (prepare selection)
      (freshly before fun prepared t => Prepared .upgrade before prepared t) m := by
  refine (idles_resolveVersion selection).wp_bind_fresh h fun version t ht => ?_
  rw [wp_bind]
  refine wp_readActive (fun u hu hun => ?_) fun e u hu hun =>
    ⟨ht.of_idle ⟨hu, hun ht.unswitched⟩, trivial⟩
  have hfresh : Fresh before u := ht.of_idle ⟨hu, hun ht.unswitched⟩
  refine (idles_verifyActive t.active).wp_bind_fresh hfresh fun _ v hv => ?_
  refine Idles.wp_bind_fresh (.act (fun _ _ => trivial) rfl rfl) hv fun _ w hw => ?_
  rw [wp_bind]
  refine wp_installVersion hw (fun x hx hinstalled => ⟨hx, hinstalled, ?_, ?_⟩)
    fun f x hx => ⟨hx, trivial⟩
  · rw [ht.active]
  · intro state hstate
    rw [ht.active, hstate]
    rfl

lemma wp_prepareRollback (h : Fresh before m) : wp (answering .rollback before) prepareRollback
      (freshly before fun prepared t => Prepared .rollback before prepared t) m := by
  rw [prepareRollback, wp_bind]
  refine wp_readActive (fun t ht hun => ?_) fun f t ht hun =>
    ⟨h.of_idle ⟨ht, hun h.unswitched⟩, trivial⟩
  have hfresh : Fresh before t := h.of_idle ⟨ht, hun h.unswitched⟩
  rw [either_ok]
  rcases hprevious : m.active.bind fun state => state.previous.map fun previous => (state, previous)
    with _ | ⟨state, previous⟩
  · exact ⟨hfresh, trivial⟩
  · simp only [wp_ite]
    split_ifs
    · exact ⟨hfresh, trivial⟩
    · obtain ⟨state', hstate, hmap⟩ := Option.bind_eq_some_iff.mp hprevious
      obtain ⟨previous', hprevious', heq⟩ := Option.map_eq_some_iff.mp hmap
      obtain ⟨rfl, rfl⟩ := Prod.mk.inj heq
      rw [h.active] at hstate
      have hprepared (u : Machine) : Prepared .rollback before
          { version := previous', previous := some state'.current
            rollbackVersion := some previous' } u := by
        subst hstate
        exact ⟨hprevious', rfl, fun s hs => by rw [← Option.some.inj hs]; exact hprevious'.symm⟩
      refine (idles_assertInstalled _).wp_bind_fresh hfresh fun _ u hu => ?_
      exact (idles_assertInstalled _).wp_bind_fresh hu fun _ v hv => ⟨hv, hprepared v⟩

/-! ### The switch -/

lemma wp_holdRunners
    (hQ : ∀ r t, Still m t → Q r t) : wp (answering operation before) holdRunners Q m := by
  rw [holdRunners, wp_bind, wp_gets, either_ok, wp_ite]
  split_ifs
  · exact wp_still trivial rfl (fun t ht _ => hQ _ t ht) fun f t ht _ => hQ _ t ht
  · exact hQ _ m (.refl m)

variable {restartsInPlace : Bool}

lemma wp_stop (hQ : ∀ r t, Still m t → Q r t) :
    wp (answering operation before) (stop restartsInPlace) Q m := by
  have hupdate (t : Machine) (ht : Still m t) (verified : Bool) :
      wp (answering operation before) (update fun m =>
        { m with inPlaceRestartVerified := m.inPlaceRestartVerified || verified }) Q t := by
    have hstill : Still t { t with inPlaceRestartVerified := t.inPlaceRestartVerified || verified } :=
      ⟨⟨rfl, rfl, rfl, rfl⟩, rfl, rfl⟩
    exact ⟨hstill.keepsReceipt, hQ _ _ (ht.trans hstill)⟩
  rw [stop, wp_bind, wp_read, either_ok, wp_ite]
  split_ifs
  · exact hQ _ m (.refl m)
  · rw [wp_bind, wp_tryCatch, wp_bind]
    exact wp_still trivial rfl (fun t ht _ => hupdate t ht true) fun f t ht _ => hupdate t ht false
  · rw [wp_bind, wp_tryCatch, wp_bind]
    exact wp_still trivial rfl (fun t ht _ => hupdate t ht true) fun f t ht _ => hQ _ t ht
  · rw [wp_tryCatch]
    exact wp_still trivial rfl (fun t ht _ => hQ _ t ht) fun f t ht _ => hQ _ t ht

lemma wp_start (hQ : ∀ r t, Still m t → Q r t) :
    wp (answering operation before) (start restartsInPlace) Q m := by
  rw [start, wp_bind, wp_gets, either_ok]
  simp only [wp_ite]
  split_ifs
  · exact hQ _ m (.refl m)
  · exact wp_still trivial rfl (fun t ht _ => hQ _ t ht) fun f t ht _ => hQ _ t ht
  · exact wp_still trivial rfl (fun t ht _ => hQ _ t ht) fun f t ht _ => hQ _ t ht

/-- The state that was activated last, both on file and by the links. -/
structure Activated (state : ActiveState) (m : Machine) : Prop where
  active : m.active = some state
  activated : lastActivated m.log = some state.current

lemma Activated.of_still {state : ActiveState} (h : Activated state m)
    (ht : Still m t) : Activated state t :=
  ⟨ht.active.trans h.active, ht.activated.trans h.activated⟩

/-- How a program of a switch ends: `P` holds if all went well, and receipts and the prepared
version are what they were. -/
abbrev silently (m : Machine) (P : Machine → Prop) : Except UpgradeError Unit → Machine → Prop :=
  either (fun _ t => Silent m t ∧ P t) fun _ t => Silent m t

lemma wp_activate {state : ActiveState} :
    wp (answering operation before) (activate state) (silently m (Activated state)) m := by
  have hwrite (o : Outcome) (t : Machine) (ht : Silent m t) :
      Silent m (t.logged (.act (.writeActive state)) o) :=
    ht.trans ⟨rfl, rfl, rfl, rfl⟩
  have hlink (o : Outcome) (t : Machine) (ht : Silent m t) :
      Silent m (t.logged (.act (.linkActive state.current)) o) :=
    ht.trans ⟨rfl, rfl, rfl, rfl⟩
  have heffect : Silent m (Action.effect (.writeActive state) m) := ⟨rfl, rfl, rfl, rfl⟩
  rw [activate, wp_bind]
  refine wp_act trivial ?_ (fun f => ?_) fun hatomic => nomatch hatomic
  · have hsilent := hwrite .done _ heffect
    refine ⟨hsilent.keepsReceipt, wp_act trivial ?_ (fun f => ?_) fun _ f => ?_⟩
    · exact ⟨Silent.keepsReceipt ⟨rfl, rfl, rfl, rfl⟩, hlink _ _ hsilent, rfl, rfl⟩
    · exact ⟨Silent.keepsReceipt ⟨rfl, rfl, rfl, rfl⟩, hlink _ _ hsilent⟩
    · exact ⟨Silent.keepsReceipt ⟨rfl, rfl, rfl, rfl⟩, hlink _ _ hsilent⟩
  · exact ⟨(hwrite _ _ (.refl m)).keepsReceipt, hwrite _ _ (.refl m)⟩

lemma silently_mono {P : Machine → Prop} {r : Except UpgradeError Unit} {u : Machine}
    (hmt : Silent m t) (h : silently t P r u) : silently m P r u := by
  cases r with
  | ok _ => exact ⟨hmt.trans h.1, h.2⟩
  | error e => exact hmt.trans h

lemma wp_bind_still {p : UpgradeOp Unit} {P : Machine → Prop}
    (hissue : issues operation before (.act action) m) (hstill : action.still = true)
    (hp : ∀ t, Still m t → wp (answering operation before) p (silently t P) t) :
    wp (answering operation before) (do act action; p) (silently m P) m := by
  rw [wp_bind]
  refine wp_still hissue hstill (fun t ht _ => ?_) fun f t ht _ => ht.toSilent
  exact wp_mono (fun r u hu => silently_mono ht.toSilent hu) (hp t ht)

lemma wp_restoreVerified {rollbackVersion : Option String} :
    wp (answering operation before) (restoreVerified version rollbackVersion)
      (silently m (Activated { current := version, previous := rollbackVersion })) m := by
  have hrest : wp (answering operation before)
      (do act (.assertInstalled version)
          activate { current := version, previous := rollbackVersion })
      (silently m (Activated { current := version, previous := rollbackVersion })) m :=
    wp_bind_still trivial rfl fun t _ => wp_activate
  rw [restoreVerified, assertVersion, wp_bind, wp_ite]
  split_ifs
  · exact hrest
  · exact Silent.refl m

lemma wp_activatePrepared {prepared : PreparedUpdate} :
    wp (answering operation before) (activatePrepared prepared)
      (silently m fun t => ∃ state : ActiveState, state.current = prepared.version ∧
        Activated state t) m := by
  refine wp_bind_still trivial rfl fun t _ => ?_
  rw [wp_bind]
  refine wp_readActive (fun u hu _ => ?_) fun f u hu _ => hu.toSilent
  have hactivate (previous : Option String) : wp (answering operation before)
      (activate { current := prepared.version, previous := previous })
      (silently t fun t => ∃ state : ActiveState, state.current = prepared.version ∧
        Activated state t) u := by
    refine wp_mono (fun r v hv => silently_mono hu.toSilent ?_) wp_activate
    cases r with
    | ok _ => exact ⟨hv.1, _, rfl, hv.2⟩
    | error e => exact hv
  rw [either_ok]
  split_ifs
  · exact hu.toSilent
  · exact hactivate _
  · exact hactivate _

lemma wp_performSwitch {activate : UpgradeOp Unit} {P : ActiveState → Prop}
    (hactivate : ∀ t, wp (answering operation before) activate
      (silently t fun u => ∃ state, P state ∧ Activated state u) t) :
    wp (answering operation before) (performSwitch restartsInPlace version activate)
      (silently m fun t => (∃ state, P state ∧ Activated state t) ∧
        probed t.log = some version) m := by
  rw [performSwitch, wp_bind]
  refine wp_stop fun r t ht => ?_
  cases r with
  | error e => exact ht.toSilent
  | ok _ =>
    rw [either_ok, wp_bind]
    refine wp_mono (fun r u hu => ?_) (hactivate t)
    cases r with
    | error e => exact ht.toSilent.trans hu
    | ok _ =>
      obtain ⟨htu, state, hP, hactivated⟩ := hu
      have hmu : Silent m u := ht.toSilent.trans htu
      rw [either_ok, wp_bind]
      refine wp_start fun r v hv => ?_
      have hmv : Silent m v := hmu.trans hv.toSilent
      cases r with
      | error e => exact hmv
      | ok _ =>
        have hlogged (o : Outcome) : Still v (v.logged (.act (.probe version)) o) :=
          .logged fun action ha => by cases ha; rfl
        refine wp_act trivial ?_ (fun f => ?_) fun _ f => ?_
        · exact ⟨(hlogged _).keepsReceipt, hmv.trans (hlogged _).toSilent,
            ⟨state, hP, (hactivated.of_still hv).of_still (hlogged _)⟩, rfl⟩
        · exact ⟨(hlogged _).keepsReceipt, hmv.trans (hlogged _).toSilent⟩
        · exact ⟨(hlogged _).keepsReceipt, hmv.trans (hlogged _).toSilent⟩

/-! ### The receipt -/

/-- No receipt yet. -/
structure Uncommitted (m : Machine) : Prop where
  written : written m.log = []
  committedResult : m.committedResult = none

/-- The one receipt of the operation. -/
structure Committed (result : UpgradeResult) (m : Machine) : Prop where
  written : written m.log = [result]
  receipt : m.receipt = some result
  committedResult : m.committedResult = some result

lemma Uncommitted.of_silent (h : Uncommitted m) (ht : Silent m t) : Uncommitted t :=
  ⟨ht.written.trans h.written, ht.committedResult.trans h.committedResult⟩

variable {result : UpgradeResult}

lemma Committed.of_silent (h : Committed result m) (ht : Silent m t) : Committed result t :=
  ⟨ht.written.trans h.written, ht.receipt.trans h.receipt,
    ht.committedResult.trans h.committedResult⟩

lemma Committed.mayResume (h : Committed result m) (hreleases : result.Releases) : MayResume m :=
  .inr ⟨result, h.written, h.receipt, hreleases⟩

lemma Truthful.of_still (h : Truthful operation before result m) (ht : Still m t)
    (hprobed : probed t.log = probed m.log) : Truthful operation before result t := by
  have hprepared : preparedVersion operation before t.log =
      preparedVersion operation before m.log := by
    cases operation with
    | upgrade => exact ht.installed
    | rollback => rfl
  constructor
  · intro hsucceeded
    rw [hprepared, ht.active, ht.activated, hprobed]
    exact h.succeeded hsucceeded
  · intro hrolledBack
    rw [ht.active, ht.activated, hprobed]
    exact h.rolledBack hrolledBack

lemma truthful_failedResult {options : UpgradeCoordinatorOptions} {error : String}
    {errorCode : Option String} (hcode : errorCode ≠ some rolledBackCode) :
    Truthful operation before (failedResult options none error errorCode) m :=
  ⟨nofun, fun h => absurd h hcode⟩

lemma UpdateErrorCode.text_ne_rolledBackCode (code : UpdateErrorCode) :
    some code.text ≠ some rolledBackCode := by
  cases code <;> decide

lemma truthful_errorResult {options : UpgradeCoordinatorOptions} {e : UpgradeError}
    (he : e.Early) : Truthful operation before (errorResult options e) m := by
  cases e with
  | coordinator message result => exact he.elim
  | failure f =>
    refine truthful_failedResult ?_
    cases hcode : f.code with
    | none => nofun
    | some code => exact code.text_ne_rolledBackCode

lemma wp_commitResult (h : Uncommitted m) (htruthful : Truthful operation before result m)
    (hok : ∀ t, Committed result t → Q (.ok ()) t)
    (herror : ∀ f t, Silent m t → Truthful operation before result t → Q (.error (.failure f)) t) :
    wp (answering operation before) (commitResult result) Q m := by
  rw [commitResult, wp_bind, wp_gets, either_ok, h.committedResult, wp_bind]
  refine wp_act ⟨h.written, htruthful⟩ ?_ (fun f => ?_) fun hatomic => nomatch hatomic
  · have hwritten : written (((Action.writeReceipt result).effect m).logged (.act (.writeReceipt result)) .done).log = [result] :=
      congrArg (result :: ·) h.written
    refine ⟨⟨fun hm => absurd h.written hm, fun _ => .inr ⟨result, hwritten, rfl⟩⟩, ?_⟩
    exact ⟨⟨fun _ => ⟨rfl, rfl⟩, fun hm => absurd (hwritten.symm.trans hm) (List.cons_ne_nil _ _)⟩,
      hok _ ⟨hwritten, rfl, rfl⟩⟩
  · have hsilent : Silent m (m.logged (.act (.writeReceipt result)) (.failed f)) :=
      ⟨rfl, rfl, rfl, rfl⟩
    exact ⟨hsilent.keepsReceipt, herror f _ hsilent (htruthful.of_still ⟨hsilent, rfl, rfl⟩ rfl)⟩

lemma wp_commitResult_committed {result' : UpgradeResult} (h : Committed result m)
    (hQ : ∀ r, Q r m) : wp (answering operation before) (commitResult result') Q m := by
  rw [commitResult, wp_bind, wp_gets, either_ok, h.committedResult]
  simp only [wp_ite]
  split_ifs
  · exact hQ _
  · exact hQ _

lemma wp_resumeLaunches_committed {requestId : String} (h : Committed result m)
    (hreleases : result.Releases) (hQ : ∀ r t, Committed result t → Q r t) :
    wp (answering operation before) (resumeLaunches requestId) Q m := by
  have hremove (t : Machine) (ht : Committed result t) :
      wp (answering operation before) (act .removeHold) Q t :=
    wp_still (ht.mayResume hreleases) rfl (fun u hu _ => hQ _ _ (ht.of_silent hu.toSilent))
      fun f u hu _ => hQ _ _ (ht.of_silent hu.toSilent)
  have hresume (t : Machine) (ht : Committed result t) :
      wp (answering operation before) (act (.resume requestId))
        (either (fun _ => wp (answering operation before) (act .removeHold) Q)
          fun e => Q (.error e)) t :=
    wp_still (ht.mayResume hreleases) rfl (fun u hu _ => hremove u (ht.of_silent hu.toSilent))
      fun f u hu _ => hQ _ _ (ht.of_silent hu.toSilent)
  rw [resumeLaunches, wp_bind, wp_gets, either_ok, wp_bind, wp_ite]
  split_ifs
  · rw [wp_bind, wp_tryCatch]
    exact wp_still trivial rfl (fun t ht _ => hresume t (h.of_silent ht.toSilent))
      fun f t ht _ => hresume t (h.of_silent ht.toSilent)
  · exact hremove m h

/-! ### The run -/

section Run

variable {options : UpgradeCoordinatorOptions} {snapshot : ManagedRuntimeSnapshot}
  {prepared : PreparedUpdate}

/-- How `coordinateUpgrade` ends: with its receipt committed, or with one that is true and yet to
be written. -/
def Ended (options : UpgradeCoordinatorOptions) (before : Option ActiveState) :
    Except UpgradeError UpgradeResult → Machine → Prop
  | .ok result, m => Committed result m
  | .error e, m   => Committed (errorResult options e) m ∨
      Uncommitted m ∧ Truthful options.operation before (errorResult options e) m

lemma truthful_succeededResult (h : Prepared options.operation before prepared m)
    {state : ActiveState} (hstate : state.current = prepared.version) (hactive : Activated state m)
    (hprobed : probed m.log = some prepared.version) :
    Truthful options.operation before (succeededResult options prepared snapshot) m := by
  refine ⟨fun _ => ⟨prepared.version, rfl, h.version, ?_, ?_, hprobed⟩, nofun⟩
  · rw [hactive.active, Option.map_some, hstate]
  · rw [hactive.activated, hstate]

lemma wp_switchCandidate (h : Uncommitted m)
    (hprepared : Prepared options.operation before prepared m) :
    wp (answering options.operation before) (switchCandidate options snapshot prepared commitResult)
      (either (fun result t => Committed result t ∧ result.Releases)
        fun _ t => Uncommitted t ∧ Prepared options.operation before prepared t) m := by
  rw [switchCandidate, wp_bind]
  refine wp_holdRunners fun r t ht => ?_
  have hlater (u : Machine) (hu : Silent m u) :
      Uncommitted u ∧ Prepared options.operation before prepared u :=
    ⟨h.of_silent hu, hprepared.of_silent hu⟩
  cases r with
  | error e => exact hlater t ht.toSilent
  | ok _ =>
    rw [either_ok, wp_bind]
    refine wp_mono (fun r u hu => ?_) (wp_performSwitch fun t => wp_activatePrepared)
    cases r with
    | error e => exact hlater u (ht.toSilent.trans hu)
    | ok _ =>
      obtain ⟨htu, ⟨state, hstate, hactivated⟩, hprobed⟩ := hu
      obtain ⟨huncommitted, hprepared'⟩ := hlater u (ht.toSilent.trans htu)
      rw [either_ok, wp_bind]
      refine wp_commitResult huncommitted
        (truthful_succeededResult hprepared' hstate hactivated hprobed) (fun v hv => ?_)
        fun f v hv _ => ?_
      · exact ⟨hv, .inl rfl⟩
      · exact hlater v (ht.toSilent.trans (htu.trans hv))

lemma wp_commitOr {result : UpgradeResult} {message : String}
    {Q : Except UpgradeError Unit → Machine → Prop} (h : Uncommitted m)
    (htruthful : Truthful options.operation before result m)
    (hok : ∀ t, Committed result t → Q (.ok ()) t)
    (herror : ∀ t, Ended options before (.error (.coordinator message result)) t →
      Q (.error (.coordinator message result)) t) :
    wp (answering options.operation before) (commitOr commitResult result message) Q m := by
  rw [commitOr, wp_tryCatch]
  exact wp_commitResult h htruthful hok fun f t ht htrue =>
    herror t (.inr ⟨h.of_silent ht, htrue⟩)

lemma truthful_rolledBack {previous error : String} (hprepared : Prepared options.operation before
      prepared m) (hprevious : prepared.previous = some previous)
    (hactive : Activated { current := previous, previous := prepared.rollbackVersion } m)
    (hprobed : probed m.log = some previous) :
    Truthful options.operation before
      (failedResult options (some previous) error (some rolledBackCode)) m := by
  obtain ⟨state, hstate, hcurrent⟩ : ∃ state, before = some state ∧ state.current = previous :=
    Option.map_eq_some_iff.mp (hprepared.previous.symm.trans hprevious)
  have hwhole : state = { current := previous, previous := prepared.rollbackVersion } := by
    rw [hprepared.rollbackVersion state hstate, ← hcurrent]
  subst hwhole
  exact ⟨nofun, fun _ => ⟨_, hstate, rfl, hactive.active, hactive.activated, hprobed⟩⟩

lemma wp_recoverPrevious {e : UpgradeError} (h : Uncommitted m)
    (hprepared : Prepared options.operation before prepared m) :
    wp (answering options.operation before) (recoverPrevious options prepared commitResult e)
      (Ended options before) m := by
  have hrollbackFailed : some rollbackFailedCode ≠ some rolledBackCode := by decide
  cases hprevious : prepared.previous with
  | none =>
    simp only [recoverPrevious, hprevious]
    rw [wp_bind]
    exact wp_commitOr h (truthful_failedResult nofun) (fun t ht => .inl ht) fun t ht => ht
  | some previous =>
    simp only [recoverPrevious, hprevious]
    rw [wp_bind, wp_result]
    refine wp_mono (fun r t ht => ?_) (wp_performSwitch (P := fun state =>
      state = { current := previous, previous := prepared.rollbackVersion }) fun t => ?_)
    · cases r with
      | error rollbackError =>
        have huncommitted : Uncommitted t := h.of_silent ht
        simp only [either_ok]
        rw [wp_bind]
        exact wp_commitOr huncommitted (truthful_failedResult hrollbackFailed)
          (fun u hu => .inl hu) fun u hu => hu
      | ok _ =>
        obtain ⟨hsilent, ⟨state, rfl, hactivated⟩, hprobed⟩ := ht
        simp only [either_ok]
        rw [wp_bind]
        refine wp_commitOr (h.of_silent hsilent) (truthful_rolledBack (hprepared.of_silent hsilent)
          hprevious hactivated hprobed) (fun u hu => ?_) fun u hu => hu
        rw [either_ok, wp_bind, wp_tryCatch]
        refine wp_resumeLaunches_committed hu (.inr rfl) fun r v hv => ?_
        cases r with
        | ok _ => exact .inl hv
        | error e => exact .inl hv
    · refine wp_mono (fun r u hu => ?_) wp_restoreVerified
      cases r with
      | ok _ => exact ⟨hu.1, _, rfl, hu.2⟩
      | error e => exact hu

lemma wp_switchRuntime (h : Uncommitted m)
    (hprepared : Prepared options.operation before prepared m) :
    wp (answering options.operation before) (switchRuntime options snapshot prepared commitResult)
      (Ended options before) m := by
  rw [switchRuntime, wp_bind, wp_result]
  refine wp_mono (fun r t ht => ?_) (wp_switchCandidate h hprepared)
  cases r with
  | error e => exact wp_recoverPrevious ht.1 ht.2
  | ok result =>
    simp only [either_ok]
    rw [wp_bind, wp_tryCatch]
    refine wp_resumeLaunches_committed ht.1 ht.2 fun r u hu => ?_
    cases r with
    | ok _ => exact hu
    | error e => exact .inl hu

lemma wp_prepareOperation (h : Fresh before m) :
    wp (answering options.operation before) (prepareOperation options)
      (freshly before fun prepared t => Prepared options.operation before prepared t) m := by
  rw [prepareOperation]
  cases hoperation : options.operation with
  | upgrade => exact wp_prepare h
  | rollback => exact wp_prepareRollback h

lemma Fresh.uncommitted (h : Fresh before m) : Uncommitted m := ⟨h.written, h.committedResult⟩

lemma Fresh.ended {e : UpgradeError} (h : Fresh before m) (he : e.Early) :
    Ended options before (.error e) m :=
  .inr ⟨h.uncommitted, truthful_errorResult he⟩

lemma Idles.wp_bind_ended {β : Type} {p : UpgradeOp β} {f : β → UpgradeOp UpgradeResult}
    (hp : Idles options.operation before p) (h : Fresh before m)
    (hf : ∀ b t, Idle m t → wp (answering options.operation before) (f b) (Ended options before) t) :
    wp (answering options.operation before) (p >>= f) (Ended options before) m := by
  rw [wp_bind]
  refine wp_mono (fun r t ht => ?_) (hp m h.unswitched)
  cases r with
  | ok b => exact hf b t ht
  | error e => exact (h.of_idle ht.1).ended ht.2

lemma wp_coordinateUpgrade_ended (h : Fresh before m) :
    wp (answering options.operation before) (coordinateUpgrade options commitResult)
      (Ended options before) m := by
  rw [coordinateUpgrade, wp_ite]
  split_ifs
  · exact h.ended trivial
  · refine Idles.wp_bind_ended (.act (fun _ _ => trivial) rfl rfl) h fun _ t ht => ?_
    rw [wp_bind]
    refine wp_mono (fun r u hu => ?_) (wp_prepareOperation (h.of_idle ht))
    cases r with
    | error e => exact hu.1.ended hu.2
    | ok prepared =>
      refine (idles_pauseLaunches options).wp_bind_ended hu.1 fun _ v hv => ?_
      have hsnapshot : Idles options.operation before (tryCatch snapshot fun error => do
          resumeLaunches options.requestId
          throw error) :=
        .tryCatch idles_snapshot fun error hearly =>
          .bind (idles_resumeLaunches _) fun _ => .throw hearly
      refine hsnapshot.wp_bind_ended (hu.1.of_idle hv) fun snapshot w hw => ?_
      exact wp_switchRuntime ((hu.1.of_idle hv).of_idle hw).uncommitted
        (hu.2.of_silent (hv.trans hw).toSilent)

/-- The run as a whole keeps what `issues` asks of each step. -/
lemma wp_runUpgradeCoordinator (h : Fresh before m) :
    wp (answering options.operation before) (runUpgradeCoordinator options) (fun _ _ => True) m := by
  rw [runUpgradeCoordinator, wp_ite]
  split_ifs
  · trivial
  · rw [wp_bind, wp_result]
    refine wp_mono (fun r t ht => ?_) (wp_coordinateUpgrade_ended h)
    cases r with
    | ok result => exact wp_commitResult_committed ht fun _ => trivial
    | error e =>
      rcases ht with hcommitted | ⟨huncommitted, htruthful⟩
      · exact wp_commitResult_committed hcommitted fun _ => trivial
      · exact wp_commitResult huncommitted htruthful (fun _ _ => trivial) fun _ _ _ _ => trivial

end Run

end Rules

/-- However the steps of an operation turn out, and wherever it stops: a receipt is about to be
written only if it is the first and true; once a switch has begun, launches are resumed only after
a receipt that allows it; and a receipt that was written is there, and stays. -/
theorem receipt_truthful {options : UpgradeCoordinatorOptions} {active : Option ActiveState}
    {receipt : Option UpgradeResult} {holdFile paused : Bool} {outcomes : List Outcome}
    {halt : Halt Machine Step.Reply UpgradeError Unit} {m : Machine}
    (hrun : play Step.answer (runUpgradeCoordinator options)
      (Machine.start active receipt holdFile paused) outcomes = some (halt, m)) :
    (∀ p result, halt = .waiting p → p.effect = .act (.writeReceipt result) →
      written m.log = [] ∧ Truthful options.operation active result m) ∧
    (∀ p requestId, halt = .waiting p →
      p.effect = .act (.resume requestId) ∨ p.effect = .act .removeHold → MayResume m) ∧
    (written m.log = [] ∧ m.receipt = receipt ∨
      ∃ result, written m.log = [result] ∧ m.receipt = some result) ∧
    ∀ later halt' t, play Step.answer (runUpgradeCoordinator options)
        (Machine.start active receipt holdFile paused) (outcomes ++ later) = some (halt', t) →
      written m.log ≠ [] → written t.log = written m.log ∧ t.receipt = m.receipt := by
  have hstart : Fresh active (Machine.start active receipt holdFile paused) :=
    ⟨rfl, rfl, rfl, fun x hx => absurd hx List.not_mem_nil⟩
  have hwp : wp (answering options.operation active) (runUpgradeCoordinator options)
      (fun _ _ => True) (Machine.start active receipt holdFile paused) :=
    wp_runUpgradeCoordinator hstart
  obtain ⟨hkeeps, hsafe⟩ := play_safe KeepsReceipt.refl (fun _ _ _ => KeepsReceipt.trans) hwp hrun
  have hissue (p : Suspended Machine Step.Reply UpgradeError Unit) (hp : halt = .waiting p) :
      issues options.operation active p.effect m := by
    subst hp
    exact hsafe.1
  refine ⟨fun p result hp heffect => ?_, fun p requestId hp heffect => ?_, hkeeps.once rfl, ?_⟩
  · have h := hissue p hp
    rwa [heffect] at h
  · have h := hissue p hp
    rcases heffect with heffect | heffect
    · rwa [heffect] at h
    · rwa [heffect] at h
  · intro later halt' t hlater
    obtain ⟨x, hx, hrest⟩ := Transition.run_append_eq_some.mp hlater
    obtain rfl : x = (halt, m) := Option.some.inj (hx.symm.trans hrun)
    exact (hsafe.run KeepsReceipt.refl (fun _ _ _ => KeepsReceipt.trans) hrest).1.stays

/-- The candidate is not healthy, and `1.0.0` is restored. -/
theorem receipt_truthful_rolledBack :
    ∃ p m, play Step.answer (runUpgradeCoordinator upgradeTo110) installed100
        (upToPause ++ [.done, .underWay [], .runtimes []] ++ List.replicate 7 .done ++
          [.failed refused] ++ List.replicate 6 .done) = some (.waiting p, m) ∧
      Truthful .upgrade (some ⟨"1.0.0", none⟩)
        (failedResult upgradeTo110 (some "1.0.0") "socket closed" (some rolledBackCode)) m := by
  have hplay : ∃ p m, play Step.answer (runUpgradeCoordinator upgradeTo110) installed100
      (upToPause ++ [.done, .underWay [], .runtimes []] ++ List.replicate 7 .done ++
        [.failed refused] ++ List.replicate 6 .done) = some (.waiting p, m) ∧
      p.effect = .act (.writeReceipt (failedResult upgradeTo110 (some "1.0.0") "socket closed"
        (some rolledBackCode))) := ⟨_, _, rfl, rfl⟩
  obtain ⟨p, m, hrun, heffect⟩ := hplay
  exact ⟨p, m, hrun, ((receipt_truthful hrun).1 p _ rfl heffect).2⟩

end Coforge.Release
