import Coforge.Control.Fenced

/-!
# Control calls that the fence throws out

A Start, a Stop or a reset whose scope does not match the record, or whose epoch is over, ends
without a call of the runtime: it only gives up turns of the event loop. The record stays as it
is, but for the phase that the repair of a failed Stop writes.

With the sequences of `Coforge.Control.Fenced` this is the fencing of the daemon.
-/

namespace Coforge.Control

open Async Async.Prog Transition

/-- The scope a control call is checked under. -/
def Task.scope : Task → Option AgentControlScope
  | .start intent _ =>
    match intent.controlEpoch with
    | none | some 0 => none
    | some epoch    => some (intent.scope epoch)
  | .stop scope _          => some scope
  | .resetWorkspace scope  => some scope
  | _                      => none

/-- Nothing was accepted or reported, and no retry was armed. -/
structure Ignored (past : List Entry) (retry : Option LaunchRetry) (r : AgentRuntimeRecord)
    (s : AgentState) : Prop where
  history : s.history = past
  retry : s.launchRetry = retry ∨ s.launchRetry = none
  record : s.record = some r ∨ s.record = some { r with phase := .stopped }

lemma ignored_stable (past : List Entry) (retry : Option LaunchRetry) (r : AgentRuntimeRecord) :
    Stable (Ignored past retry r) := by
  rintro s t ⟨added, hj⟩ ⟨hhistory, hretry, hrecord⟩
  refine ⟨hj.history.trans hhistory, ?_, hj.record ▸ hrecord⟩
  rcases hj.launchRetry with heq | hnone
  · exact heq ▸ hretry
  · exact .inr hnone

/-- The context of a call that may do nothing but give up its turn. -/
def staleCtx (past : List Entry) (retry : Option LaunchRetry) (r : AgentRuntimeRecord) :
    Context AgentState Reply where
  rely := Undisturbed
  answer e s reply t := ∃ o, s.answer e o = some (reply, t)
  guar _ _ := True
  issue e s := (∃ point, e = .turn point) ∧ Ignored past retry r s

section Operations

variable {past : List Entry} {retry : Option LaunchRetry} {r : AgentRuntimeRecord} {s : AgentState}
  {scope : AgentControlScope}

/-- The outcome of a call that is thrown out. -/
abbrev Ignores (past : List Entry) (retry : Option LaunchRetry) (r : AgentRuntimeRecord) :
    Except ControlError Unit → AgentState → Prop := fun _ => Ignored past retry r

lemma wp_turnStale {point : Point} {Q : Except ControlError Unit → AgentState → Prop}
    (h : Ignored past retry r s)
    (hk : ∀ t, Ignored past retry r t → t.record = s.record → Q (.ok ()) t) :
    wp (staleCtx past retry r) (turn point) Q s := by
  rw [turn, wp_request]
  refine ⟨⟨⟨point, rfl⟩, h⟩, fun s' hs' reply t hans => ⟨trivial, ?_⟩⟩
  obtain ⟨o, hans⟩ := hans
  have hdone := undisturbed_trans hs' (undisturbed_answer hans)
  have hrecord : t.record = s.record := by
    obtain ⟨added, hj⟩ := hdone
    exact hj.record
  exact hk t (ignored_stable _ _ _ s t hdone h) hrecord

lemma wp_readStale {Q : Except ControlError (Option AgentRuntimeRecord) → AgentState → Prop}
    (h : Ignored past retry r s) (hrecord : s.record = some r)
    (hk : ∀ t, Ignored past retry r t → Q (.ok (some r)) t) :
    wp (staleCtx past retry r) readRecord Q s := by
  simp only [readRecord, wp_bind, wp_gets, either_ok, hrecord]
  exact wp_turnStale h fun t ht _ => hk t ht

lemma wp_requireStale {known : Bool} {Q : Except ControlError Unit → AgentState → Prop}
    (h : Ignored past retry r s) (hk : ∀ t, Ignored past retry r t → Q (.ok ()) t) :
    wp (staleCtx past retry r) (requireRecord (some r) known) Q s := by
  simp only [requireRecord, wp_bind]
  refine wp_turnStale h fun t ht _ => ?_
  exact hk t ht

lemma wp_repairStale {Q : Except ControlError (Option AgentRuntimeRecord) → AgentState → Prop}
    (h : Ignored past retry r s)
    (hk : ∀ repaired t, repaired.scope = r.scope → Ignored past retry r t →
      Q (.ok (some repaired)) t) : wp (staleCtx past retry r) (repairStaleRecord (some r)) Q s := by
  simp only [repairStaleRecord, wp_bind, wp_gets, either_ok]
  split
  · simp only [writeRecord, wp_bind, wp_update, either_ok]
    have hwritten : Ignored past retry r { s with record := some { r with phase := .stopped } } :=
      ⟨h.history, h.retry, .inr rfl⟩
    refine ⟨trivial, wp_turnStale hwritten fun t ht _ => ?_⟩
    simp only [either_ok, wp_bind]
    exact wp_turnStale ht fun u hu _ => hk { r with phase := .stopped } u rfl hu
  · simp only [wp_bind]
    exact wp_turnStale h fun t ht _ => hk r t rfl ht

lemma wp_fenceStale {repaired : AgentRuntimeRecord} {p : Op Unit} (hscope : repaired.scope = r.scope)
    (hstale : scope.staleFor r) (h : Ignored past retry r s) :
    wp (staleCtx past retry r) (do fence (some repaired) scope; p) (Ignores past retry r) s := by
  have hthrows : ∃ r' ∈ some repaired, scope.staleFor r' := by
    refine ⟨repaired, rfl, ?_⟩
    rw [AgentControlScope.staleFor, hscope]
    exact hstale
  simp only [wp_bind, fence, if_pos hthrows]
  exact h

lemma wp_stopStale {known : Bool} (hstale : scope.staleFor r) (h : Ignored past retry r s)
    (hrecord : s.record = some r) :
    wp (staleCtx past retry r) (stop scope known) (Ignores past retry r) s := by
  simp only [stop]
  refine wp_bind.mpr (wp_readStale h hrecord fun t ht => ?_)
  refine wp_bind.mpr (wp_requireStale ht fun u hu => ?_)
  refine wp_bind.mpr (wp_repairStale hu fun repaired v hscope hv => ?_)
  exact wp_fenceStale hscope hstale hv

lemma wp_resetWorkspaceStale (hstale : scope.staleFor r) (h : Ignored past retry r s)
    (hrecord : s.record = some r) :
    wp (staleCtx past retry r) (resetWorkspace scope) (Ignores past retry r) s := by
  simp only [resetWorkspace]
  refine wp_bind.mpr (wp_readStale h hrecord fun t ht => ?_)
  refine wp_bind.mpr (wp_repairStale ht fun repaired u hscope hu => ?_)
  exact wp_fenceStale hscope hstale hu

lemma wp_startStale {intent : AgentStartIntent} {known : Bool}
    (hscope : (Task.start intent known).scope = some scope) (hstale : scope.staleFor r)
    (h : Ignored past retry r s) (hrecord : s.record = some r) :
    wp (staleCtx past retry r) (start intent known) (Ignores past retry r) s := by
  unfold start
  split
  · exact h
  · exact h
  next epoch hpos heq =>
    have hepoch : intent.scope epoch = scope := by
      simp only [Task.scope, heq] at hscope
      exact Option.some.inj hscope
    refine wp_bind.mpr (wp_readStale h hrecord fun t ht => ?_)
    refine wp_bind.mpr (wp_requireStale ht fun u hu => ?_)
    refine wp_bind.mpr (wp_repairStale hu fun repaired v hsame hv => ?_)
    exact wp_fenceStale hsame (hepoch ▸ hstale) hv

lemma wp_loggedStale {p : Op Unit} (h : wp (staleCtx past retry r) p (Ignores past retry r) s) :
    wp (staleCtx past retry r) (logged p) (Ignores past retry r) s := by
  simp only [logged, wp_tryCatch]
  refine wp_mono (fun reply t ht => ?_) h
  cases reply with
  | ok => exact ht
  | error e => exact ⟨trivial, ht.history, ht.retry, ht.record⟩

theorem wp_bodyStale {task : Task} (hscope : task.scope = some scope) (hstale : scope.staleFor r)
    (h : Ignored past retry r s) (hrecord : s.record = some r) :
    wp (staleCtx past retry r) (body task) (Ignores past retry r) s := by
  cases task with
  | start intent known =>
    refine wp_loggedStale ?_
    simp only [wp_andFinally]
    refine wp_mono (fun reply t ht => ⟨trivial, ?_⟩) (wp_startStale hscope hstale h hrecord)
    obtain ⟨n, hn⟩ := t.endStartRun_eq
    rw [hn]
    exact ⟨ht.history, ht.retry, ht.record⟩
  | stop =>
    cases hscope
    exact wp_loggedStale (wp_stopStale hstale h hrecord)
  | resetWorkspace =>
    cases hscope
    exact wp_loggedStale (wp_resetWorkspaceStale hstale h hrecord)
  | retry => cases hscope
  | stopped => cases hscope
  | wake => cases hscope
  | updateSession => cases hscope
  | replay => cases hscope
  | replaySession => cases hscope

end Operations

/-! ### A call from its beginning to its end -/

/-- The call that began is the last that begins. -/
def staleSpec (past : List Entry) (retry : Option LaunchRetry) (r : AgentRuntimeRecord) :
    agentControl.Spec fun _ a => a ≠ .begin where
  idle := Ignored past retry r
  context _ := staleCtx past retry r
  rely_refl _ := undisturbed_refl
  rely_trans _ _ _ _ := undisturbed_trans
  guar_refl _ _ := trivial
  guar_trans _ _ _ _ _ _ := trivial
  event_idle _ _ _ _ _ hevent hidle :=
    ignored_stable _ _ _ _ _ (undisturbed_event hevent) hidle
  event_rely _ _ _ _ _ _ _ hevent := undisturbed_event hevent
  reply_answer _ _ _ o _ _ _ _ hans := ⟨o, hans⟩
  body_safe _ _ _ _ hok := absurd rfl hok

/-- What has become of a control call whose scope does not fit the record. -/
structure ThrownOut (s t : System) : Prop where
  history : t.shared.history = s.shared.history
  retry : t.shared.launchRetry = s.shared.launchRetry ∨ t.shared.launchRetry = none
  record : t.shared.record = s.shared.record ∨
    ∃ r, s.shared.record = some r ∧ t.shared.record = some { r with phase := .stopped }
  waits : ∀ task p, t.turn = some (task, p) → ∃ point, p.effect = .turn point

theorem stale_thrownOut {s t : System} {task : Task} {before : AgentState}
    {scope : AgentControlScope} {r : AgentRuntimeRecord} {acts : List (Act Event Outcome)}
    (hrecord : s.shared.record = some r) (hnext : agentControl.next s.shared = some (task, before))
    (hscope : task.scope = some scope) (hstale : scope.staleFor r) (hacts : .begin ∉ acts)
    (hrun : run agentControl.step s (.begin :: acts) = some t) : ThrownOut s t := by
  obtain ⟨u, hbegin, hrest⟩ := run_cons_eq_some.mp hrun
  obtain ⟨-, task', before', hnext', rfl⟩ := Component.step_begin.mp hbegin
  obtain ⟨rfl, rfl⟩ := Prod.mk.inj (Option.some.inj (hnext.symm.trans hnext'))
  have hsame : before.history = s.shared.history ∧ before.launchRetry = s.shared.launchRetry ∧
      before.record = s.shared.record := by
    simp only [agentControl, AgentState.next] at hnext
    split at hnext
    · cases hnext
    · cases hnext
      exact ⟨rfl, rfl, rfl⟩
  obtain ⟨hhistory, hretry, hkept⟩ := hsame
  have hbody := wp_bodyStale hscope hstale ⟨hhistory, .inl hretry, .inl (hkept.trans hrecord)⟩
    (hkept.trans hrecord)
  have hok : ∀ a ∈ acts, a ≠ .begin := fun a ha heq => hacts (heq ▸ ha)
  have hinv := (staleSpec s.shared.history s.shared.launchRetry r).safe_run
    ((staleSpec _ _ r).settle_safe hbody).2 (permitted_of_mem hok _) hrest
  have hignored {v : AgentState}
      (h : Ignored s.shared.history s.shared.launchRetry r v) :
      v.history = s.shared.history ∧
        (v.launchRetry = s.shared.launchRetry ∨ v.launchRetry = none) ∧
        (v.record = s.shared.record ∨
          ∃ r, s.shared.record = some r ∧ v.record = some { r with phase := .stopped }) := by
    rw [hrecord]
    exact ⟨h.history, h.retry, h.record.imp_right fun hstopped => ⟨r, rfl, hstopped⟩⟩
  rcases hturn : t.turn with _ | ⟨task', p⟩
  · obtain ⟨h, h', h''⟩ := hignored (((staleSpec _ _ r).inv_idle hturn).mp hinv)
    exact ⟨h, h', h'', fun task p heq => by rw [hturn] at heq; cases heq⟩
  · obtain ⟨v, ⟨hpoint, hv⟩, -, hrely⟩ := ((staleSpec _ _ r).inv_turn hturn).mp hinv
    obtain ⟨h, h', h''⟩ := hignored (ignored_stable _ _ _ v _ hrely hv)
    refine ⟨h, h', h'', fun task p heq => ?_⟩
    rw [hturn] at heq
    cases heq
    exact hpoint

/-! ### The fencing of the daemon -/

def sequencedSpec : agentControl.Spec fun _ _ => True where
  idle := Sequenced
  context _ := fencedCtx
  rely_refl _ := undisturbed_refl
  rely_trans _ _ _ _ := undisturbed_trans
  guar_refl _ s := .of_record rfl
  guar_trans _ _ _ _ := EpochKept.trans
  event_idle _ _ _ _ _ hevent hidle := by
    obtain ⟨added, hj⟩ := undisturbed_event hevent
    exact sequenced_of_eq hidle hj.history hj.record
  event_rely _ _ _ _ _ _ _ hevent := undisturbed_event hevent
  reply_answer _ _ _ o _ _ _ _ hans := ⟨o, hans⟩
  body_safe s task t _ _ hnext hidle := by
    simp only [agentControl, AgentState.next] at hnext
    split at hnext
    · cases hnext
    · cases hnext
      exact wp_bodyAt task (sequenced_of_eq hidle rfl rfl)

lemma sequencedSpec_init (instanceId : String) : sequencedSpec.Inv (System.init instanceId) := by
  refine (sequencedSpec.inv_idle rfl).mpr ⟨Trace.each_nil, fun r hr => ?_, fun _ x hx => ?_⟩
  · cases hr
  · cases hx

/-- The epoch of the record never goes back, a control call that is stale when it begins does
nothing, and the sequences of each epoch grow but for what is sent again. -/
theorem agent_fenced (instanceId : String) :
    (∀ acts later s t, run agentControl.step (System.init instanceId) acts = some s →
      run agentControl.step s later = some t → EpochKept s.shared t.shared) ∧
    (∀ acts s task before scope r later t,
      run agentControl.step (System.init instanceId) acts = some s → s.shared.record = some r →
      agentControl.next s.shared = some (task, before) → task.scope = some scope →
      scope.staleFor r → .begin ∉ later →
      run agentControl.step s (.begin :: later) = some t → ThrownOut s t) ∧
    ∀ acts s, run agentControl.step (System.init instanceId) acts = some s →
      Trace.Each Emitted s.shared.history := by
  have hinv {acts : List (Act Event Outcome)} {s : System}
      (hrun : run agentControl.step (System.init instanceId) acts = some s) :
      sequencedSpec.Inv s :=
    sequencedSpec.safe_run (sequencedSpec_init instanceId)
      (permitted_of_forall (fun _ _ => trivial) _ _) hrun
  refine ⟨fun acts later s t hs ht => ?_, ?_, fun acts s hs => ?_⟩
  · refine @Component.Spec.relate_run _ _ _ _ _ _ _ _ _ _ _ sequencedSpec EpochKept (fun s => .of_record rfl)
      (fun _ _ _ => EpochKept.trans) ?_ ?_ (fun _ _ _ => id) _ (hinv hs)
      (permitted_of_forall (fun _ _ => trivial) _ _) ht
    · exact fun _ _ _ _ _ hevent => .of_undisturbed (undisturbed_event hevent)
    · intro s task u hnext
      simp only [agentControl, AgentState.next] at hnext
      split at hnext
      · cases hnext
      · cases hnext
        exact .of_record rfl
  · exact fun acts s task before scope r later t _ hrecord hnext hscope hstale hlater ht =>
      stale_thrownOut hrecord hnext hscope hstale hlater ht
  · rcases hturn : s.turn with _ | ⟨task, p⟩
    · exact ((sequencedSpec.inv_idle hturn).mp (hinv hs)).ordered
    · obtain ⟨u, hordered, -, added, hj⟩ := (sequencedSpec.inv_turn hturn).mp (hinv hs)
      rw [hj.history]
      exact hordered

/-- A restart: a Stop and a Start of one epoch. -/
def restartRun (epoch : Nat) : List (Act Event Outcome) :=
  [.event (.stop ((sampleStart "restart" epoch "launch").scope epoch)), .begin, .reply .done,
    .reply .done, .reply .done, .reply .done, .reply (.identity none), .reply .done, .reply .done,
    .event (.start (sampleStart "restart" epoch "launch")), .begin, .reply .done, .reply .done,
    .reply .done, .reply .done, .reply (.identity none), .reply .done, .reply .done]

/-- The Stop of the epoch is called. -/
def stopCall (epoch : Nat) : Act Event Outcome :=
  .event (.stop ((sampleStart "restart" epoch "launch").scope epoch))

/-- A restart in its second epoch, after which the Stop of the first one is repeated. -/
theorem agent_fenced_restarted :
    ∃ s t, run agentControl.step (System.init "daemon") (restartRun 2 ++ [stopCall 1]) = some s ∧
      run agentControl.step s [.begin, .reply .done, .reply .done, .reply .done] = some t ∧
      EpochKept s.shared t.shared ∧ ThrownOut s t ∧ Trace.Each Emitted s.shared.history := by
  obtain ⟨hkept, hstale, hordered⟩ := agent_fenced "daemon"
  refine ⟨_, _, rfl, rfl, hkept (restartRun 2 ++ [stopCall 1])
    [.begin, .reply .done, .reply .done, .reply .done] _ _ rfl rfl, ?_,
    hordered (restartRun 2 ++ [stopCall 1]) _ rfl⟩
  exact hstale (restartRun 2 ++ [stopCall 1]) _ _ _ _ _
    [.reply .done, .reply .done, .reply .done] _ rfl rfl rfl rfl (by decide) (by decide) rfl

/-- The Stop of a restart, repeated after the Start of its epoch, sends its result again. -/
theorem repeated_stop_steps_back :
    ¬ ∀ instanceId acts s, run agentControl.step (System.init instanceId) acts = some s →
      Trace.Each (fun past x => ∀ epoch sequence, x.stamp = some (epoch, sequence) →
        Above past epoch sequence ∨ (past.filter (·.stamp.isSome)).head? = some x)
        s.shared.history := by
  intro h
  have hlast := (h "daemon" (restartRun 1 ++ [stopCall 1, .begin, .reply .done, .reply .done,
    .reply .done]) _ rfl).1 1 1 rfl
  rcases hlast with habove | hrepeats
  · exact absurd (habove _ (.head _) 2 rfl) (by decide)
  · exact absurd hrepeats (by decide)

end Coforge.Control
