import Coforge.Control.Fenced

/-!
# One launch at a time

A record in "starting" says two things: no process of the Agent runs, and the control accepted last
is the Start that launches. Both hold whenever an operation waits, since the record is written in
the stretch that accepts a control and in the one that learns of the process. What a launch or a
retry looks at when its turn comes is therefore enough: the process of another launch cannot be
there, and a retry that still owns the record has not been overtaken.
-/

namespace Coforge.Control

open Async Async.Prog Transition

def Entry.accepted? : Entry → Option Accepted
  | .accepted control => some control
  | _                 => none

/-- The control that was accepted last. -/
def lastAccepted (history : List Entry) : Option Accepted := history.findSome? Entry.accepted?

/-- The control accepted last is a Start of the epoch with the launch id. -/
def StartedLast (history : List Entry) (epoch : Nat) (launchId : String) : Prop :=
  ∃ scope, lastAccepted history = some (.start scope launchId) ∧ scope.epoch = epoch

/-- A record that is starting has no process, and its Start was accepted last. -/
def Undisputed (s : AgentState) : Prop :=
  ∀ r ∈ s.record, r.phase = .starting → s.running = false ∧
    ∃ launchId, r.launchId = some launchId ∧ StartedLast s.history r.scope.epoch launchId

/-- What can happen while an operation waits, if no process comes up but by a launch. -/
def Exits (s t : AgentState) : Prop :=
  Undisturbed s t ∧ (s.running = false → t.running = false)

lemma exits_refl (s : AgentState) : Exits s s := ⟨undisturbed_refl s, id⟩

variable {t : AgentState}

lemma exits_trans {s u : AgentState} (hst : Exits s t) (htu : Exits t u) : Exits s u :=
  ⟨undisturbed_trans hst.1 htu.1, fun h => htu.2 (hst.2 h)⟩

/-- What a retry may launch. -/
def mayLaunch (task : Task) (history : List Entry) (launchId : String) : Prop :=
  ∀ retry, task = .retry retry →
    launchId = retry.launchId ∧ StartedLast history retry.scope.epoch retry.launchId

/-- Every launch finds no process, and a launch by a retry is that of the Start accepted last. -/
def singleCtx (task : Task) : Context AgentState Reply where
  rely := Exits
  answer e s r t := ∃ o, s.answer e o = some (r, t)
  guar _ _ := True
  issue e s := ∀ intent launchId replaced reason, e = .launch intent launchId replaced reason →
    s.running = false ∧ mayLaunch task s.history launchId

/-- What an operation knows of the state while it waits. -/
structure Own (past : List Entry) (record : Option AgentRuntimeRecord) (s : AgentState) : Prop
    extends At past record s where
  owned : Undisputed s

lemma Undisputed.exits {s : AgentState} (h : Undisputed s) (hst : Exits s t) : Undisputed t := by
  obtain ⟨⟨added, hj⟩, hrunning⟩ := hst
  intro r hr hphase
  obtain ⟨hstill, hstarted⟩ := h r (hj.record ▸ hr) hphase
  exact ⟨hrunning hstill, hj.history.symm ▸ hstarted⟩

lemma Undisputed.of_eq {s : AgentState} (h : Undisputed s) (hrecord : t.record = s.record)
    (hrunning : t.running = s.running) (hlast : lastAccepted t.history = lastAccepted s.history) :
    Undisputed t := by
  intro r hr hphase
  obtain ⟨hstill, launchId, hlaunch, scope, haccepted, hepoch⟩ := h r (hrecord ▸ hr) hphase
  exact ⟨hrunning.trans hstill, launchId, hlaunch, scope, hlast.trans haccepted, hepoch⟩

lemma undisputed_of_phase {s : AgentState} {r : AgentRuntimeRecord} (hrecord : s.record = some r)
    (hphase : r.phase ≠ .starting) : Undisputed s := by
  intro r' hr' hstarting
  rw [hrecord] at hr'
  cases hr'
  exact absurd hstarting hphase

lemma answer_running {s : AgentState} {e : Effect} {o : Outcome} {r : Reply e}
    (he : ∀ intent launchId replaced reason, e ≠ .launch intent launchId replaced reason)
    (h : s.answer e o = some (r, t)) : s.running = false → t.running = false := by
  intro hstill
  cases e <;> cases o <;> cases h <;>
    first
      | exact hstill
      | rfl
      | exact absurd rfl (he _ _ _ _)

/-! ### Rules for the effects -/

section Rules

variable {task : Task} {s : AgentState} {past : List Entry} {record : Option AgentRuntimeRecord}

lemma Own.exits {t : AgentState} (h : Own past record s) (hst : Exits s t) : Own past record t :=
  ⟨at_stable _ _ s t hst.1 h.toAt, h.owned.exits hst⟩

lemma wp_waitOwn {e : Effect} {Q : Except ControlError (Reply e) → AgentState → Prop}
    (he : ∀ intent launchId replaced reason, e ≠ .launch intent launchId replaced reason)
    (h : Own past record s)
    (hk : ∀ o r (s' t : AgentState), s'.answer e o = some (r, t) → Own past record t → Q (.ok r) t) :
    wp (singleCtx task) (request e) Q s := by
  rw [wp_request]
  constructor
  · intro intent launchId replaced reason heq
    exact absurd heq (he intent launchId replaced reason)
  · intro s' hs' r t ht
    obtain ⟨o, hans⟩ := ht
    have hexits : Exits s t :=
      exits_trans hs' ⟨undisturbed_answer hans, answer_running he hans⟩
    exact ⟨trivial, hk o r s' t hans (h.exits hexits)⟩

variable {Q : Except ControlError Unit → AgentState → Prop}

lemma wp_turnOwn {point : Point}
    (h : Own past record s) (hk : ∀ t, Own past record t → Q (.ok ()) t) :
    wp (singleCtx task) (turn point) Q s :=
  wp_waitOwn (e := .turn point) (fun _ _ _ _ => nofun) h fun _ _ _ t _ => hk t

lemma wp_stopOwn {Q : Except ControlError (Reply .stop) → AgentState → Prop} (h : Own past record s)
    (hk : ∀ r t, Own past record t → (∀ i, r = .ok i → t.running = false) → Q (.ok r) t) :
    wp (singleCtx task) Runtime.stop Q s := by
  refine wp_waitOwn (e := .stop) (fun _ _ _ _ => nofun) h fun o r s' t hans ht => ?_
  refine hk r t ht fun i hi => ?_
  cases o <;> cases hans
  · rfl
  · cases hi

lemma wp_launchEffect {intent : AgentStartIntent} {launchId : String} {replaced : Option String}
    {reason : Option AgentSessionInvalidateReason} {r : AgentRuntimeRecord}
    {Q : Except ControlError (Except LaunchError (Option SessionIdentity)) → AgentState → Prop}
    (hphase : r.phase = .starting) (hmay : mayLaunch task past launchId)
    (h : Own past (some r) s) (hok : ∀ i t, At past (some r) t → Q (.ok (.ok i)) t)
    (herror : ∀ e t, Own past (some r) t → Q (.ok (.error e)) t) :
    wp (singleCtx task) (Runtime.launch intent launchId replaced reason) Q s := by
  rw [Runtime.launch, wp_request]
  constructor
  · intro intent' launchId' replaced' reason' heq
    cases heq
    rw [h.history]
    exact ⟨(h.owned r h.record hphase).1, hmay⟩
  · intro s' hs' reply t ht
    obtain ⟨o, hans⟩ := ht
    have hs := h.exits hs'
    refine ⟨trivial, ?_⟩
    cases o <;> cases hans
    · exact hok _ _ ⟨hs.history, hs.record⟩
    · exact herror _ _ hs
    · exact herror _ _ hs

lemma wp_readOwn {Q : Except ControlError (Option AgentRuntimeRecord) → AgentState → Prop}
    (h : Undisputed s) (hk : ∀ t, Own s.history s.record t → Q (.ok s.record) t) :
    wp (singleCtx task) readRecord Q s := by
  simp only [readRecord, wp_bind, wp_gets, either_ok]
  exact wp_turnOwn ⟨⟨rfl, rfl⟩, h⟩ hk

lemma wp_writeOwn {next : AgentRuntimeRecord}
    (h : s.history = past) (howned : Undisputed { s with record := some next })
    (hk : ∀ t, Own past (some next) t → Q (.ok ()) t) :
    wp (singleCtx task) (writeRecord next) Q s := by
  simp only [writeRecord, wp_bind, wp_update, either_ok]
  exact ⟨trivial, wp_turnOwn ⟨⟨h, rfl⟩, howned⟩ hk⟩

lemma wp_reportOwn {result : AgentControlResult}
    (h : Undisputed s) (hk : ∀ t, Undisputed t → Q (.ok ()) t) :
    wp (singleCtx task) (report result) Q s := by
  simp only [report, wp_bind, wp_update, either_ok]
  have hreported : Undisputed { s with history := .reported result :: s.history } := h.of_eq rfl rfl rfl
  exact ⟨trivial, wp_waitOwn (e := .result result) (fun _ _ _ _ => nofun) ⟨⟨rfl, rfl⟩, hreported⟩
    fun _ _ _ t _ ht => hk t ht.owned⟩

lemma wp_sendOwn {report : Option AgentSessionSnapshot} (h : Undisputed s)
    (hk : ∀ t, Undisputed t → Q (.ok ()) t) : wp (singleCtx task) (sendSession report) Q s := by
  cases report with
  | none => exact hk s h
  | some x =>
    simp only [sendSession, wp_bind, wp_update, either_ok]
    have hsent : Undisputed { s with history := .session x :: s.history } := h.of_eq rfl rfl rfl
    exact ⟨trivial, wp_waitOwn (e := .session x) (by rintro _ _ _ _ ⟨⟩) ⟨⟨rfl, rfl⟩, hsent⟩
      fun _ _ _ t _ ht => hk t ht.owned⟩

end Rules

/-! ### The operations -/

/-- The outcome of an operation. -/
abbrev Settles : Except ControlError Unit → AgentState → Prop := fun _ => Undisputed

section Operations

variable {task : Task} {s : AgentState} {past : List Entry} {record : Option AgentRuntimeRecord}
  {r : AgentRuntimeRecord} {scope : AgentControlScope} {intent : AgentStartIntent}
  {launchId : String} {attempt : Nat}

variable {known : Bool}

lemma wp_requireOwn {Q : Except ControlError Unit → AgentState → Prop}
    (h : Own past record s) (hk : ∀ t, Own past record t → Q (.ok ()) t)
    (herror : ∀ t, Own past record t → Q (.error .controlRecordMissing) t) :
    wp (singleCtx task) (requireRecord record known) Q s := by
  simp only [requireRecord, wp_bind]
  refine wp_turnOwn h fun t ht => ?_
  simp only [either_ok]
  split
  · exact herror t ht
  · exact hk t ht

lemma wp_repairOwn {Q : Except ControlError (Option AgentRuntimeRecord) → AgentState → Prop}
    (h : Own past record s) (hk : ∀ repaired t, Own past repaired t → Q (.ok repaired) t) :
    wp (singleCtx task) (repairStaleRecord record) Q s := by
  simp only [repairStaleRecord, wp_bind, wp_gets, either_ok]
  split
  · simp only [wp_bind]
    exact wp_turnOwn h fun t ht => hk none t ht
  · next r =>
    split
    · simp only [wp_bind]
      refine wp_writeOwn h.history (undisputed_of_phase rfl nofun) fun t ht => ?_
      simp only [either_ok, wp_bind]
      exact wp_turnOwn ht fun u hu => hk (some { r with phase := .stopped }) u hu
    · simp only [wp_bind]
      exact wp_turnOwn h fun t ht => hk (some r) t ht

variable {p : Op Unit}

lemma wp_fenceOwn (h : Own past record s) (hk : wp (singleCtx task) p Settles s) :
    wp (singleCtx task) (do fence record scope; p) Settles s := by
  simp only [wp_bind, fence]
  split
  · exact h.owned
  · exact hk

lemma wp_replayOwn {result : AgentControlResult} {before : Op Unit} (h : Undisputed s)
    (hbefore : wp (singleCtx task) before (fun _ => Undisputed) s) :
    wp (singleCtx task) (replayResult result scope before) Settles s := by
  unfold replayResult
  split
  · exact h
  · simp only [wp_bind]
    refine wp_mono (fun reply t ht => ?_) hbefore
    cases reply with
    | ok => exact wp_reportOwn ht fun _ => id
    | error => exact ht

lemma wp_acceptStopOwn : wp (singleCtx task) (acceptStop record scope) Settles s := by
  simp only [acceptStop, wp_bind, wp_update, wp_gets, either_ok]
  refine ⟨trivial, wp_writeOwn rfl (undisputed_of_phase rfl (by rintro ⟨⟩)) fun t ht => ?_⟩
  refine wp_bind.mpr (wp_stopOwn ht fun reply u hu _ => ?_)
  simp only [either_ok, wp_bind]
  refine wp_writeOwn rfl (undisputed_of_phase rfl ?_) fun v hv => wp_reportOwn hv.owned fun _ => id
  cases reply with
  | error => rintro ⟨⟩
  | ok =>
    simp only [stopOutcome]
    split <;> rintro ⟨⟩

lemma wp_acceptResetOwn : wp (singleCtx task) (acceptReset r scope) Settles s := by
  simp only [acceptReset, wp_bind, wp_update, either_ok, Runtime.clearWorkspace]
  refine ⟨trivial, wp_writeOwn rfl (undisputed_of_phase rfl (by rintro ⟨⟩)) fun t ht => ?_⟩
  refine wp_bind.mpr (wp_waitOwn (e := .clearWorkspace) (by rintro _ _ _ _ ⟨⟩) ht
    fun o cleared s' u _ hu => ?_)
  simp only [either_ok, wp_bind]
  exact wp_writeOwn rfl (undisputed_of_phase rfl (by rintro ⟨⟩)) fun v hv => wp_reportOwn hv.owned fun _ => id

lemma wp_stopCallOwn (h : Undisputed s) : wp (singleCtx task) (stop scope known) Settles s := by
  simp only [stop]
  refine wp_bind.mpr (wp_readOwn h fun t ht => ?_)
  refine wp_bind.mpr (wp_requireOwn ht (fun u hu => ?_) fun u hu => hu.owned)
  refine wp_bind.mpr (wp_repairOwn hu fun record v hv => wp_fenceOwn hv ?_)
  split
  · exact wp_replayOwn hv.owned hv.owned
  · split
    · exact hv.owned
    · exact wp_acceptStopOwn

lemma wp_resetCallOwn (h : Undisputed s) : wp (singleCtx task) (resetWorkspace scope) Settles s := by
  simp only [resetWorkspace]
  refine wp_bind.mpr (wp_readOwn h fun t ht => ?_)
  refine wp_bind.mpr (wp_repairOwn ht fun record u hu => wp_fenceOwn hu ?_)
  split
  · exact hu.owned
  · have hknown : Undisputed { u with known := true } := hu.owned.of_eq rfl rfl rfl
    simp only [wp_bind, wp_update, either_ok]
    refine ⟨trivial, ?_⟩
    split
    · exact wp_replayOwn hknown hknown
    · simp only [wp_bind, wp_gets, either_ok]
      split
      · exact hknown
      · exact wp_acceptResetOwn

/-! ### Launches -/

lemma wp_launchedOwn {identity : Option SessionIdentity} :
    wp (singleCtx task) (launched scope r launchId identity) Settles s := by
  simp only [launched, wp_bind]
  refine wp_writeOwn rfl (undisputed_of_phase rfl (by simp)) fun t ht => ?_
  simp only [either_ok]
  obtain ⟨n, hn⟩ := t.resetLaunchFailures.clearLaunchRetry_eq
  refine ⟨trivial, wp_reportOwn (ht.owned.of_eq ?_ ?_ ?_) fun _ => id⟩
  · simp [AgentState.onLaunchSucceeded, AgentState.resetLaunchFailures]
  · simp [AgentState.onLaunchSucceeded, AgentState.resetLaunchFailures]
  · simp [AgentState.onLaunchSucceeded, AgentState.resetLaunchFailures]

lemma wp_launchFailureOwn (h : Own past (some r) s) :
    wp (singleCtx task) (launchFailure intent scope r launchId attempt) Settles s := by
  simp only [launchFailure, wp_bind]
  refine wp_stopOwn h fun reply t ht _ => ?_
  cases reply with
  | error => exact ht.owned
  | ok i =>
    simp only [either_ok, orThrow, wp_pure, wp_bind, wp_update, wp_gets]
    refine ⟨trivial, ?_⟩
    split
    · have hsame : { { t with launchFailures := t.launchFailures + 1 } with record := some r } =
          { t with launchFailures := t.launchFailures + 1 } := by
        rw [← ht.record]
      have howned : Undisputed { { t with launchFailures := t.launchFailures + 1 } with
          record := some r } := by
        rw [hsame]
        exact ht.owned.of_eq rfl rfl rfl
      simp only [wp_bind]
      refine wp_writeOwn rfl howned fun u hu => ?_
      simp only [either_ok, wp_update]
      refine ⟨trivial, hu.owned.of_eq ?_ ?_ ?_⟩ <;> simp [AgentState.scheduleLaunchRetry]
    · simp only [wp_bind, wp_update, either_ok]
      refine ⟨trivial, wp_writeOwn rfl (undisputed_of_phase rfl (by rintro ⟨⟩)) fun u hu => ?_⟩
      exact wp_reportOwn hu.owned fun _ => id

/-- The record of an attempt is that of the Start accepted last, and no process runs. -/
lemma wp_attemptStartOwn (hrunning : s.running = false)
    (hstarted : StartedLast s.history scope.epoch launchId)
    (hmay : mayLaunch task s.history launchId) :
    wp (singleCtx task) (attemptStart intent scope r launchId attempt) Settles s := by
  simp only [attemptStart, wp_bind, wp_gets, either_ok]
  generalize hnext : ({ r with
      scope := scope, action := .start, phase := .starting, launchId := some launchId,
      daemonInstanceId := s.instanceId, report := none } : AgentRuntimeRecord) = next
  have hphase : next.phase = .starting := hnext ▸ rfl
  have howned : Undisputed { s with record := some next } := by
    intro r' hr' _
    cases hr'
    exact ⟨hrunning, launchId, hnext ▸ rfl, hnext ▸ hstarted⟩
  refine wp_writeOwn rfl howned fun t ht => ?_
  simp only [either_ok, wp_result, wp_bind, launchWithRecovery]
  refine wp_launchEffect hphase hmay ht (fun i u hu => wp_launchedOwn) fun e u hu => ?_
  cases e with
  | other => exact wp_launchFailureOwn hu
  | recovery code =>
    simp only [either_ok]
    split
    · exact wp_launchFailureOwn hu
    · simp only [wp_bind]
      exact wp_launchEffect hphase hmay hu (fun i v hv => wp_launchedOwn)
        fun e v hv => wp_launchFailureOwn hv

/-! ### Start -/

lemma wp_rebindRunningOwn (hphase : r.phase = .running) :
    wp (singleCtx task) (rebindRunning r scope intent launchId) Settles s := by
  have hrunning : r.phase ≠ .starting := by
    rw [hphase]
    decide
  simp only [rebindRunning, wp_bind, Runtime.rebind]
  refine wp_writeOwn rfl (undisputed_of_phase rfl hrunning) fun t ht => ?_
  refine wp_bind.mpr (wp_waitOwn (e := .rebind intent launchId) (by rintro _ _ _ _ ⟨⟩) ht
    fun o reply s' u _ hu => ?_)
  cases reply with
  | error => exact hu.owned
  | ok identity =>
    simp only [either_ok, orThrow, wp_pure, wp_bind]
    refine wp_writeOwn rfl (undisputed_of_phase rfl ?_) fun v hv => ?_
    · rw [AgentRuntimeRecord.capture_phase]
      exact hrunning
    simp only [either_ok]
    split
    · simp only [wp_bind, Runtime.wake]
      refine wp_waitOwn (e := .wake intent) (by rintro _ _ _ _ ⟨⟩) hv fun o reply s' w _ hw => ?_
      cases reply with
      | error => exact hw.owned
      | ok => exact wp_reportOwn hw.owned fun _ => id
    · exact wp_reportOwn hv.owned fun _ => id

lemma wp_refuseOwn {code : String} {error : ControlError} (h : Undisputed s) :
    wp (singleCtx task) (refuse record scope code error) Settles s := by
  simp only [refuse, wp_bind]
  exact wp_reportOwn h fun _ => id

lemma wp_admitStartOwn (htask : ∀ retry, task ≠ .retry retry) (h : Own past record s) :
    wp (singleCtx task) (admitStart record scope intent) Settles s := by
  unfold admitStart
  split
  · exact wp_refuseOwn h.owned
  next launchId _ =>
    have hstarted {t : AgentState} (ht : t.history = .accepted (.start scope launchId) :: past) :
        StartedLast t.history scope.epoch launchId :=
      ⟨scope, by rw [ht]; rfl, rfl⟩
    have hmay (t : AgentState) : mayLaunch task t.history launchId :=
      fun retry heq => absurd heq (htask retry)
    have hhistory : (s.accept (.start scope launchId)).history =
        .accepted (.start scope launchId) :: past := congrArg _ h.history
    simp only [wp_bind, wp_gets, either_ok]
    split
    · exact wp_refuseOwn h.owned
    · next r hroute =>
      simp only [wp_bind, wp_update, either_ok]
      exact ⟨trivial, wp_rebindRunningOwn (startRoute_rebind hroute).2.1⟩
    · next hroute =>
      have hrunning : s.running = true := startRoute_replace hroute
      have howned : Own (.accepted (.start scope launchId) :: past) record
          (s.accept (.start scope launchId)) := by
        refine ⟨⟨hhistory, h.record⟩, fun r hr hphase => ?_⟩
        have hstill := (h.owned r hr hphase).1
        rw [hrunning] at hstill
        cases hstill
      simp only [wp_bind, wp_update, either_ok]
      refine ⟨trivial, wp_stopOwn howned fun reply t ht hstopped => ?_⟩
      cases reply with
      | error => exact ht.owned
      | ok i =>
        exact wp_attemptStartOwn (hstopped i rfl) (hstarted ht.history) (hmay t)
    · next hroute =>
      simp only [wp_bind, wp_update, wp_gets, either_ok]
      exact ⟨trivial, wp_attemptStartOwn (startRoute_launch hroute) (hstarted hhistory) (hmay _)⟩

lemma wp_decideStartOwn (htask : ∀ retry, task ≠ .retry retry) (h : Own past record s) :
    wp (singleCtx task) (decideStart record scope intent) Settles s := by
  refine wp_fenceOwn h ?_
  split
  · refine wp_replayOwn h.owned ?_
    simp only [wp_bind, wp_gets, either_ok]
    split
    · simp only [wp_bind, Runtime.wake]
      refine wp_waitOwn (e := .wake _) (fun _ _ _ _ => nofun) h fun o reply s' t _ ht => ?_
      cases reply with
      | error => exact ht.owned
      | ok => exact ht.owned
    · exact h.owned
  · simp only [wp_bind, wp_read, either_ok]
    split
    · simp only [wp_bind, wp_update, either_ok]
      obtain ⟨n, hn⟩ := s.clearLaunchRetry_eq
      refine ⟨trivial, @wp_admitStartOwn _ _ past record _ _ htask ⟨⟨?_, ?_⟩, ?_⟩⟩
      · simp [AgentState.resetLaunchFailures, h.history]
      · simp [AgentState.resetLaunchFailures, h.record]
      · refine h.owned.of_eq ?_ ?_ ?_ <;> simp [AgentState.resetLaunchFailures]
    · split
      · exact h.owned
      · exact wp_admitStartOwn htask h

lemma wp_startOwn (htask : ∀ retry, task ≠ .retry retry) (h : Undisputed s) :
    wp (singleCtx task) (start intent known) Settles s := by
  unfold start
  split
  · exact h
  · exact h
  · refine wp_bind.mpr (wp_readOwn h fun t ht => ?_)
    refine wp_bind.mpr (wp_requireOwn ht (fun u hu => ?_) fun u hu => hu.owned)
    exact wp_bind.mpr (wp_repairOwn hu fun record v hv => wp_decideStartOwn htask hv)

lemma wp_retryStartOwn {retry : LaunchRetry} (h : Undisputed s) :
    wp (singleCtx (.retry retry)) (retryStart retry) Settles s := by
  simp only [retryStart, wp_bind]
  refine wp_readOwn h fun t ht => ?_
  simp only [either_ok]
  split
  · exact ht.owned
  next record hrecord =>
    split
    · exact ht.owned
    next howns =>
      obtain ⟨hphase, hepoch, hlaunch⟩ := not_not.mp howns
      obtain ⟨hstill, launchId, hsame, hstarted⟩ :=
        ht.owned record (ht.record.trans hrecord) hphase
      obtain rfl := Option.some.inj (hlaunch.symm.trans hsame)
      rw [hepoch] at hstarted
      simp only [wp_bind, wp_gets, either_ok]
      split
      next hrunning =>
        rw [hstill] at hrunning
        cases hrunning
      next =>
        refine wp_attemptStartOwn hstill hstarted fun retry' heq => ?_
        cases heq
        exact ⟨rfl, hstarted⟩

/-! ### Reports of the runtime -/

lemma wp_movedOwn {identity : Option SessionIdentity} {source target : Phase} (h : Undisputed s)
    (htarget : target ≠ .starting) :
    wp (singleCtx task) (moved launchId identity source target) Settles s := by
  simp only [moved, wp_bind]
  refine wp_readOwn h fun t ht => ?_
  simp only [either_ok]
  split
  · exact ht.owned
  · split
    · exact ht.owned
    · refine wp_writeOwn rfl (undisputed_of_phase rfl ?_) fun u hu => hu.owned
      rw [AgentRuntimeRecord.capture_phase]
      exact htarget

lemma wp_updateSessionOwn {identity : SessionIdentity} (h : Undisputed s) :
    wp (singleCtx task) (updateSession launchId identity) Settles s := by
  simp only [updateSession, wp_bind]
  refine wp_readOwn h fun t ht => ?_
  simp only [either_ok]
  split
  · exact ht.owned
  · split
    · exact ht.owned
    next hrunning =>
      simp only [wp_bind]
      refine wp_writeOwn rfl (undisputed_of_phase rfl ?_) fun u hu => wp_sendOwn hu.owned fun _ => id
      rw [AgentRuntimeRecord.capture_phase]
      intro hstarting
      exact hrunning (.inr (by rw [hstarting]; decide))

/-! ### Every operation -/

lemma wp_loggedOwn (h : wp (singleCtx task) p Settles s) :
    wp (singleCtx task) (logged p) Settles s := by
  simp only [logged, wp_tryCatch]
  refine wp_mono (fun reply t ht => ?_) h
  cases reply with
  | ok => exact ht
  | error e => exact ⟨trivial, ht.of_eq rfl rfl rfl⟩

lemma wp_startRunOwn (h : wp (singleCtx task) p Settles s) :
    wp (singleCtx task) (p.andFinally (update AgentState.endStartRun)) Settles s := by
  simp only [wp_andFinally]
  refine wp_mono (fun reply t ht => ⟨trivial, ?_⟩) h
  obtain ⟨n, hn⟩ := t.endStartRun_eq
  rw [hn]
  exact ht.of_eq rfl rfl rfl

/-- Every operation launches as it may. -/
theorem wp_bodyOwn (task : Task) (h : Undisputed s) : wp (singleCtx task) (body task) Settles s := by
  cases task with
  | start intent known => exact wp_loggedOwn (wp_startRunOwn (wp_startOwn (fun _ => nofun) h))
  | retry retry =>
    refine wp_startRunOwn ?_
    rw [wp_tryCatch]
    refine wp_mono (fun reply t ht => ?_) (wp_retryStartOwn h)
    cases reply with
    | ok => exact ht
    | error => exact ht
  | stop scope known => exact wp_loggedOwn (wp_stopCallOwn h)
  | resetWorkspace scope => exact wp_loggedOwn (wp_resetCallOwn h)
  | stopped launchId identity => exact wp_movedOwn h nofun
  | wake launchId identity => exact wp_movedOwn h nofun
  | updateSession launchId identity => exact wp_updateSessionOwn h
  | replay =>
    simp only [body, replay, wp_bind]
    refine wp_readOwn h fun t ht => ?_
    simp only [either_ok]
    split
    · exact ht.owned
    · exact wp_reportOwn ht.owned fun _ => id
  | replaySession =>
    simp only [body, replaySession, wp_bind]
    exact wp_readOwn h fun t ht => wp_sendOwn ht.owned fun _ => id

end Operations

/-! ### Every run -/

lemma exits_event {s : AgentState} {l : Event} (hl : l ≠ .process true)
    (h : s.event l = some t) : Exits s t := by
  refine ⟨undisturbed_event h, fun hstill => ?_⟩
  cases l with
  | process running =>
    cases h
    cases running with
    | true => exact absurd rfl hl
    | false => rfl
  | retryDue =>
    obtain ⟨r, -, rfl⟩ := Option.map_eq_some_iff.mp h
    exact hstill
  | replay =>
    obtain ⟨-, h⟩ := Option.ite_none_right_eq_some.mp h
    cases h
    exact hstill
  | _ =>
    cases h
    exact hstill

/-- The events of the Agent, less a process that comes up by itself. -/
def singleSpec : agentControl.Spec fun _ a => a ≠ .event (.process true) where
  idle := Undisputed
  context := singleCtx
  rely_refl _ := exits_refl
  rely_trans _ _ _ _ := exits_trans
  guar_refl _ _ := trivial
  guar_trans _ _ _ _ _ _ := trivial
  event_idle _ _ _ _ hok hevent hidle :=
    hidle.exits (exits_event (fun heq => hok (heq ▸ rfl)) hevent)
  event_rely _ _ _ _ _ _ hok hevent := exits_event (fun heq => hok (heq ▸ rfl)) hevent
  reply_answer _ _ _ o _ _ _ _ hans := ⟨o, hans⟩
  body_safe s task t _ _ hnext hidle := by
    simp only [agentControl, AgentState.next] at hnext
    split at hnext
    · cases hnext
    · cases hnext
      exact wp_bodyOwn task (hidle.of_eq rfl rfl rfl)

/-- A launch is awaited. -/
def System.launching (s : System) : Bool :=
  s.turn.any fun turn =>
    match turn.2.effect with
    | .launch _ _ _ _ => true
    | _               => false

/-- The process that runs and the one that is being launched. -/
def System.processes (s : System) : Nat := s.shared.running.toNat + s.launching.toNat

lemma processes_le {s : System} (h : s.launching = true → s.shared.running = false) :
    s.processes ≤ 1 := by
  unfold System.processes
  cases hlaunching : s.launching with
  | false => cases s.shared.running <;> decide
  | true => simp [h hlaunching]

/-- There is never more than one process or launch, and what a retry launches is the Start that
was accepted last. -/
theorem single_launch {instanceId : String} {acts : List (Act Event Outcome)} {s : System}
    (hacts : ∀ a ∈ acts, a ≠ .event (.process true))
    (hrun : run agentControl.step (System.init instanceId) acts = some s) :
    s.processes ≤ 1 ∧ ∀ retry p intent launchId replaced reason,
      s.turn = some (.retry retry, p) → p.effect = .launch intent launchId replaced reason →
        launchId = retry.launchId ∧
          StartedLast s.shared.history retry.scope.epoch retry.launchId := by
  have hinit : singleSpec.Inv (System.init instanceId) := by
    refine (singleSpec.inv_idle rfl).mpr fun r hr => ?_
    cases hr
  have hinv := singleSpec.safe_run hinit (permitted_of_mem hacts _) hrun
  have hlaunch {task : Task} {p : Suspended AgentState Reply ControlError Unit}
      {intent : AgentStartIntent} {launchId : String} {replaced : Option String}
      {reason : Option AgentSessionInvalidateReason} (hturn : s.turn = some (task, p))
      (heffect : p.effect = .launch intent launchId replaced reason) :
      s.shared.running = false ∧ mayLaunch task s.shared.history launchId := by
    obtain ⟨u, hissue, -, ⟨added, hj⟩, hstill⟩ := (singleSpec.inv_turn hturn).mp hinv
    obtain ⟨hrunning, hmay⟩ := hissue _ _ _ _ heffect
    exact ⟨hstill hrunning, hj.history.symm ▸ hmay⟩
  refine ⟨processes_le fun hlaunching => ?_, fun retry p intent launchId replaced reason hturn heffect =>
    (hlaunch hturn heffect).2 retry rfl⟩
  rcases hturn : s.turn with _ | ⟨task, p⟩
  · rw [System.launching, hturn] at hlaunching
    cases hlaunching
  · rw [System.launching, hturn, Option.any_some] at hlaunching
    split at hlaunching
    next heffect => exact (hlaunch hturn heffect).1
    next => cases hlaunching

/-- A Start whose first launch fails. -/
def failedStartRun : List (Act Event Outcome) :=
  [.event (.start (sampleStart "start" 1 "launch")), .begin, .reply .done, .reply .done,
    .reply .done, .reply .done, .reply .failed, .reply (.identity none), .reply .done]

/-- Its retry comes to its launch. -/
theorem single_launch_retried : ∃ s : System, run agentControl.step (System.init "daemon")
        (failedStartRun ++ [.event .retryDue, .begin, .reply .done, .reply .done]) = some s ∧
      s.processes ≤ 1 := by
  obtain ⟨s, hs⟩ := Option.isSome_iff_exists.mp
    (show (run agentControl.step (System.init "daemon")
      (failedStartRun ++ [.event .retryDue, .begin, .reply .done, .reply .done])).isSome by
      decide)
  exact ⟨s, hs, (single_launch (by decide) hs).1⟩

/-- The same Stop and Start called while the retry waits in the queue. -/
def overtakenRun : List (Act Event Outcome) :=
  failedStartRun ++ [.event (.stop ((sampleStart "start" 1 "launch").scope 1)),
    .event (.start (sampleStart "start" 1 "launch")), .event .retryDue]

/-- The Stop is accepted, and the second launch of the Start fails like the first one. -/
def overtakingRun : List (Act Event Outcome) :=
  [.begin, .reply .done, .reply .done, .reply .done, .reply .done, .reply (.identity none),
    .reply .done, .reply .done, .begin, .reply .done, .reply .done, .reply .done, .reply .done,
    .reply .failed, .reply (.identity none), .reply .done, .begin, .reply .done, .reply .done]

/-- A retry that is in the queue launches although a Stop was accepted since. -/
theorem retry_outlives_stop :
    ¬ ∀ instanceId acts later (s t : System) retry p, (∀ a ∈ acts ++ later, a ≠ .event (.process true)) →
      run agentControl.step (System.init instanceId) acts = some s →
      .retry retry ∈ s.shared.pending → .event .retryDue ∉ later →
      run agentControl.step s later = some t →
      (∃ scope, .accepted (.stop scope) ∈ t.shared.history ∧
        .accepted (.stop scope) ∉ s.shared.history) →
      t.turn = some (.retry retry, p) → t.launching = false := by
  intro h
  have hlaunches := h "daemon" overtakenRun overtakingRun _ _ _ _ (by decide) rfl
    (.tail _ (.tail _ (.head _))) (by decide) rfl
    ⟨(sampleStart "start" 1 "launch").scope 1, by decide, by decide⟩ rfl
  exact absurd hlaunches (by decide)

end Coforge.Control
