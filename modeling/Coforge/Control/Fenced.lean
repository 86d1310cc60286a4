import Coforge.Control.Sequences

/-!
# Control fencing in the daemon

The operations under the rules of `Coforge.Control.Sequences`. While an operation waits the record
and the history stay as it left them, so an operation is followed from one pair of them to the
next. A record is only replaced by one of the same epoch or a later one, and a call that the fence
throws out does nothing at all.
-/

namespace Coforge.Control

open Async Async.Prog Transition Option AgentState

/-- The epoch of the record does not go back. -/
def EpochKept (s t : AgentState) : Prop :=
  ∀ r ∈ s.record, ∃ r' ∈ t.record, r.scope.epoch ≤ r'.scope.epoch

variable {t : AgentState}

lemma EpochKept.of_record {s : AgentState} (h : t.record = s.record) : EpochKept s t :=
  fun r hr => ⟨r, h ▸ hr, Nat.le_refl _⟩

lemma EpochKept.trans {s u : AgentState} (hst : EpochKept s t) (htu : EpochKept t u) :
    EpochKept s u := by
  intro r hr
  obtain ⟨r', hr', hle⟩ := hst r hr
  obtain ⟨r'', hr'', hle'⟩ := htu r' hr'
  exact ⟨r'', hr'', Nat.le_trans hle hle'⟩

lemma EpochKept.of_undisturbed {s : AgentState} (h : Undisturbed s t) : EpochKept s t := by
  obtain ⟨added, hj⟩ := h
  exact .of_record hj.record

def fencedCtx : Context AgentState Reply where
  rely := Undisturbed
  answer e s r t := ∃ o, s.answer e o = some (r, t)
  guar := EpochKept
  issue _ s := Trace.Each Emitted s.history

/-- What an operation knows of the state while it waits. -/
structure At (past : List Entry) (record : Option AgentRuntimeRecord) (s : AgentState) : Prop where
  history : s.history = past
  record : s.record = record

lemma at_stable (past : List Entry) (record : Option AgentRuntimeRecord) :
    Stable (At past record) := by
  rintro s t ⟨added, hj⟩ h
  exact ⟨hj.history.trans h.history, hj.record.trans h.record⟩

lemma At.sequenced {past : List Entry} {record : Option AgentRuntimeRecord} {s : AgentState}
    (h : At past record s) (hc : Consistent past record) : Sequenced s := by
  rw [Sequenced, h.history, h.record]
  exact hc

/-! ### Rules for the effects -/

section Rules

variable {s : AgentState} {past : List Entry} {record : Option AgentRuntimeRecord}

lemma wp_await {e : Effect} {Q : Except ControlError (Reply e) → AgentState → Prop}
    (hordered : Trace.Each Emitted past) (h : At past record s)
    (hk : ∀ r t, At past record t → Q (.ok r) t) : wp fencedCtx (request e) Q s := by
  rw [wp_request]
  constructor
  · show Trace.Each Emitted s.history
    rw [h.history]
    exact hordered
  · intro s' hs' r t ht
    obtain ⟨o, hans⟩ := ht
    have hs : At past record s' := at_stable _ _ s s' hs' h
    have hdone := undisturbed_answer hans
    exact ⟨.of_undisturbed hdone, hk r t (at_stable _ _ s' t hdone hs)⟩

variable {Q : Except ControlError Unit → AgentState → Prop}

lemma wp_aside {f : AgentState → AgentState}
    (hhistory : (f s).history = s.history) (hrecord : (f s).record = s.record)
    (h : At past record s) (hk : At past record (f s) → Q (.ok ()) (f s)) :
    wp fencedCtx (update f) Q s :=
  ⟨.of_record hrecord, hk ⟨hhistory.trans h.history, hrecord.trans h.record⟩⟩

lemma wp_readAt {Q : Except ControlError (Option AgentRuntimeRecord) → AgentState → Prop}
    (h : Sequenced s) (hk : ∀ t, At s.history s.record t → Q (.ok s.record) t) :
    wp fencedCtx readRecord Q s := by
  simp only [readRecord, wp_bind, wp_gets, either_ok, turn]
  exact wp_await (e := .turn .read) h.ordered ⟨rfl, rfl⟩ fun _ => hk

lemma wp_writeAt {next : AgentRuntimeRecord}
    (hordered : Trace.Each Emitted past) (h : At past record s)
    (hepoch : ∀ r ∈ record, r.scope.epoch ≤ next.scope.epoch)
    (hk : ∀ t, At past (some next) t → Q (.ok ()) t) : wp fencedCtx (writeRecord next) Q s := by
  simp only [writeRecord, wp_bind, wp_update, either_ok, turn]
  refine ⟨fun r hr => ⟨next, rfl, hepoch r (h.record ▸ hr)⟩, ?_⟩
  exact wp_await (e := .turn .written) hordered ⟨h.history, rfl⟩ fun _ => hk

lemma wp_reportAt {result : AgentControlResult}
    (hnext : Consistent (.reported result :: past) record) (h : At past record s)
    (hk : ∀ t, Sequenced t → Q (.ok ()) t) : wp fencedCtx (report result) Q s := by
  simp only [report, wp_bind, wp_update, either_ok]
  refine ⟨.of_record rfl, wp_await (e := .result result) hnext.ordered
    ⟨congrArg _ h.history, h.record⟩ fun _ t ht => hk t (ht.sequenced hnext)⟩

lemma wp_sendAt {report : Option AgentSessionSnapshot} (hc : Consistent past record)
    (hnext : ∀ x, report = some x → Consistent (.session x :: past) record) (h : At past record s)
    (hk : ∀ t, Sequenced t → Q (.ok ()) t) : wp fencedCtx (sendSession report) Q s := by
  cases report with
  | none => exact hk s (h.sequenced hc)
  | some x =>
    simp only [sendSession, wp_bind, wp_update, either_ok]
    refine ⟨.of_record rfl, wp_await (e := .session x) (hnext x rfl).ordered
      ⟨congrArg _ h.history, h.record⟩ fun _ t ht => hk t (ht.sequenced (hnext x rfl))⟩

end Rules

/-! ### The operations -/

/-- The outcome of an operation. -/
abbrev Ends : Except ControlError Unit → AgentState → Prop := fun _ => Sequenced

section Operations

variable {s : AgentState} {past : List Entry} {record : Option AgentRuntimeRecord}
  {scope : AgentControlScope}

variable {known : Bool}

lemma wp_requireAt {Q : Except ControlError Unit → AgentState → Prop}
    (hc : Consistent past record) (h : At past record s) (hk : ∀ t, At past record t → Q (.ok ()) t)
    (herror : ∀ t, At past record t → Q (.error .controlRecordMissing) t) :
    wp fencedCtx (requireRecord record known) Q s := by
  simp only [requireRecord, wp_bind, turn]
  refine wp_await (e := .turn .required) hc.ordered h fun _ t ht => ?_
  simp only [either_ok]
  split
  · exact herror t ht
  · exact hk t ht

lemma wp_repairAt {Q : Except ControlError (Option AgentRuntimeRecord) → AgentState → Prop}
    (hc : Consistent past record) (h : At past record s)
    (hk : ∀ repaired t, Consistent past repaired → At past repaired t → Q (.ok repaired) t) :
    wp fencedCtx (repairStaleRecord record) Q s := by
  have hkeep {s : AgentState} {record : Option AgentRuntimeRecord} (hc : Consistent past record)
      (h : At past record s) : wp fencedCtx (do turn .repaired; return record) Q s := by
    simp only [wp_bind, turn]
    exact wp_await (e := .turn .repaired) hc.ordered h fun _ t ht => hk record t hc ht
  simp only [repairStaleRecord, wp_bind, wp_gets, either_ok]
  cases record with
  | none => exact hkeep hc h
  | some r =>
    simp only
    split
    · simp only [wp_bind]
      refine wp_writeAt hc.ordered h (fun r' hr' => ?_) fun t ht => hkeep ?_ ht
      · cases hr'
        exact Nat.le_refl _
      · exact .of_kept hc.ordered ((hc.kept r rfl).settled (by intro h; cases h))
    · exact hkeep hc h

variable {p : Op Unit}

lemma wp_fenceAt (hc : Consistent past record) (h : At past record s)
    (hk : (∀ r ∈ record, r.scope.epoch ≤ scope.epoch) → wp fencedCtx p Ends s) :
    wp fencedCtx (do fence record scope; p) Ends s := by
  simp only [wp_bind, fence]
  split
  · exact h.sequenced hc
  next hfits =>
    refine hk fun r hr => ?_
    by_contra hlt
    exact hfits ⟨r, hr, .inr (.inr (.inr (.inl (by omega))))⟩

variable {result : AgentControlResult}

lemma wp_replayResultAt {before : Op Unit}
    (hc : Consistent past record) (hnext : Consistent (.reported result :: past) record)
    (h : At past record s) (hbefore : wp fencedCtx before (fun _ => At past record) s) :
    wp fencedCtx (replayResult result scope before) Ends s := by
  unfold replayResult
  split
  · exact h.sequenced hc
  · simp only [wp_bind]
    refine wp_mono (fun r t ht => ?_) hbefore
    cases r with
    | ok => exact wp_reportAt hnext ht fun _ => id
    | error => exact ht.sequenced hc

/-- Nothing of a later epoch went out, and of the same epoch as much as the record says. -/
lemma Consistent.within (hc : Consistent past record)
    (hepoch : ∀ r ∈ record, r.scope.epoch ≤ scope.epoch) {x : Entry} (hx : x ∈ past)
    {epoch sequence : Nat} (hstamp : x.stamp = some (epoch, sequence)) :
    epoch < scope.epoch ∨ (epoch = scope.epoch ∧ sequence ≤ sequenceAt record scope) := by
  cases record with
  | none =>
    rw [hc.missing rfl x hx] at hstamp
    cases hstamp
  | some r =>
    have hle := hepoch r rfl
    rcases (hc.kept r rfl).within x hx epoch sequence hstamp with hlt | ⟨rfl, hseq⟩
    · exact .inl (by omega)
    · rcases Nat.lt_or_eq_of_le hle with hlt | heq
      · exact .inl hlt
      · refine .inr ⟨heq, ?_⟩
        simpa [sequenceAt, sameEpoch, Option.filter, heq] using hseq

/-! ### Stop and reset -/

lemma capture_unlaunched {r : AgentRuntimeRecord} (h : r.launchId = none)
    (identity : Option SessionIdentity) : r.capture identity = { r with identity := identity } := by
  cases identity <;> simp [AgentRuntimeRecord.capture, truthy, h]

lemma Kept.stopOutcome {r : AgentRuntimeRecord} (h : Kept past r) (hscope : r.scope = scope)
    (hlaunch : r.launchId = none) (hstart : r.startResult = none) (hreport : r.report = none)
    (required : Bool) (reply : Except Unit (Option SessionIdentity)) :
    ((stopOutcome r scope required reply).2.epoch = r.scope.epoch ∧
      (stopOutcome r scope required reply).2.sequence = r.sequence + 1) ∧
    (stopOutcome r scope required reply).1.scope = r.scope ∧
    Kept (.reported (stopOutcome r scope required reply).2 :: past)
      (stopOutcome r scope required reply).1 := by
  subst hscope
  cases reply with
  | ok identity =>
    have hcapture := capture_unlaunched hlaunch (identity.or r.identity)
    refine ⟨⟨rfl, ?_⟩, ?_, h.takes ?_ ?_ ⟨rfl, ?_⟩ ?_ ?_ ?_ ?_ ?_ ?_⟩ <;>
      simp only [Control.stopOutcome, hcapture]
    · rfl
    · rfl
    · exact fun y hy => .inl (some.inj hy).symm
    · exact fun y hy => .inr hy
    · simp [hstart]
    · simp [hreport]
    · cases required <;> decide
  | error e =>
    refine ⟨⟨rfl, rfl⟩, rfl, h.takes rfl rfl ⟨rfl, rfl⟩ rfl ?_ ?_ ?_ ?_ nofun⟩
    · exact fun y hy => .inl (some.inj hy).symm
    · exact fun y hy => .inr hy
    · simp [Control.stopOutcome, hstart]
    · simp [Control.stopOutcome, hreport]

lemma wp_acceptStopAt (hc : Consistent past record) (h : At past record s)
    (hepoch : ∀ r ∈ record, r.scope.epoch ≤ scope.epoch) :
    wp fencedCtx (acceptStop record scope) Ends s := by
  have hc' : Consistent (.accepted (.stop scope) :: past) record := hc.cons_none rfl
  have hstop {next : AgentRuntimeRecord} (hscope : next.scope = scope)
      (hsequence : next.sequence = sequenceAt record scope) (hlaunch : next.launchId = none)
      (hstopped : next.stopResult = none) (hreset : next.workspaceResetResult = none)
      (hstart : next.startResult = none) (hlast : next.lastResult = none)
      (hreport : next.report = none) (required : Bool) {t : AgentState}
      (ht : At (.accepted (.stop scope) :: past) record t) :
      wp fencedCtx (do
        writeRecord next
        let reply ← Runtime.stop
        writeRecord (stopOutcome next scope required reply).1
        report (stopOutcome next scope required reply).2) Ends t := by
    have hkept : Kept (.accepted (.stop scope) :: past) next := by
      refine .empty (fun x hx epoch sequence hstamp => ?_) hstopped hreset hstart hlast hreport
      rw [Within, hscope, hsequence]
      exact hc'.within hepoch hx hstamp
    simp only [wp_bind, Runtime.stop]
    refine wp_writeAt hc'.ordered ht (by rw [hscope]; exact hepoch) fun u hu => ?_
    refine wp_bind.mpr (wp_await (e := .stop) hc'.ordered hu fun reply v hv => ?_)
    obtain ⟨hresult, hsame, hnext⟩ :=
      hkept.stopOutcome hscope hlaunch hstart hreport required reply
    simp only [either_ok, wp_bind]
    refine wp_writeAt hc'.ordered hv (fun r hr => ?_) fun w hw => ?_
    · cases hr
      exact Nat.le_of_eq (congrArg (·.epoch) hsame).symm
    · exact wp_reportAt (.takes hc'.ordered hkept hresult hnext) hw fun _ => id
  refine ⟨.of_record ?_, hstop rfl rfl rfl rfl rfl rfl rfl rfl _ ⟨?_, ?_⟩⟩
  · simp [accept, resetLaunchFailures]
  · simp [accept, resetLaunchFailures, h.history]
  · simp [accept, resetLaunchFailures, h.record]

lemma wp_acceptResetAt {r : AgentRuntimeRecord} (hc : Consistent past (some r))
    (h : At past (some r) s) (hepoch : r.scope.epoch = scope.epoch)
    (hstart : r.startResult = none) : wp fencedCtx (acceptReset r scope) Ends s := by
  have hc' : Consistent (.accepted (.resetWorkspace scope) :: past) (some r) := hc.cons_none rfl
  have hkept := hc'.kept r rfl
  simp only [acceptReset, wp_bind, wp_update, either_ok, Runtime.clearWorkspace]
  refine ⟨.of_record rfl, wp_writeAt hc'.ordered ⟨congrArg _ h.history, h.record⟩ (fun r' hr => ?_)
    fun t ht => ?_⟩
  · cases hr
    exact Nat.le_refl _
  refine wp_bind.mpr (wp_await (e := .clearWorkspace) hc'.ordered ht fun cleared u hu => ?_)
  simp only [either_ok, wp_bind]
  refine wp_writeAt hc'.ordered hu (fun r' hr => ?_) fun v hv => ?_
  · cases hr
    exact Nat.le_refl _
  · refine wp_reportAt (.takes hc'.ordered hkept ⟨hepoch.symm, rfl⟩ ?_) hv fun _ => id
    refine hkept.takes rfl rfl ⟨hepoch.symm, rfl⟩ rfl (fun y hy => .inr hy) (fun y hy => .inl ?_)
      ?_ ?_ (by intro h; cases h)
    · exact (some.inj hy).symm
    · simp [hstart]
    · simp

lemma sameEpoch_some {r : AgentRuntimeRecord} (h : sameEpoch record scope = some r) :
    record = some r ∧ r.scope.epoch = scope.epoch := by
  obtain ⟨hr, hepoch⟩ := filter_eq_some_iff.mp h
  exact ⟨hr, of_decide_eq_true hepoch⟩

lemma wp_stopAt (h : Sequenced s) : wp fencedCtx (stop scope known) Ends s := by
  simp only [stop]
  refine wp_bind.mpr (wp_readAt h fun t ht => ?_)
  refine wp_bind.mpr (wp_requireAt h ht (fun u hu => ?_) fun u hu => hu.sequenced h)
  refine wp_bind.mpr (wp_repairAt h hu fun record v hc hv => ?_)
  refine wp_fenceAt hc hv fun hepoch => ?_
  split
  · next result hresult =>
    obtain ⟨r, hr, hstop⟩ := bind_eq_some_iff.mp hresult
    obtain ⟨rfl, -⟩ := sameEpoch_some hr
    exact wp_replayResultAt hc (hc.cons_repeat ((hc.kept r rfl).stop result hstop)) hv hv
  · split
    · exact hv.sequenced hc
    · exact wp_acceptStopAt hc hv hepoch

lemma wp_resetWorkspaceAt (h : Sequenced s) : wp fencedCtx (resetWorkspace scope) Ends s := by
  simp only [resetWorkspace]
  refine wp_bind.mpr (wp_readAt h fun t ht => ?_)
  refine wp_bind.mpr (wp_repairAt h ht fun record u hc hu => ?_)
  refine wp_fenceAt hc hu fun _ => ?_
  split
  · exact hu.sequenced hc
  · next r hr =>
    obtain ⟨hr, -⟩ := filter_eq_some_iff.mp hr
    obtain ⟨rfl, hepoch⟩ := sameEpoch_some hr
    refine wp_bind.mpr (wp_aside rfl rfl hu fun hu => ?_)
    simp only [either_ok]
    split
    · next result hreset =>
      exact wp_replayResultAt hc (hc.cons_repeat ((hc.kept r rfl).reset result hreset)) hu hu
    · simp only [wp_bind, wp_gets, either_ok]
      split
      · exact hu.sequenced hc
      · next hstopped =>
        refine wp_acceptResetAt hc hu hepoch ?_
        simp only [not_or] at hstopped
        simpa using hstopped.2.1

/-! ### Launches -/

variable {intent : AgentStartIntent} {launchId : String} {attempt : Nat} {r : AgentRuntimeRecord}

lemma wp_launchAt (hordered : Trace.Each Emitted past) (h : At past record s) :
    wp fencedCtx (launchWithRecovery intent launchId) (fun _ => At past record) s := by
  simp only [launchWithRecovery, wp_bind, Runtime.launch]
  refine wp_await (e := .launch _ _ _ _) hordered h fun reply t ht => ?_
  simp only [either_ok]
  split
  · exact ht
  · exact ht
  · split
    · exact ht
    · simp only [wp_bind]
      refine wp_await (e := .launch _ _ _ _) hordered ht fun reply u hu => ?_
      simp only [either_ok]
      split <;> exact hu

lemma wp_launchedAt {identity : Option SessionIdentity} {stored : AgentRuntimeRecord}
    (hordered : Trace.Each Emitted past) (hkept : Kept past r) (hscope : r.scope = scope)
    (hreport : r.report = none) (h : At past (some stored) s)
    (hepoch : stored.scope.epoch ≤ scope.epoch) :
    wp fencedCtx (launched scope r launchId identity) Ends s := by
  subst hscope
  have htakes : Kept (.reported (startedResult r.scope r launchId identity) :: past)
      { r with
        phase := .running, startResult := some (startedResult r.scope r launchId identity)
        sequence := r.sequence + 1
        lastResult := some (startedResult r.scope r launchId identity) } := by
    refine hkept.takes rfl rfl ⟨rfl, rfl⟩ rfl (fun y hy => .inr hy) (fun y hy => .inr hy)
      (fun y hy => (some.inj hy).symm) ?_ nofun
    simp [hreport]
  simp only [launched, wp_bind]
  refine wp_writeAt hordered h (fun r' hr => ?_) fun t ht => ?_
  · cases hr
    rw [AgentRuntimeRecord.capture_scope]
    exact hepoch
  refine wp_bind.mpr (wp_aside ?_ ?_ ht fun ht => ?_)
  · simp [onLaunchSucceeded, resetLaunchFailures]
  · simp [onLaunchSucceeded, resetLaunchFailures]
  · exact wp_reportAt (.takes hordered hkept ⟨rfl, rfl⟩ (htakes.capture identity)) ht fun _ => id

lemma wp_launchFailureAt {stored : AgentRuntimeRecord} (hordered : Trace.Each Emitted past)
    (hkept : Kept past r) (hscope : r.scope = scope) (hreport : r.report = none)
    (hstart : r.startResult = none) (hstored : Kept past stored) (h : At past (some stored) s)
    (hepoch : stored.scope.epoch ≤ scope.epoch) :
    wp fencedCtx (launchFailure intent scope r launchId attempt) Ends s := by
  subst hscope
  have hle : ∀ r' ∈ some stored, r'.scope.epoch ≤ r.scope.epoch := by
    intro r' hr
    cases hr
    exact hepoch
  simp only [launchFailure, wp_bind, Runtime.stop]
  refine wp_await (e := .stop) hordered h fun reply t ht => ?_
  cases reply with
  | error e => exact ht.sequenced (.of_kept hordered hstored)
  | ok identity =>
    simp only [either_ok, orThrow, wp_pure, wp_bind]
    refine wp_aside rfl rfl ht fun hu => ?_
    simp only [either_ok, wp_bind, wp_gets]
    split
    · simp only [wp_bind]
      refine wp_writeAt hordered hu hle fun v hv => ?_
      simp only [either_ok]
      refine wp_aside ?_ ?_ hv fun hw => hw.sequenced (.of_kept hordered hkept)
      · simp [scheduleLaunchRetry]
      · simp [scheduleLaunchRetry]
    · refine wp_bind.mpr (wp_aside ?_ ?_ hu fun hv => ?_)
      · simp [resetLaunchFailures]
      · simp [resetLaunchFailures]
      · refine wp_bind.mpr (wp_writeAt hordered hv hle fun w hw => ?_)
        refine wp_reportAt (.takes hordered hkept ⟨rfl, rfl⟩ ?_) hw fun _ => id
        refine hkept.takes rfl rfl ⟨rfl, rfl⟩ rfl (fun y hy => .inr hy) (fun y hy => .inr hy)
          ?_ ?_ (by intro h; cases h)
        · simp [hstart]
        · simp [hreport]

lemma wp_attemptStartAt (hordered : Trace.Each Emitted past) (hkept : Kept past r)
    (hepoch : r.scope.epoch = scope.epoch) (hstart : r.startResult = none) (h : At past record s)
    (hle : ∀ r' ∈ record, r'.scope.epoch ≤ scope.epoch) :
    wp fencedCtx (attemptStart intent scope r launchId attempt) Ends s := by
  simp only [attemptStart, wp_bind, wp_gets, either_ok]
  have hnext : Kept past { r with
      scope := scope, action := .start, phase := .starting, launchId := some launchId
      daemonInstanceId := s.instanceId, report := none } :=
    hkept.launching hepoch.symm rfl rfl rfl hstart rfl rfl
  refine wp_writeAt hordered h hle fun t ht => ?_
  simp only [either_ok, wp_result, wp_bind]
  refine wp_mono (fun reply u hu => ?_) (wp_launchAt hordered ht)
  cases reply with
  | ok identity => exact wp_launchedAt hordered hnext rfl rfl hu (Nat.le_refl _)
  | error e => exact wp_launchFailureAt hordered hnext rfl rfl hstart hnext hu (Nat.le_refl _)

lemma Consistent.startRecord (hc : Consistent past record)
    (hepoch : ∀ r ∈ record, r.scope.epoch ≤ scope.epoch)
    (hstart : (sameEpoch record scope).bind (·.startResult) = none) (instanceId : String) :
    Kept past (startRecord record scope instanceId) ∧
      (Control.startRecord record scope instanceId).scope.epoch = scope.epoch ∧
      (Control.startRecord record scope instanceId).startResult = none := by
  rcases hsame : sameEpoch record scope with _ | r
  · rw [Control.startRecord, hsame]
    refine ⟨.empty (fun x hx epoch sequence hstamp => ?_) rfl rfl rfl rfl rfl, rfl, rfl⟩
    have hwithin := hc.within hepoch hx hstamp
    rw [sequenceAt, hsame] at hwithin
    exact hwithin
  · obtain ⟨rfl, heq⟩ := sameEpoch_some hsame
    rw [hsame] at hstart
    rw [Control.startRecord, hsame, getD_some]
    exact ⟨hc.kept r rfl, heq, hstart⟩

/-! ### Start -/

lemma Kept.firstResult (h : Kept past r)
    (hepoch : r.scope.epoch < result.epoch) (hphase : result.phase = .started)
    (hsequence : result.sequence = 1) : FirstResult past result := by
  refine ⟨hphase, hsequence, fun y hy hrefuses heq => ?_⟩
  rcases h.within _ hy _ _ (stamp_of_not_refuses hrefuses) with hlt | ⟨hsame, -⟩
  · omega
  · omega

lemma Kept.bound (h : Kept past r) (hfirst : FirstResult past result)
    (hresult : result.epoch = r.scope.epoch ∧ result.sequence = r.sequence + 1)
    (hstop : r.stopResult = none) (hreset : r.workspaceResetResult = none)
    (hreport : ∀ x ∈ r.report, x.epoch < r.scope.epoch) (hphase : r.phase ≠ .starting) :
    Kept past { r with
        startResult := some result, sequence := r.sequence + 1, lastResult := some result } ∧
      Kept (.reported result :: past) { r with
        startResult := some result, sequence := r.sequence + 1, lastResult := some result } := by
  constructor
  · exact h.holds rfl rfl hresult hfirst rfl hstop hreset rfl (fun x hx => ⟨hx, hreport x hx⟩)
      hphase
  · exact h.takes rfl rfl hresult rfl (fun y hy => .inr hy) (fun y hy => .inr hy)
      (fun y hy => (some.inj hy).symm) (fun x hx => ⟨hx, hreport x hx⟩) hphase

lemma wp_rebindRunningAt (hc : Consistent past (some r)) (h : At past (some r) s)
    (hepoch : r.scope.epoch < scope.epoch) (hphase : r.phase = .running) :
    wp fencedCtx (rebindRunning r scope intent launchId) Ends s := by
  have hkept := hc.kept r rfl
  simp only [rebindRunning, wp_bind, Runtime.rebind]
  refine wp_writeAt hc.ordered h (fun r' hr' => ?_) fun t ht => ?_
  · cases hr'
    exact Nat.le_of_lt hepoch
  have hearlier : ∀ x ∈ r.report, x.epoch < scope.epoch := by
    intro x hx
    rcases hkept.reportWithin x hx with hlt | ⟨heq, -⟩
    · exact Nat.lt_trans hlt hepoch
    · exact heq ▸ hepoch
  generalize hbefore : ({ r with
      scope := scope, action := Action.start, launchId := some launchId, sequence := 0,
      stopResult := none, workspaceResetResult := none,
      startResult := none } : AgentRuntimeRecord) = before at ht ⊢
  have hrebound : Kept past before := hbefore ▸ hkept.rebound hepoch rfl rfl rfl rfl rfl
  refine wp_bind.mpr (wp_await (e := .rebind intent launchId) hc.ordered ht fun reply u hu => ?_)
  cases reply with
  | error e => exact hu.sequenced (.of_kept hc.ordered hrebound)
  | ok identity =>
    simp only [either_ok, orThrow, wp_pure, wp_bind]
    have hfirst := @Kept.firstResult _ (startedResult scope before launchId
      (identity.or r.identity)) _ hkept hepoch rfl (by rw [← hbefore]; rfl)
    have hresult : ∀ x, x = startedResult scope before launchId (identity.or r.identity) →
        x.epoch = before.scope.epoch ∧ x.sequence = before.sequence + 1 := by
      rintro _ rfl
      rw [← hbefore]
      exact ⟨rfl, rfl⟩
    generalize startedResult scope before launchId (identity.or r.identity) = result
      at hfirst hresult ⊢
    generalize hafter : ({ r with
        scope := scope, action := Action.start, launchId := some launchId, sequence := 0 + 1,
        stopResult := none, workspaceResetResult := none, startResult := some result,
        lastResult := some result } : AgentRuntimeRecord) = after
    have hbound : Kept past after ∧ Kept (.reported result :: past) after := by
      subst hafter hbefore
      refine hrebound.bound hfirst (hresult _ rfl) rfl rfl hearlier ?_
      rw [hphase]
      decide
    refine wp_writeAt hc.ordered hu (fun r' hr' => ?_) fun v hv => ?_
    · cases hr'
      simp only [AgentRuntimeRecord.capture_scope, ← hafter, ← hbefore, Nat.le_refl]
    have hsent {w : AgentState} (hw : At past (some (after.capture (identity.or r.identity))) w) :
        wp fencedCtx (report result) Ends w :=
      wp_reportAt (.takes hc.ordered hrebound (hresult _ rfl) (hbound.2.capture _)) hw fun _ => id
    simp only [either_ok]
    split
    · simp only [wp_bind, Runtime.wake]
      refine wp_await (e := .wake intent) hc.ordered hv fun reply w hw => ?_
      cases reply with
      | error e => exact hw.sequenced (.of_kept hc.ordered (hbound.1.capture _))
      | ok => exact hsent hw
    · exact hsent hv

lemma wp_refuseAt {code : String} {error : ControlError} (hc : Consistent past record)
    (h : At past record s) (hcode : code = agentLaunchIdRequired ∨ code = agentAlreadyRunning) :
    wp fencedCtx (refuse record scope code error) Ends s := by
  have hrefuses : (scope.result .failed (sequenceAt record scope + 1) none none
      (some code)).refuses := ⟨rfl, hcode.imp (congrArg some) (congrArg some)⟩
  simp only [refuse, wp_bind]
  exact wp_reportAt (hc.cons_none (if_pos hrefuses)) h fun _ => id

lemma wp_admitStartAt (hc : Consistent past record) (h : At past record s)
    (hepoch : ∀ r ∈ record, r.scope.epoch ≤ scope.epoch)
    (hstart : (sameEpoch record scope).bind (·.startResult) = none) :
    wp fencedCtx (admitStart record scope intent) Ends s := by
  unfold admitStart
  split
  · exact wp_refuseAt hc h (.inl rfl)
  next launchId _ =>
    have hc' : Consistent (.accepted (.start scope launchId) :: past) record := hc.cons_none rfl
    have haccept : At (.accepted (.start scope launchId) :: past) record
        (s.accept (.start scope launchId)) := ⟨congrArg _ h.history, h.record⟩
    have hlaunch {t : AgentState} (ht : At (.accepted (.start scope launchId) :: past) record t) :
        wp fencedCtx (attemptStart intent scope (Control.startRecord record scope t.instanceId)
          launchId 1) Ends t := by
      obtain ⟨hkept, hsame, hnone⟩ := hc'.startRecord hepoch hstart t.instanceId
      exact wp_attemptStartAt hc'.ordered hkept hsame hnone ht hepoch
    simp only [wp_bind, wp_gets, either_ok]
    split
    · exact wp_refuseAt hc h (.inr rfl)
    · next r hroute =>
      simp only [wp_bind, wp_update, either_ok]
      obtain ⟨rfl, hphase, -, -, hlt⟩ := startRoute_rebind hroute
      exact ⟨.of_record rfl, wp_rebindRunningAt hc' haccept hlt hphase⟩
    · simp only [wp_bind, wp_update, either_ok, Runtime.stop]
      refine ⟨.of_record rfl, wp_await (e := .stop) hc'.ordered haccept fun reply t ht => ?_⟩
      cases reply with
      | error e => exact ht.sequenced hc'
      | ok => exact hlaunch ht
    · simp only [wp_bind, wp_update, wp_gets, either_ok]
      exact ⟨.of_record rfl, hlaunch haccept⟩

lemma wp_replayStartAt (hc : Consistent past record)
    (h : At past record s) (hresult : (sameEpoch record scope).bind (·.startResult) = some result) :
    wp fencedCtx (replayStart record scope intent result) Ends s := by
  obtain ⟨r, hr, hstart⟩ := bind_eq_some_iff.mp hresult
  obtain ⟨rfl, -⟩ := sameEpoch_some hr
  have hnext : Consistent (.reported result :: past) (some r) := by
    rcases (hc.kept r rfl).start result hstart with hsent | hlast
    · exact hc.cons_repeat hsent
    · exact hc.cons_last hlast
  refine wp_replayResultAt hc hnext h ?_
  simp only [wp_bind, wp_gets, either_ok]
  split
  · simp only [wp_bind, Runtime.wake]
    refine wp_await (e := .wake _) hc.ordered h fun reply t ht => ?_
    cases reply with
    | error e => exact ht
    | ok => exact ht
  · exact h

lemma wp_decideStartAt (hc : Consistent past record) (h : At past record s) :
    wp fencedCtx (decideStart record scope intent) Ends s := by
  refine wp_fenceAt hc h fun hepoch => ?_
  split
  · next result hresult => exact wp_replayStartAt hc h hresult
  · next hstart =>
    simp only [wp_bind, wp_read, either_ok]
    split
    · simp only [wp_bind]
      refine wp_aside ?_ ?_ h fun ht => wp_admitStartAt hc ht hepoch hstart
      · simp [resetLaunchFailures]
      · simp [resetLaunchFailures]
    · split
      · exact h.sequenced hc
      · exact wp_admitStartAt hc h hepoch hstart

lemma wp_startAt (h : Sequenced s) : wp fencedCtx (start intent known) Ends s := by
  unfold start
  split
  · exact h
  · exact h
  · refine wp_bind.mpr (wp_readAt h fun t ht => ?_)
    refine wp_bind.mpr (wp_requireAt h ht (fun u hu => ?_) fun u hu => hu.sequenced h)
    exact wp_bind.mpr (wp_repairAt h hu fun record v hc hv => wp_decideStartAt hc hv)

lemma wp_retryStartAt {retry : LaunchRetry} (h : Sequenced s) :
    wp fencedCtx (retryStart retry) Ends s := by
  simp only [retryStart, wp_bind]
  refine wp_readAt h fun t ht => ?_
  simp only [either_ok]
  split
  · exact ht.sequenced h
  · next record hrecord =>
    rw [hrecord] at ht
    have hkept : Kept s.history record := h.kept record hrecord
    split
    · exact ht.sequenced (.of_kept h.ordered hkept)
    · next howns =>
      obtain ⟨hphase, hepoch, -⟩ := not_not.mp howns
      simp only [wp_bind, wp_gets, either_ok]
      split
      · refine wp_aside ?_ ?_ ht fun hu => hu.sequenced (.of_kept h.ordered hkept)
        · simp [onLaunchSucceeded, resetLaunchFailures]
        · simp [onLaunchSucceeded, resetLaunchFailures]
      · refine wp_attemptStartAt h.ordered hkept hepoch (hkept.starting hphase) ht ?_
        intro r' hr'
        cases hr'
        exact Nat.le_of_eq hepoch

/-! ### Reports of the runtime -/

lemma wp_movedAt {identity : Option SessionIdentity} {source target : Phase} (h : Sequenced s)
    (htarget : target ≠ .starting) :
    wp fencedCtx (moved launchId identity source target) Ends s := by
  simp only [moved, wp_bind]
  refine wp_readAt h fun t ht => ?_
  simp only [either_ok]
  split
  · exact ht.sequenced h
  · next record hrecord =>
    rw [hrecord] at ht
    have hkept : Kept s.history record := h.kept record hrecord
    split
    · exact ht.sequenced (.of_kept h.ordered hkept)
    · refine wp_writeAt h.ordered ht (fun r' hr' => ?_) fun u hu => hu.sequenced ?_
      · cases hr'
        simp only [AgentRuntimeRecord.capture_scope, Nat.le_refl]
      · exact .of_kept h.ordered ((hkept.settled htarget).capture _)

lemma wp_updateSessionAt {identity : SessionIdentity} (h : Sequenced s) :
    wp fencedCtx (updateSession launchId identity) Ends s := by
  simp only [updateSession, wp_bind]
  refine wp_readAt h fun t ht => ?_
  simp only [either_ok]
  split
  · exact ht.sequenced h
  · next record hrecord =>
    rw [hrecord] at ht
    have hkept : Kept s.history record := h.kept record hrecord
    split
    · exact ht.sequenced (.of_kept h.ordered hkept)
    · have hc : Consistent s.history (some (record.capture (some identity))) :=
        .of_kept h.ordered (hkept.capture _)
      simp only [wp_bind]
      refine wp_writeAt h.ordered ht (fun r' hr' => ?_) fun u hu => ?_
      · cases hr'
        simp only [AgentRuntimeRecord.capture_scope, Nat.le_refl]
      · exact wp_sendAt hc (fun x hx => hc.cons_report hx) hu fun _ => id

lemma wp_replayAt (h : Sequenced s) : wp fencedCtx replay Ends s := by
  simp only [replay, wp_bind]
  refine wp_readAt h fun t ht => ?_
  simp only [either_ok]
  split
  · exact ht.sequenced h
  · next result hresult =>
    obtain ⟨r, hr, hlast⟩ := bind_eq_some_iff.mp hresult
    have hc : Consistent s.history (some r) := hr ▸ h
    rw [hr] at ht
    exact wp_reportAt (hc.cons_last hlast) ht fun _ => id

lemma wp_replaySessionAt (h : Sequenced s) : wp fencedCtx replaySession Ends s := by
  simp only [replaySession, wp_bind]
  refine wp_readAt h fun t ht => wp_sendAt h (fun x hx => ?_) ht fun _ => id
  obtain ⟨r, hr, hreport⟩ := bind_eq_some_iff.mp hx
  have hc : Consistent s.history (some r) := hr ▸ h
  rw [hr]
  exact hc.cons_report hreport

/-! ### Every operation -/

lemma sequenced_of_eq {t : AgentState} (h : Sequenced s) (hhistory : t.history = s.history)
    (hrecord : t.record = s.record) : Sequenced t := by
  rw [Sequenced, hhistory, hrecord]
  exact h

lemma wp_loggedAt (h : wp fencedCtx p Ends s) : wp fencedCtx (logged p) Ends s := by
  simp only [logged, wp_tryCatch]
  refine wp_mono (fun r t ht => ?_) h
  cases r with
  | ok => exact ht
  | error e => exact ⟨.of_record rfl, sequenced_of_eq ht rfl rfl⟩

lemma wp_startRunAt (h : wp fencedCtx p Ends s) :
    wp fencedCtx (p.andFinally (update AgentState.endStartRun)) Ends s := by
  simp only [wp_andFinally]
  refine wp_mono (fun r t ht => ?_) h
  obtain ⟨n, hn⟩ := t.endStartRun_eq
  rw [wp_update, hn]
  exact ⟨.of_record rfl, sequenced_of_eq ht rfl rfl⟩

/-- Every operation keeps the sequences in order. -/
theorem wp_bodyAt (task : Task) (h : Sequenced s) : wp fencedCtx (body task) Ends s := by
  cases task with
  | start intent known => exact wp_loggedAt (wp_startRunAt (wp_startAt h))
  | retry retry =>
    refine wp_startRunAt ?_
    rw [wp_tryCatch]
    refine wp_mono (fun r t ht => ?_) (wp_retryStartAt h)
    cases r with
    | ok => exact ht
    | error e => exact ht
  | stop scope known => exact wp_loggedAt (wp_stopAt h)
  | resetWorkspace scope => exact wp_loggedAt (wp_resetWorkspaceAt h)
  | stopped launchId identity => exact wp_movedAt h nofun
  | wake launchId identity => exact wp_movedAt h nofun
  | updateSession launchId identity => exact wp_updateSessionAt h
  | replay => exact wp_replayAt h
  | replaySession => exact wp_replaySessionAt h

end Operations

end Coforge.Control
