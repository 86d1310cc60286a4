import Coforge.Control.System

/-!
# The record of a known Agent is there

An Agent is known from its first Start or Stop on, and a later one that finds no record rejects
with `control_record_missing`. The record is written when the first of them is accepted. A first
Stop always is, but a first Start can be rejected before, and every later Start and Stop then
meets a known Agent without a record.

`FirstStartRuns` is the condition that no Start of an Agent without a record is rejected.
-/

namespace Coforge.Control

open Async Async.Prog Transition AgentState

/-- A Start of an Agent without a record names its launch and finds no process. -/
def PermitsFirst (task : Task) : (e : Effect) → AgentState → Reply e → Prop
  | .turn .repaired, s, _ => ∀ intent ∈ task.startIntent, s.record = none →
    (truthy intent.launchId).isSome ∧ s.running = false
  | _, _, _               => True

/-- No Start that runs while the Agent has no record is rejected: its epoch is given, its launch
id is given, and no process runs. -/
def FirstStartRuns (s : System) (a : Act Event Outcome) : Prop :=
  Answered PermitsFirst s a ∧
    (a = .begin → ∀ task ∈ s.shared.pending.head?, ∀ intent ∈ task.startIntent,
      s.shared.record = none → ∃ epoch ∈ intent.controlEpoch, epoch ≠ 0)

instance (task : Task) : ∀ (e : Effect) (s : AgentState) (r : Reply e),
    Decidable (PermitsFirst task e s r)
  | .turn .repaired, s, _  =>
    inferInstanceAs (Decidable (∀ intent ∈ task.startIntent, s.record = none →
      (truthy intent.launchId).isSome ∧ s.running = false))
  | .turn .read, _, _      => isTrue trivial
  | .turn .required, _, _  => isTrue trivial
  | .turn .written, _, _   => isTrue trivial
  | .result _, _, _        => isTrue trivial
  | .session _, _, _       => isTrue trivial
  | .stop, _, _            => isTrue trivial
  | .launch _ _ _ _, _, _  => isTrue trivial
  | .rebind _ _, _, _      => isTrue trivial
  | .wake _, _, _          => isTrue trivial
  | .clearWorkspace, _, _  => isTrue trivial

instance (s : System) (a : Act Event Outcome) : Decidable (FirstStartRuns s a) :=
  inferInstanceAs (Decidable (_ ∧ (_ → _)))

/-! ### The invariant -/

/-- No control call was rejected for a missing record. -/
def Clean (s : AgentState) : Prop := .controlRecordMissing ∉ s.rejections

/-- Without a record the next Start or Stop in the queue is the first, and without one in the
queue the Agent is not known. -/
structure Tracked (s : AgentState) : Prop where
  clean : Clean s
  first : s.record = none → firstKnown s.pending = some false ∨
    (firstKnown s.pending = none ∧ s.known = false)

/-- The outcome of an operation. -/
def Tracks {α : Type} (r : Except ControlError α) (s : AgentState) : Prop :=
  Tracked s ∧ r ≠ .error .controlRecordMissing

lemma clean_stable : Stable Clean := by
  rintro s t ⟨added, hj⟩ h
  rw [Clean, hj.rejections]
  exact h

lemma tracked_stable : Stable Tracked := by
  intro s t hst h
  have ⟨added, hj⟩ := hst
  refine ⟨clean_stable s t hst h.clean, fun hrec => ?_⟩
  rw [hj.record] at hrec
  rw [hj.pending, firstKnown_append]
  rcases h.first hrec with hf | ⟨hf, hk⟩
  · exact .inl (by simp [hf])
  · cases hadd : firstKnown added with
    | none => exact .inr ⟨by simp [hf], by simp [hj.known, hk, hadd]⟩
    | some k => exact .inl (by simp [hf, hj.firstKnown k hadd, hk])

lemma Tracked.of_record {s : AgentState} (h : Clean s) (hrec : s.record ≠ none) : Tracked s :=
  ⟨h, fun hnone => absurd hnone hrec⟩

abbrev firstCtx (task : Task) : Context AgentState Reply := context PermitsFirst (fun _ => Clean) task

section Steps

variable {task : Task} {s : AgentState}

variable {record : AgentRuntimeRecord}

lemma wp_trackedWrite {Q : Except ControlError Unit → AgentState → Prop}
    (h : Clean s) (hk : ∀ t, Tracked t → Q (.ok ()) t) :
    wp (firstCtx task) (writeRecord record) Q s :=
  wp_writeRecord tracked_stable (fun _ ht => ht.clean) (.of_record h (by simp)) hk

lemma wp_trackedReport {result : AgentControlResult} {Q : Except ControlError Unit → AgentState → Prop}
    (h : Tracked s) (hk : ∀ t, Tracked t → Q (.ok ()) t) : wp (firstCtx task) (report result) Q s :=
  wp_report tracked_stable (fun _ ht => ht.clean) ⟨h.clean, h.first⟩ hk

lemma wp_trackedCall {e : Effect} {Q : Except ControlError (Reply e) → AgentState → Prop}
    (h : Tracked s) (hk : ∀ r t, Tracked t → Q (.ok r) t) : wp (firstCtx task) (request e) Q s :=
  wp_effect tracked_stable (fun _ ht => ht.clean) h fun _ r _ t _ _ _ ht => hk r t ht

variable {scope : AgentControlScope}

lemma wp_trackedReplay {result : AgentControlResult} {before : Op Unit}
    (hs : Tracked s) (h : wp (firstCtx task) before Tracks s) :
    wp (firstCtx task) (replayResult result scope before) Tracks s := by
  unfold replayResult
  split
  · exact ⟨hs, by simp⟩
  · simp only [wp_bind]
    refine wp_mono (fun r t ht => ?_) h
    cases r with
    | ok => exact wp_trackedReport ht.1 fun u hu => ⟨hu, by simp⟩
    | error => exact ht

/-! ### Operations that write a record -/

lemma wp_trackedStop {record : Option AgentRuntimeRecord}
    (h : Clean s) : wp (firstCtx task) (acceptStop record scope) Tracks s := by
  simp only [acceptStop, wp_bind, wp_update, wp_gets, either_ok]
  refine ⟨trivial, wp_trackedWrite ?_ fun t ht => ?_⟩
  · simpa [Clean, accept, resetLaunchFailures] using h
  simp only [either_ok, wp_bind]
  refine wp_trackedCall (e := .stop) ht fun r u hu => ?_
  simp only [either_ok, wp_bind]
  refine wp_trackedWrite hu.clean fun v hv => ?_
  exact wp_trackedReport hv fun w hw => ⟨hw, by simp⟩

lemma wp_trackedReset (h : Clean s) : wp (firstCtx task) (acceptReset record scope) Tracks s := by
  simp only [acceptReset, wp_bind, wp_update, either_ok]
  refine ⟨trivial, wp_trackedWrite h fun t ht => ?_⟩
  simp only [either_ok, wp_bind]
  refine wp_trackedCall (e := .clearWorkspace) ht fun r u hu => ?_
  simp only [either_ok, wp_bind]
  refine wp_trackedWrite hu.clean fun v hv => ?_
  exact wp_trackedReport hv fun w hw => ⟨hw, by simp⟩

variable {intent : AgentStartIntent} {launchId : String}

lemma wp_trackedLaunch (h : Tracked s) :
    wp (firstCtx task) (launchWithRecovery intent launchId) (fun _ => Tracked) s := by
  simp only [launchWithRecovery, wp_bind]
  refine wp_trackedCall (e := .launch _ _ _ _) h fun r t ht => ?_
  simp only [either_ok]
  split
  · exact ht
  · exact ht
  · split
    · exact ht
    · simp only [wp_bind]
      refine wp_trackedCall (e := .launch _ _ _ _) ht fun r u hu => ?_
      simp only [either_ok]
      split <;> exact hu

lemma wp_trackedFailure {attempt : Nat} (h : Tracked s) :
    wp (firstCtx task) (launchFailure intent scope record launchId attempt) Tracks s := by
  simp only [launchFailure, wp_bind]
  refine wp_trackedCall (e := .stop) h fun r t ht => ?_
  cases r with
  | error => exact ⟨ht, by simp⟩
  | ok =>
    simp only [either_ok, orThrow, wp_pure, wp_bind, wp_update, wp_gets]
    refine ⟨trivial, ?_⟩
    split
    · simp only [wp_bind]
      refine wp_trackedWrite ht.clean fun u hu => ⟨trivial, ⟨?_, ?_⟩, by simp⟩
      · simpa [scheduleLaunchRetry, Clean] using hu.clean
      · simpa [scheduleLaunchRetry] using hu.first
    · simp only [wp_bind, wp_update, either_ok]
      refine ⟨trivial, wp_trackedWrite ?_ fun u hu => ?_⟩
      · simpa [Clean, resetLaunchFailures] using ht.clean
      · exact wp_trackedReport hu fun v hv => ⟨hv, by simp⟩

lemma wp_trackedAttempt {attempt : Nat} (h : Clean s) :
    wp (firstCtx task) (attemptStart intent scope record launchId attempt) Tracks s := by
  simp only [attemptStart, wp_bind, wp_gets, either_ok]
  refine wp_trackedWrite h fun t ht => ?_
  simp only [either_ok, wp_bind, wp_result]
  refine wp_mono (fun r u hu => ?_) (wp_trackedLaunch ht)
  cases r with
  | error => exact wp_trackedFailure hu
  | ok identity =>
    simp only [launched, wp_bind]
    refine wp_trackedWrite hu.clean fun v hv => ?_
    simp only [either_ok, wp_bind, wp_update]
    refine ⟨trivial, wp_trackedReport ⟨?_, ?_⟩ fun w hw => ⟨hw, by simp⟩⟩
    · simpa [onLaunchSucceeded, resetLaunchFailures, Clean] using hv.clean
    · simpa [onLaunchSucceeded, resetLaunchFailures] using hv.first

lemma wp_trackedRebind (h : Clean s) :
    wp (firstCtx task) (rebindRunning record scope intent launchId) Tracks s := by
  simp only [rebindRunning, wp_bind]
  refine wp_trackedWrite h fun t ht => ?_
  simp only [either_ok, wp_bind]
  refine wp_trackedCall (e := .rebind _ _) ht fun r u hu => ?_
  cases r with
  | error => exact ⟨hu, by simp⟩
  | ok identity =>
    simp only [either_ok, orThrow, wp_pure, wp_bind]
    refine wp_trackedWrite hu.clean fun v hv => ?_
    simp only [either_ok]
    split
    · simp only [wp_bind]
      refine wp_trackedCall (e := .wake _) hv fun r w hw => ?_
      cases r with
      | error => exact ⟨hw, by simp⟩
      | ok => exact wp_trackedReport hw fun x hx => ⟨hx, by simp⟩
    · exact wp_trackedReport hv fun w hw => ⟨hw, by simp⟩

lemma wp_trackedRefuse {record : Option AgentRuntimeRecord}
    {code : String} {error : ControlError} (herr : error ≠ .controlRecordMissing)
    (h : Tracked s) : wp (firstCtx task) (refuse record scope code error) Tracks s := by
  simp only [refuse, wp_bind]
  exact wp_trackedReport h fun t ht => ⟨ht, by simpa using herr⟩

lemma wp_trackedAdmit {record : Option AgentRuntimeRecord} (h : Clean s)
    (hroute : truthy intent.launchId = none ∨ startRoute record scope intent s.running ≠ .launch →
      Tracked s) : wp (firstCtx task) (admitStart record scope intent) Tracks s := by
  unfold admitStart
  split
  · next hid => exact wp_trackedRefuse (by decide) (hroute (.inl hid))
  · simp only [wp_bind, wp_gets, either_ok]
    split
    · next hr => exact wp_trackedRefuse (by decide) (hroute (.inr (by simp [hr])))
    · simp only [wp_bind, wp_update, either_ok]
      exact ⟨trivial, wp_trackedRebind h⟩
    · next hr =>
      have htracked : Tracked s := hroute (.inr (by simp [hr]))
      simp only [wp_bind, wp_update, either_ok]
      refine ⟨trivial, wp_trackedCall (e := .stop) ⟨htracked.clean, htracked.first⟩
        fun r t ht => ?_⟩
      cases r with
      | error => exact ⟨ht, by simp⟩
      | ok =>
        simp only [either_ok, orThrow, wp_pure, wp_bind, wp_gets]
        exact wp_trackedAttempt ht.clean
    · simp only [wp_bind, wp_update, wp_gets, either_ok]
      exact ⟨trivial, wp_trackedAttempt h⟩

/-! ### The calls -/

/-- The state of an operation that has read the record. -/
structure Reads (record : Option AgentRuntimeRecord) (s : AgentState) : Prop where
  clean : Clean s
  record : s.record = record

lemma reads_stable (record : Option AgentRuntimeRecord) : Stable (Reads record) := by
  intro s t hst h
  have ⟨added, hj⟩ := hst
  exact ⟨clean_stable s t hst h.clean, hj.record.trans h.record⟩

lemma Reads.tracked (h : Reads (some record) s) : Tracked s :=
  .of_record h.clean (by simp [h.record])

lemma wp_trackedRepair {record : Option AgentRuntimeRecord}
    {Q : Except ControlError (Option AgentRuntimeRecord) → AgentState → Prop} (h : Reads record s)
    (hk : ∀ t, Reads t.record t → (t.record = none ↔ record = none) →
      PermitsFirst task (.turn .repaired) t () → Q (.ok t.record) t) :
    wp (firstCtx task) (repairStaleRecord record) Q s := by
  have hkeep {s : AgentState} {record' : Option AgentRuntimeRecord}
      (h : Reads record' s) (hnone : record' = none ↔ record = none) :
      wp (firstCtx task) (do turn .repaired; return record') Q s := by
    simp only [wp_bind]
    refine wp_turn (reads_stable _) (fun t ht => ht.clean) h fun t ht hper => ?_
    have hrec := ht.record
    subst hrec
    exact hk t ht hnone hper
  simp only [repairStaleRecord, wp_bind, wp_gets, either_ok]
  cases record with
  | none => exact hkeep h Iff.rfl
  | some r =>
    simp only
    split
    · simp only [wp_bind]
      refine wp_writeRecord (reads_stable _) (fun t ht => ht.clean) ⟨h.clean, rfl⟩ fun t ht => ?_
      exact hkeep ht (by simp)
    · exact hkeep h Iff.rfl

/-- The checks on the record, for a call that found the Agent unknown if there is none. -/
lemma wp_trackedCheck {known : Bool} {f : Option AgentRuntimeRecord → Op Unit} (h : Clean s)
    (hknown : s.record = none → known = false)
    (hk : ∀ t, Reads t.record t → PermitsFirst task (.turn .repaired) t () →
      wp (firstCtx task) (f t.record) Tracks t) :
    wp (firstCtx task)
      (do
        let record ← readRecord
        requireRecord record known
        let record ← repairStaleRecord record
        f record) Tracks s := by
  simp only [wp_bind]
  refine wp_readRecord (reads_stable _) (fun t ht => ht.clean) ⟨h, rfl⟩ fun t ht _ => ?_
  rw [ht.record]
  simp only [either_ok, requireRecord, wp_bind]
  refine wp_turn (reads_stable _) (fun u hu => hu.clean) ht fun u hu _ => ?_
  simp only [either_ok]
  split
  · next hmissing =>
    have hno := hknown (Option.isNone_iff_eq_none.mp hmissing.1)
    simp [hno] at hmissing
  · simp only [wp_pure, either_ok, wp_bind]
    exact wp_trackedRepair hu fun v hv _ hper => hk v hv hper

lemma wp_trackedFence {record : Option AgentRuntimeRecord} {p : Op Unit}
    (h : Reads record s) (hk : wp (firstCtx task) p Tracks s) :
    wp (firstCtx task) (do fence record scope; p) Tracks s := by
  simp only [wp_bind, fence]
  split
  · next hstale =>
    obtain ⟨r, rfl, -⟩ := hstale
    exact ⟨h.tracked, by simp⟩
  · exact hk

end Steps

lemma wp_firstStop {s : AgentState} {scope : AgentControlScope} {known : Bool} (h : Clean s)
    (hknown : s.record = none → known = false) :
    wp (firstCtx (.stop scope known)) (stop scope known) Tracks s := by
  refine wp_trackedCheck h hknown fun t ht _ => wp_trackedFence ht ?_
  split
  · next result hresult =>
    have hrec : t.record ≠ none := by
      rintro hnone
      simp [hnone, sameEpoch] at hresult
    have htracked := Tracked.of_record ht.clean hrec
    exact wp_trackedReplay htracked ⟨htracked, by simp⟩
  · split
    · next hfailed =>
      have hrec : t.record ≠ none := by
        rintro hnone
        simp [hnone, sameEpoch] at hfailed
      exact ⟨.of_record ht.clean hrec, by simp⟩
    · exact wp_trackedStop ht.clean

lemma wp_firstStart {s : AgentState} {intent : AgentStartIntent} {known : Bool} (h : Clean s)
    (hknown : s.record = none → known = false)
    (hepoch : s.record = none → ∃ epoch ∈ intent.controlEpoch, epoch ≠ 0) :
    wp (firstCtx (.start intent known)) (start intent known) Tracks s := by
  have hrejected (hno : ∀ epoch ∈ intent.controlEpoch, epoch = 0) : Tracked s := by
    refine .of_record h fun hnone => ?_
    obtain ⟨epoch, he, hne⟩ := hepoch hnone
    exact hne (hno epoch he)
  unfold start
  split
  · next hnone => exact ⟨hrejected (by simp [hnone]), by simp⟩
  · next hzero => exact ⟨hrejected (by simp [hzero]), by simp⟩
  · next epoch _ _ =>
    refine wp_trackedCheck h hknown fun t ht hper => ?_
    unfold decideStart
    refine wp_trackedFence ht ?_
    split
    · next result hresult =>
      have hrec : t.record ≠ none := by
        rintro hnone
        simp [hnone, sameEpoch] at hresult
      have htracked := Tracked.of_record ht.clean hrec
      refine wp_trackedReplay htracked ?_
      simp only [wp_bind, wp_gets, either_ok]
      split
      · simp only [wp_bind]
        refine wp_trackedCall (e := .wake _) htracked fun r u hu => ?_
        cases r <;> exact ⟨hu, by simp⟩
      · exact ⟨htracked, by simp⟩
    · have hroute : truthy intent.launchId = none ∨
          startRoute t.record (intent.scope epoch) intent t.running ≠ .launch → Tracked t := by
        intro hbad
        refine .of_record ht.clean fun hnone => ?_
        obtain ⟨hid, hrun⟩ := hper intent rfl hnone
        rcases hbad with hbad | hbad
        · simp [hbad] at hid
        · exact hbad (by simp [startRoute, hrun])
      simp only [wp_bind, Prog.read, wp_get, wp_ret, either_ok]
      split
      · next hsup =>
        have hrec : t.record ≠ none := by
          rintro hnone
          simp [hnone, supersedesRetry] at hsup
        simp only [wp_bind, wp_update, either_ok]
        refine ⟨trivial, wp_trackedAdmit ?_ fun _ => .of_record ?_ ?_⟩
        · simpa [Clean, resetLaunchFailures] using ht.clean
        · simpa [Clean, resetLaunchFailures] using ht.clean
        · simpa [resetLaunchFailures] using hrec
      · split
        · next hnot =>
          have hrec : t.record ≠ none := by
            rintro hnone
            simp [hnone, notCompleted] at hnot
          exact ⟨.of_record ht.clean hrec, by simp⟩
        · exact wp_trackedAdmit ht.clean hroute

section Others

variable {task : Task} {s : AgentState}

lemma wp_trackedRead {Q : Except ControlError (Option AgentRuntimeRecord) → AgentState → Prop}
    (h : Tracked s) (hk : ∀ t, Tracked t → Q (.ok t.record) t) :
    wp (firstCtx task) readRecord Q s :=
  wp_readRecord tracked_stable (fun _ ht => ht.clean) h fun t ht _ => hk t ht

lemma wp_trackedResetCall {scope : AgentControlScope} (h : Tracked s) :
    wp (firstCtx task) (resetWorkspace scope) Tracks s := by
  have hF : Stable fun t => Tracked t ∧ t.record = s.record := by
    intro t u htu ht
    have ⟨added, hj⟩ := htu
    exact ⟨tracked_stable t u htu ht.1, hj.record.trans ht.2⟩
  simp only [resetWorkspace, wp_bind]
  refine wp_readRecord hF (fun t ht => ht.1.clean) ⟨h, rfl⟩ fun t ht _ => ?_
  simp only [either_ok, wp_bind]
  cases hrec : t.record with
  | none =>
    simp only [repairStaleRecord, wp_bind, wp_gets, either_ok]
    refine wp_turn hF (fun u hu => hu.1.clean) ht fun u hu _ => ?_
    exact ⟨hu.1, by simp⟩
  | some r =>
    refine wp_trackedRepair ⟨ht.1.clean, hrec⟩ fun u hu hiff _ => ?_
    have hsome : u.record ≠ none := fun hnone => by simpa using hiff.mp hnone
    have htracked : Tracked u := .of_record hu.clean hsome
    simp only [either_ok]
    refine wp_trackedFence hu ?_
    split
    · exact ⟨htracked, by simp⟩
    · have hknown : Tracked { u with known := true } := .of_record hu.clean hsome
      simp only [wp_bind, wp_update, either_ok]
      refine ⟨trivial, ?_⟩
      split
      · exact wp_trackedReplay hknown ⟨hknown, by simp⟩
      · simp only [wp_bind, wp_gets, either_ok]
        split
        · exact ⟨hknown, by simp⟩
        · exact wp_trackedReset hu.clean

lemma wp_trackedMoved {launchId : String} {identity : Option SessionIdentity}
    {source target : Phase} (h : Tracked s) :
    wp (firstCtx task) (moved launchId identity source target) Tracks s := by
  simp only [moved, wp_bind]
  refine wp_trackedRead h fun t ht => ?_
  simp only [either_ok]
  split
  · exact ⟨ht, by simp⟩
  · split
    · exact ⟨ht, by simp⟩
    · exact wp_trackedWrite ht.clean fun u hu => ⟨hu, by simp⟩

lemma wp_trackedSend {report : Option AgentSessionSnapshot} (h : Tracked s) :
    wp (firstCtx task) (sendSession report) Tracks s :=
  wp_sendSession tracked_stable (fun _ ht => ht.clean) (fun _ _ => ⟨h.clean, h.first⟩) (fun _ => h)
    fun _ ht => ⟨ht, by simp⟩

lemma wp_trackedUpdate {launchId : String} {identity : SessionIdentity} (h : Tracked s) :
    wp (firstCtx task) (updateSession launchId identity) Tracks s := by
  simp only [updateSession, wp_bind]
  refine wp_trackedRead h fun t ht => ?_
  simp only [either_ok]
  split
  · exact ⟨ht, by simp⟩
  · split
    · exact ⟨ht, by simp⟩
    · simp only [wp_bind]
      exact wp_trackedWrite ht.clean fun u hu => wp_trackedSend hu

lemma wp_trackedRetry {retry : LaunchRetry} (h : Tracked s) :
    wp (firstCtx task) (retryStart retry) Tracks s := by
  simp only [retryStart, wp_bind]
  refine wp_trackedRead h fun t ht => ?_
  simp only [either_ok]
  split
  · exact ⟨ht, by simp⟩
  · split
    · exact ⟨ht, by simp⟩
    · simp only [wp_bind, wp_gets, either_ok]
      split
      · refine ⟨trivial, ⟨?_, ?_⟩, by simp⟩
        · simpa [onLaunchSucceeded, resetLaunchFailures, Clean]
            using ht.clean
        · simpa [onLaunchSucceeded, resetLaunchFailures] using ht.first
      · exact wp_trackedAttempt ht.clean

lemma wp_trackedReplayCall (h : Tracked s) : wp (firstCtx task) replay Tracks s := by
  simp only [replay, wp_bind]
  refine wp_trackedRead h fun t ht => ?_
  simp only [either_ok]
  split
  · exact ⟨ht, by simp⟩
  · exact wp_trackedReport ht fun u hu => ⟨hu, by simp⟩

end Others

/-! ### Runs -/

lemma wp_trackedStartRun {task : Task} {p : Op Unit} {s : AgentState}
    (h : wp (firstCtx task) p Tracks s) :
    wp (firstCtx task) (p.andFinally (update AgentState.endStartRun)) Tracks s := by
  simp only [wp_andFinally]
  refine wp_mono (fun r t ht => ⟨trivial, ⟨?_, ?_⟩, ht.2⟩) h
  · obtain ⟨n, hn⟩ := t.endStartRun_eq
    rw [hn]
    exact ht.1.clean
  · obtain ⟨n, hn⟩ := t.endStartRun_eq
    rw [hn]
    exact ht.1.first

lemma wp_trackedLogged {task : Task} {p : Op Unit} {s : AgentState}
    (h : wp (firstCtx task) p Tracks s) : wp (firstCtx task) (logged p) (fun _ => Tracked) s := by
  simp only [logged, wp_tryCatch]
  refine wp_mono (fun r t ht => ?_) h
  cases r with
  | ok => exact ht.1
  | error e =>
    have hne : e ≠ .controlRecordMissing := fun he => ht.2 (by rw [he])
    exact ⟨trivial, by simpa [Clean, hne.symm] using ht.1.clean, ht.1.first⟩

/-- What a Start or a Stop found when it was called. -/
def Task.foundKnown : Task → Option Bool
  | .start _ k => some k
  | .stop _ k  => some k
  | _          => none

/-- A Start or Stop that begins without a record is the first one, and anything else leaves the
queue as it was. -/
lemma tracked_next {s t : AgentState} {task : Task} (h : Tracked s) (hn : s.next = some (task, t)) :
    Clean t ∧ (∀ k ∈ task.foundKnown, t.record = none → k = false) ∧
      (task.foundKnown = none → Tracked t) := by
  unfold next at hn
  split at hn
  · cases hn
  · next task' rest hp =>
    cases hn
    have hfirst := h.first
    rw [hp] at hfirst
    cases task with
    | start intent k =>
      refine ⟨h.clean, fun k' hk hrec => ?_, fun hnone => by cases hnone⟩
      cases hk
      simpa [firstKnown] using hfirst hrec
    | stop scope k =>
      refine ⟨h.clean, fun k' hk hrec => ?_, fun hnone => by cases hnone⟩
      cases hk
      simpa [firstKnown] using hfirst hrec
    | _ => exact ⟨h.clean, fun k' hk => (by cases hk), fun _ => ⟨h.clean, hfirst⟩⟩

def firstSpec : agentControl.Spec FirstStartRuns where
  idle := Tracked
  context := firstCtx
  rely_refl _ := undisturbed_refl
  rely_trans _ _ _ _ := undisturbed_trans
  guar_refl _ _ := trivial
  guar_trans _ _ _ _ _ _ := trivial
  event_idle _ _ _ _ _ h hs := tracked_stable _ _ (undisturbed_event h) hs
  event_rely _ _ _ _ _ _ _ h := undisturbed_event h
  reply_answer _ _ _ o _ _ hturn hok hans := ⟨o, hans, hok.1.permits hturn hans⟩
  body_safe s task t _ hok hn hs := by
    obtain ⟨hclean, hknown, htracked⟩ := tracked_next hs hn
    have hdrop {r : Except ControlError Unit} {u : AgentState} (hu : Tracks r u) : Tracked u := hu.1
    cases task with
    | start intent known =>
      have hepoch : t.record = none → ∃ epoch ∈ intent.controlEpoch, epoch ≠ 0 := by
        have hn' : s.shared.next = some (.start intent known, t) := hn
        unfold AgentState.next at hn'
        split at hn'
        · cases hn'
        · next task rest hp =>
          cases hn'
          exact hok.2 rfl _ (by rw [hp]; rfl) intent rfl
      exact wp_trackedLogged (wp_trackedStartRun (wp_firstStart hclean (hknown known rfl) hepoch))
    | retry retry =>
      refine wp_mono (fun r u hu => hdrop hu) (wp_trackedStartRun ?_)
      simp only [wp_tryCatch]
      refine wp_mono (fun r u hu => ?_) (wp_trackedRetry (htracked rfl))
      cases r with
      | ok => exact hu
      | error => exact ⟨hu.1, by simp⟩
    | stop scope known => exact wp_trackedLogged (wp_firstStop hclean (hknown known rfl))
    | resetWorkspace scope => exact wp_trackedLogged (wp_trackedResetCall (htracked rfl))
    | stopped launchId identity =>
      exact wp_mono (fun r u hu => hdrop hu) (wp_trackedMoved (htracked rfl))
    | wake launchId identity =>
      exact wp_mono (fun r u hu => hdrop hu) (wp_trackedMoved (htracked rfl))
    | updateSession launchId identity =>
      exact wp_mono (fun r u hu => hdrop hu) (wp_trackedUpdate (htracked rfl))
    | replay => exact wp_mono (fun r u hu => hdrop hu) (wp_trackedReplayCall (htracked rfl))
    | replaySession =>
      simp only [agentControl, body, replaySession, wp_bind]
      exact wp_trackedRead (htracked rfl) fun u hu =>
        wp_mono (fun r v hv => hdrop hv) (wp_trackedSend hu)

/-- While no Start of an Agent without a record is rejected, no control is rejected for a missing
record. -/
theorem record_never_missing {instanceId : String} {acts : List (Act Event Outcome)} {s : System}
    (hok : Permitted agentControl.step FirstStartRuns (System.init instanceId) acts)
    (hrun : run agentControl.step (System.init instanceId) acts = some s) :
    .controlRecordMissing ∉ s.shared.rejections := by
  have hinit : firstSpec.Inv (System.init instanceId) := by
    refine (firstSpec.inv_idle rfl).mpr ⟨?_, fun _ => .inr ⟨rfl, rfl⟩⟩
    simp [Clean, System.init, init]
  have hinv := firstSpec.safe_run hinit hok hrun
  rcases hturn : s.turn with _ | ⟨task, p⟩
  · exact ((firstSpec.inv_idle hturn).mp hinv).clean
  · obtain ⟨u, hclean, -, hrely⟩ := (firstSpec.inv_turn hturn).mp hinv
    exact clean_stable u s.shared hrely hclean

/-- A Start, its repetition and a Stop, all called before the first of them ran. -/
def queuedRun : List (Act Event Outcome) :=
  [.event (.start (sampleStart "start" 1 "launch")), .event (.start (sampleStart "start" 1 "launch")),
    .event (.stop ((sampleStart "stop" 2 "launch").scope 2)), .begin, .reply .done, .reply .done,
    .reply .done, .reply .done, .reply (.identity none), .reply .done, .reply .done, .begin,
    .reply .done, .reply .done, .reply .done, .reply .done, .begin, .reply .done, .reply .done,
    .reply .done, .reply .done, .reply .failed, .reply .done, .reply .done]

theorem record_never_missing_queued :
    ∃ s, run agentControl.step (System.init "daemon") queuedRun = some s ∧
      .controlRecordMissing ∉ s.shared.rejections := by
  obtain ⟨s, hs⟩ := Option.isSome_iff_exists.mp
    (show (run agentControl.step (System.init "daemon") queuedRun).isSome by decide)
  exact ⟨s, hs, record_never_missing (by decide) hs⟩

/-- A first Start finds a process that runs already and is rejected, and a Stop follows it. -/
def rejectedStartRun : List (Act Event Outcome) :=
  [.event (.process true), .event (.start (sampleStart "start" 1 "launch")), .begin, .reply .done,
    .reply .done, .reply .done, .reply .done,
    .event (.stop ((sampleStart "stop" 2 "launch").scope 2)), .begin, .reply .done, .reply .done]

theorem rejected_start_blocks_stop :
    ¬ ∀ instanceId acts s, run agentControl.step (System.init instanceId) acts = some s →
      .controlRecordMissing ∉ s.shared.rejections := by
  intro h
  exact h "daemon" rejectedStartRun _ rfl (by decide)

end Coforge.Control
