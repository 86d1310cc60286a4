import Coforge.Control.System

/-!
# No launch is left in "starting"

A Start that was accepted ends in a started or a failed result. Between its attempts the record
stays in "starting" and the retry, armed or queued, is what moves it on. Each way out of an
attempt has to keep that link, and four of them do not: a runtime call of the Start other than
the launch fails, a retry finds a process running, and a Start that cancels the retry of an
older one is refused afterwards.

`Permits` excludes these ways, and under it no run leaves a launch behind.
-/

namespace Coforge.Control

open Async Async.Prog Transition Option

/-- What identifies a launch to its retry. -/
structure Launch where
  epoch : Nat
  launchId : String
deriving DecidableEq

def LaunchRetry.launch (retry : LaunchRetry) : Launch := ⟨retry.scope.epoch, retry.launchId⟩

/-- The result ends the launch. -/
def AgentControlResult.ends (result : AgentControlResult) (launch : Launch) : Prop :=
  result.epoch = launch.epoch ∧ result.launchId = some launch.launchId ∧
    (result.phase = .started ∨ result.phase = .failed)

instance (result : AgentControlResult) (launch : Launch) : Decidable (result.ends launch) :=
  inferInstanceAs (Decidable (_ ∧ _ ∧ _))

/-- The Start that was accepted last, if no later control was accepted and no result has ended
it. -/
def openStart : List Entry → Option Launch
  | []                                     => none
  | .accepted (.start scope launchId) :: _ => some ⟨scope.epoch, launchId⟩
  | .accepted _ :: _                       => none
  | .reported result :: rest               => (openStart rest).filter fun l => ¬ result.ends l
  | .session _ :: rest                     => openStart rest

/-- With no start run at work and no retry armed, no launch is under way. -/
def Concluded (s : AgentState) : Prop :=
  s.startPending = false →
    (∀ r ∈ s.record, r.phase ≠ .starting) ∧ openStart s.history = none

/-- The Start cancels the retry of an older one and is refused then. -/
def refusedAfterCancel (intent : AgentStartIntent) (s : AgentState) : Prop :=
  ∃ epoch ∈ intent.controlEpoch,
    supersedesRetry s.record (intent.scope epoch) s ∧
      (∀ r ∈ s.record, ¬ (intent.scope epoch).staleFor r) ∧
      (truthy intent.launchId = none ∨
        startRoute s.record (intent.scope epoch) intent s.running = .refuse)

/-- The replies that keep a launch and its retry together. -/
def Permits (task : Task) : (e : Effect) → AgentState → Reply e → Prop
  | .stop, _, .error _        => task.isStartRun = false
  | .rebind _ _, _, .error _  => False
  | .wake _, s, .error _      => openStart s.history = none
  | .turn .repaired, s, _     => ∀ intent ∈ task.startIntent, ¬ refusedAfterCancel intent s
  | .turn .read, s, _         => ∀ retry ∈ task.dueRetry, ∀ r ∈ s.record, retry.owns r →
    s.running = false
  | _, _, _                   => True

instance (intent : AgentStartIntent) (s : AgentState) : Decidable (refusedAfterCancel intent s) :=
  inferInstanceAs (Decidable (∃ _ ∈ _, _ ∧ _ ∧ _))

instance (task : Task) : ∀ (e : Effect) (s : AgentState) (r : Reply e),
    Decidable (Permits task e s r)
  | .stop, _, .error _        => inferInstanceAs (Decidable (task.isStartRun = false))
  | .rebind _ _, _, .error _  => inferInstanceAs (Decidable False)
  | .wake _, s, .error _      => inferInstanceAs (Decidable (openStart s.history = none))
  | .turn .repaired, s, _     =>
    inferInstanceAs (Decidable (∀ intent ∈ task.startIntent, ¬ refusedAfterCancel intent s))
  | .turn .read, s, _         =>
    inferInstanceAs (Decidable (∀ retry ∈ task.dueRetry, ∀ r ∈ s.record, retry.owns r →
      s.running = false))
  | .stop, _, .ok _           => isTrue trivial
  | .rebind _ _, _, .ok _     => isTrue trivial
  | .wake _, _, .ok _         => isTrue trivial
  | .turn .required, _, _     => isTrue trivial
  | .turn .written, _, _      => isTrue trivial
  | .result _, _, _           => isTrue trivial
  | .session _, _, _          => isTrue trivial
  | .launch _ _ _ _, _, _     => isTrue trivial
  | .clearWorkspace, _, _     => isTrue trivial

/-- The condition on the steps of a run. -/
abbrev RetryKept : System → Act Event Outcome → Prop := Answered Permits

/-! ### The invariant -/

/-- The retry of the launch is armed or queued. -/
def AgentState.Retrying (s : AgentState) (launch : Launch) : Prop :=
  (∃ r, s.launchRetry = some r ∧ r.launch = launch) ∨
    ∃ r, .retry r ∈ s.pending ∧ r.launch = launch

open AgentState

/-- The record is that of the launch, and still in "starting". -/
def AgentRuntimeRecord.startingAs (record : AgentRuntimeRecord) (launch : Launch) : Prop :=
  record.phase = .starting ∧ record.scope.epoch = launch.epoch ∧
    record.launchId = some launch.launchId

lemma AgentRuntimeRecord.startingAs.unique {record : AgentRuntimeRecord} {l l' : Launch}
    (h : record.startingAs l) (h' : record.startingAs l') : l = l' := by
  obtain ⟨-, he, hid⟩ := h
  obtain ⟨-, he', hid'⟩ := h'
  rw [hid, some.injEq] at hid'
  rw [he] at he'
  cases l
  cases l'
  simp_all

/-- A record in "starting" has a retry, and an open Start has such a record. `own` is the launch
whose retry is at work. -/
structure Owned (own : Option Launch) (s : AgentState) : Prop where
  starting : ∀ r ∈ s.record, r.phase = .starting →
    ∃ l, r.startingAs l ∧ (s.Retrying l ∨ own = some l)
  answered : ∀ l, openStart s.history = some l → ∃ r ∈ s.record, r.startingAs l

/-- `startsRunning` counts the queued start runs and `k` more. -/
def Counted (k : Nat) (s : AgentState) : Prop :=
  s.startsRunning = startRuns s.pending + k

/-- What an operation starts from: `k` is 1 in a start run. -/
structure Before (k : Nat) (own : Option Launch) (record : Option AgentRuntimeRecord)
    (s : AgentState) : Prop where
  counted : Counted k s
  owned : Owned own s
  record : s.record = record

/-- What an operation ends in. -/
structure Ended (k : Nat) (s : AgentState) : Prop where
  counted : Counted k s
  owned : Owned none s

/-- No Start is open, so the record may change to any phase but "starting". -/
structure Quiet (k : Nat) (s : AgentState) : Prop where
  counted : Counted k s
  answered : openStart s.history = none
  phase : ∀ r ∈ s.record, r.phase ≠ .starting

/-- An attempt of the launch is at work, and no other Start is open. -/
structure Attempting (launch : Launch) (s : AgentState) : Prop where
  counted : Counted 1 s
  opened : ∀ l, openStart s.history = some l → l = launch

variable {k : Nat}

lemma Quiet.ended {s : AgentState} (h : Quiet k s) : Ended k s where
  counted := h.counted
  owned :=
    { starting := fun r hr hp => absurd hp (h.phase r hr)
      answered := fun l hopen => by simp [h.answered] at hopen }

lemma Before.ended {record : Option AgentRuntimeRecord} {s : AgentState}
    (h : Before k none record s) : Ended k s :=
  ⟨h.counted, h.owned⟩

lemma Owned.quiet {own : Option Launch} {s : AgentState} (h : Owned own s)
    (hc : Counted k s) (hp : ∀ r ∈ s.record, r.phase ≠ .starting) : Quiet k s where
  counted := hc
  answered := by
    rw [eq_none_iff_forall_ne_some]
    intro l hopen
    obtain ⟨r, hr, hphase, -⟩ := h.answered l hopen
    exact hp r hr hphase
  phase := hp

/-! ### Stability -/

lemma Retrying.undisturbed {s t : AgentState} {l : Launch} (h : Undisturbed s t)
    (hs : s.Retrying l) : t.Retrying l := by
  obtain ⟨added, hj⟩ := h
  rcases hs with ⟨r, hr, rfl⟩ | ⟨r, hr, rfl⟩
  · rcases hj.fired r hr with h | h
    · exact .inl ⟨r, h, rfl⟩
    · exact .inr ⟨r, by rw [hj.pending]; exact List.mem_append_right _ h, rfl⟩
  · exact .inr ⟨r, by rw [hj.pending]; exact List.mem_append_left _ hr, rfl⟩

lemma counted_stable (k : Nat) : Stable (Counted k) := by
  rintro s t ⟨added, hj⟩ h
  simp only [Counted, hj.pending, hj.startsRunning, startRuns_append] at h ⊢
  omega

lemma owned_stable (own : Option Launch) : Stable (Owned own) := by
  intro s t hst h
  have ⟨added, hj⟩ := hst
  refine ⟨fun r hr hp => ?_, fun l hopen => ?_⟩
  · obtain ⟨l, hl, hown⟩ := h.starting r (hj.record ▸ hr) hp
    exact ⟨l, hl, hown.imp_left (Retrying.undisturbed hst)⟩
  · rw [hj.record]
    exact h.answered l (hj.history ▸ hopen)

lemma before_stable (k : Nat) (own : Option Launch) (record : Option AgentRuntimeRecord) :
    Stable (Before k own record) := by
  intro s t hst h
  have ⟨added, hj⟩ := hst
  exact ⟨counted_stable k s t hst h.counted, owned_stable own s t hst h.owned,
    hj.record.trans h.record⟩

lemma ended_stable (k : Nat) : Stable (Ended k) := fun s t hst h =>
  ⟨counted_stable k s t hst h.counted, owned_stable none s t hst h.owned⟩

lemma quiet_stable (k : Nat) : Stable (Quiet k) := by
  intro s t hst h
  have ⟨added, hj⟩ := hst
  exact ⟨counted_stable k s t hst h.counted, hj.history ▸ h.answered, hj.record ▸ h.phase⟩

lemma attempting_stable (l : Launch) : Stable (Attempting l) := by
  intro s t hst h
  have ⟨added, hj⟩ := hst
  exact ⟨counted_stable 1 s t hst h.counted, hj.history ▸ h.opened⟩

lemma Stable.and {F G : AgentState → Prop} (hF : Stable F) (hG : Stable G) :
    Stable fun s => F s ∧ G s :=
  fun s t hst h => ⟨hF s t hst h.1, hG s t hst h.2⟩

lemma record_stable (record : Option AgentRuntimeRecord) : Stable fun s => s.record = record := by
  rintro s t ⟨added, hj⟩ h
  exact hj.record.trans h

/-! ### The operations keep it -/

/-- The start runs a task accounts for while it is in its turn. -/
def Task.runs (task : Task) : Nat := if task.isStartRun then 1 else 0

/-- What holds while a task waits. A launch attempt leaves its record without a retry until it
ends, which is why a start run promises its own count only. -/
def During (task : Task) (s : AgentState) : Prop :=
  Counted task.runs s ∧ (task.isStartRun = false → Owned none s)

lemma During.of_before {task : Task} {record : Option AgentRuntimeRecord} (s : AgentState)
    (h : Before task.runs none record s) : During task s :=
  ⟨h.counted, fun _ => h.owned⟩

lemma During.of_ended {task : Task} (s : AgentState) (h : Ended task.runs s) : During task s :=
  ⟨h.counted, fun _ => h.owned⟩

lemma During.of_quiet {task : Task} (s : AgentState) (h : Quiet task.runs s) : During task s :=
  .of_ended s h.ended

lemma During.of_counted {task : Task} (hrun : task.isStartRun = true) (s : AgentState)
    (h : Counted 1 s) : During task s := by
  refine ⟨by simpa [Task.runs, hrun] using h, fun hno => ?_⟩
  rw [hrun] at hno
  cases hno

abbrev ctx (task : Task) : Context AgentState Reply := context Permits During task

section Steps

variable {task : Task} {s : AgentState}

lemma wp_readEnded {Q : Except ControlError (Option AgentRuntimeRecord) → AgentState → Prop}
    (h : Ended task.runs s)
    (hk : ∀ t, Before task.runs none t.record t → Permits task (.turn .read) t () →
      Q (.ok t.record) t) : wp (ctx task) readRecord Q s :=
  wp_readRecord (ended_stable _) During.of_ended h
    fun t ht hper => hk t ⟨ht.counted, ht.owned, rfl⟩ hper

variable {Q : Except ControlError Unit → AgentState → Prop}

lemma wp_requireRecord {record : Option AgentRuntimeRecord} {known : Bool}
    (h : Before task.runs none record s) (hk : ∀ r t, Before task.runs none record t → Q r t) :
    wp (ctx task) (requireRecord record known) Q s := by
  simp only [requireRecord, wp_bind]
  refine wp_turn (before_stable _ _ _) During.of_before h fun t ht _ => ?_
  simp only [either_ok]
  split
  · exact hk _ t ht
  · exact hk _ t ht

lemma wp_repair {record : Option AgentRuntimeRecord}
    {Q : Except ControlError (Option AgentRuntimeRecord) → AgentState → Prop}
    (h : Before task.runs none record s)
    (hk : ∀ t, Before task.runs none t.record t → Permits task (.turn .repaired) t () →
      Q (.ok t.record) t) : wp (ctx task) (repairStaleRecord record) Q s := by
  have hkeep {s : AgentState} {record : Option AgentRuntimeRecord}
      (h : Before task.runs none record s) :
      wp (ctx task) (do turn .repaired; return record) Q s := by
    simp only [wp_bind]
    refine wp_turn (before_stable _ _ _) During.of_before h fun t ht hper => ?_
    have hrec := ht.record
    subst hrec
    exact hk t ht hper
  simp only [repairStaleRecord, wp_bind, wp_gets, either_ok]
  cases record with
  | none => exact hkeep h
  | some r =>
    simp only
    split
    · next hstuck =>
      have hphase : r.phase ≠ .starting := by simp [hstuck.2.2.1]
      have hquiet : Quiet task.runs s := h.owned.quiet h.counted (by simp [h.record, hphase])
      simp only [wp_bind]
      refine wp_writeRecord (F := fun t => Quiet task.runs t ∧ t.record = _)
        ((quiet_stable _).and (record_stable _)) (fun t ht => During.of_quiet t ht.1)
        ⟨⟨hquiet.counted, hquiet.answered, by simp⟩, rfl⟩ fun t ht => ?_
      exact hkeep ⟨ht.1.counted, ht.1.ended.owned, ht.2⟩
    · exact hkeep h

lemma wp_fence {record : Option AgentRuntimeRecord} {scope : AgentControlScope}
    (hk : (∀ r ∈ record, ¬ scope.staleFor r) → Q (.ok ()) s)
    (herr : Q (.error .staleControlRequest) s) : wp (ctx task) (fence record scope) Q s := by
  unfold fence
  split
  · exact herr
  · next h => exact hk (by simpa using h)

variable {result : AgentControlResult}

lemma openStart_report {history : List Entry} {l : Launch}
    (h : openStart (.reported result :: history) = some l) : openStart history = some l :=
  (filter_eq_some_iff.mp h).1

lemma wp_reportEnded (h : Ended task.runs s) (hk : ∀ t, Ended task.runs t → Q (.ok ()) t) :
    wp (ctx task) (report result) Q s :=
  wp_report (ended_stable _) During.of_ended
    ⟨h.counted, h.owned.starting, fun l hl => h.owned.answered l (openStart_report hl)⟩ hk

lemma wp_replayResult {scope : AgentControlScope} {before : Op Unit}
    (h : wp (ctx task) before (fun _ => Ended task.runs) s) (hs : Ended task.runs s) :
    wp (ctx task) (replayResult result scope before) (fun _ => Ended task.runs) s := by
  unfold replayResult
  split
  · exact hs
  · simp only [wp_bind]
    refine wp_mono (fun r t ht => ?_) h
    cases r with
    | ok => exact wp_reportEnded ht fun _ => id
    | error => exact ht

/-! ### Stop, reset and reports -/

lemma wp_acceptStop {record : Option AgentRuntimeRecord} {scope : AgentControlScope}
    (h : Counted task.runs s) :
    wp (ctx task) (acceptStop record scope) (fun _ => Ended task.runs) s := by
  simp only [acceptStop, wp_bind, wp_update, wp_gets, either_ok]
  refine ⟨trivial, ?_⟩
  refine wp_writeRecord (quiet_stable task.runs) During.of_quiet ⟨?_, rfl, by simp⟩
    fun t ht => ?_
  · simpa [Counted, resetLaunchFailures, accept] using h
  simp only [either_ok, wp_bind]
  refine wp_effect (e := .stop) (quiet_stable task.runs) During.of_quiet ht
    fun o r t' u _ _ _ hu => ?_
  simp only [either_ok, wp_bind]
  refine wp_writeRecord (quiet_stable task.runs) During.of_quiet
    ⟨hu.counted, hu.answered, ?_⟩ fun v hv => ?_
  · cases r with
    | ok i => simp only [stopOutcome, mem_some_iff]; rintro _ rfl; split <;> simp
    | error => simp [stopOutcome]
  · exact wp_reportEnded hv.ended fun _ => id

lemma wp_stop {scope : AgentControlScope} {known : Bool} (h : Ended task.runs s) :
    wp (ctx task) (stop scope known) (fun _ => Ended task.runs) s := by
  simp only [stop, wp_bind]
  refine wp_readEnded h fun t ht _ => ?_
  refine wp_bind.mpr (wp_requireRecord ht fun r u hu => ?_)
  cases r with
  | error => exact hu.ended
  | ok =>
    refine wp_bind.mpr (wp_repair hu fun v hv _ => ?_)
    refine wp_bind.mpr (wp_fence (fun _ => ?_) hv.ended)
    simp only [either_ok]
    split
    · exact wp_replayResult hv.ended hv.ended
    · split
      · exact hv.ended
      · exact wp_acceptStop hv.counted

lemma wp_acceptReset {record : AgentRuntimeRecord} {scope : AgentControlScope}
    (h : Counted task.runs s) :
    wp (ctx task) (acceptReset record scope) (fun _ => Ended task.runs) s := by
  simp only [acceptReset, wp_bind, wp_update, either_ok]
  refine ⟨trivial, ?_⟩
  refine wp_writeRecord (quiet_stable task.runs) During.of_quiet ⟨h, rfl, by simp⟩
    fun t ht => ?_
  simp only [either_ok, wp_bind]
  refine wp_effect (e := .clearWorkspace) (quiet_stable task.runs) During.of_quiet ht
    fun o r t' u _ _ _ hu => ?_
  simp only [either_ok, wp_bind]
  refine wp_writeRecord (quiet_stable task.runs) During.of_quiet
    ⟨hu.counted, hu.answered, by simp⟩ fun v hv => ?_
  exact wp_reportEnded hv.ended fun _ => id

lemma wp_resetWorkspace {scope : AgentControlScope} (h : Ended task.runs s) :
    wp (ctx task) (resetWorkspace scope) (fun _ => Ended task.runs) s := by
  simp only [resetWorkspace, wp_bind]
  refine wp_readEnded h fun t ht _ => ?_
  refine wp_bind.mpr (wp_repair ht fun u hu _ => ?_)
  refine wp_bind.mpr (wp_fence (fun _ => ?_) hu.ended)
  simp only [either_ok]
  split
  · exact hu.ended
  · simp only [wp_bind, wp_update, either_ok]
    refine ⟨trivial, ?_⟩
    have hu' : Ended task.runs { u with known := true } :=
      ⟨hu.counted, hu.owned.starting, hu.owned.answered⟩
    split
    · exact wp_replayResult hu' hu'
    · simp only [wp_bind, wp_gets, either_ok]
      split
      · exact hu'
      · exact wp_acceptReset hu.counted

lemma wp_moved {launchId : String} {identity : Option SessionIdentity} {source target : Phase}
    (hsource : source ≠ .starting) (htarget : target ≠ .starting) (h : Ended task.runs s) :
    wp (ctx task) (moved launchId identity source target) (fun _ => Ended task.runs) s := by
  simp only [moved, wp_bind]
  refine wp_readEnded h fun t ht _ => ?_
  simp only [either_ok]
  split
  · exact ht.ended
  · next r hr =>
    split
    · exact ht.ended
    · next hphase =>
      have hsrc : r.phase = source := not_ne_iff.mp (not_or.mp hphase).1
      have hquiet : Quiet task.runs t :=
        ht.owned.quiet ht.counted (by simp [hr, hsrc, hsource])
      refine wp_writeRecord (quiet_stable task.runs) During.of_quiet
        ⟨hquiet.counted, hquiet.answered, by simp [htarget]⟩ fun u hu => hu.ended

lemma wp_sendEnded {report : Option AgentSessionSnapshot} (h : Ended task.runs s) :
    wp (ctx task) (sendSession report) (fun _ => Ended task.runs) s :=
  wp_sendSession (ended_stable _) During.of_ended
    (fun _ _ => ⟨h.counted, h.owned.starting, h.owned.answered⟩) (fun _ => h) fun _ => id

lemma wp_updateSession {launchId : String} {identity : SessionIdentity} (h : Ended task.runs s) :
    wp (ctx task) (updateSession launchId identity) (fun _ => Ended task.runs) s := by
  simp only [updateSession, wp_bind]
  refine wp_readEnded h fun t ht _ => ?_
  simp only [either_ok]
  split
  · exact ht.ended
  · next r hr =>
    split
    · exact ht.ended
    · next hphase =>
      have hrunning : r.phase = .running := not_ne_iff.mp (not_or.mp hphase).2
      have hquiet : Quiet task.runs t :=
        ht.owned.quiet ht.counted (by simp [hr, hrunning])
      simp only [wp_bind]
      refine wp_writeRecord (quiet_stable task.runs) During.of_quiet
        ⟨hquiet.counted, hquiet.answered, by simp [hrunning]⟩ fun u hu => wp_sendEnded hu.ended

lemma wp_replay (h : Ended task.runs s) : wp (ctx task) replay (fun _ => Ended task.runs) s := by
  simp only [replay, wp_bind]
  refine wp_readEnded h fun t ht _ => ?_
  simp only [either_ok]
  split
  · exact ht.ended
  · exact wp_reportEnded ht.ended fun _ => id

end Steps

/-! ### Launch attempts -/

section Attempts

variable {task : Task} {s : AgentState} {intent : AgentStartIntent} {scope : AgentControlScope}
  {record : AgentRuntimeRecord} {launchId : String} {attempt : Nat}

lemma wp_launchWithRecovery {F : AgentState → Prop} (hF : Stable F)
    (hd : ∀ t, F t → During task t) (h : F s) :
    wp (ctx task) (launchWithRecovery intent launchId) (fun _ => F) s := by
  simp only [launchWithRecovery, wp_bind]
  refine wp_effect (e := .launch _ _ _ _) hF hd h fun o r t u _ _ _ hu => ?_
  simp only [either_ok]
  split
  · exact hu
  · exact hu
  · split
    · exact hu
    · simp only [wp_bind]
      refine wp_effect (e := .launch _ _ _ _) hF hd hu fun o r v w _ _ _ hw => ?_
      simp only [either_ok]
      split <;> exact hw

variable (hrun : task.isStartRun = true)
include hrun

lemma During.of_attempting {launch : Launch} (s : AgentState) (h : Attempting launch s) :
    During task s :=
  .of_counted hrun s h.counted

lemma wp_conclude {result : AgentControlResult} {launch : Launch}
    (hends : result.ends launch) (h : Attempting launch s)
    (hphase : ∀ r ∈ s.record, r.phase ≠ .starting) :
    wp (ctx task) (report result) (fun _ => Ended 1) s := by
  refine wp_report (quiet_stable 1) (fun t ht => .of_counted hrun t ht.counted)
    ⟨h.counted, ?_, hphase⟩ fun t ht => ht.ended
  rw [eq_none_iff_forall_ne_some]
  intro l hl
  obtain ⟨hopen, hnot⟩ := filter_eq_some_iff.mp hl
  rw [h.opened l hopen] at hnot
  simp [hends] at hnot

lemma wp_launched {identity : Option SessionIdentity} (h : Attempting ⟨scope.epoch, launchId⟩ s) :
    wp (ctx task) (launched scope record launchId identity) (fun _ => Ended 1) s := by
  simp only [launched, wp_bind]
  refine wp_writeRecord
    (F := fun t => Attempting ⟨scope.epoch, launchId⟩ t ∧ t.record = some _)
    ((attempting_stable _).and (record_stable _))
    (fun t ht => .of_attempting hrun t ht.1) ⟨⟨h.counted, h.opened⟩, rfl⟩ fun t ht => ?_
  simp only [either_ok, wp_bind, wp_update]
  have hu : Attempting ⟨scope.epoch, launchId⟩ t.onLaunchSucceeded := by
    constructor
    · simpa [onLaunchSucceeded, Counted, resetLaunchFailures]
        using ht.1.counted
    · simpa [onLaunchSucceeded, resetLaunchFailures] using ht.1.opened
  refine ⟨trivial, wp_conclude hrun ⟨rfl, rfl, .inl rfl⟩ hu ?_⟩
  simp [onLaunchSucceeded, resetLaunchFailures, ht.2]

lemma wp_launchFailure (hscope : record.scope = scope) (hphase : record.phase = .starting)
    (hlaunch : record.launchId = some launchId) (h : Attempting ⟨scope.epoch, launchId⟩ s) :
    wp (ctx task) (launchFailure intent scope record launchId attempt) (fun _ => Ended 1) s := by
  simp only [launchFailure, wp_bind]
  refine wp_effect (e := .stop) (attempting_stable _) (During.of_attempting hrun) h
    fun o r t u _ hper _ hu => ?_
  cases r with
  | error =>
    rw [Permits, hrun] at hper
    cases hper
  | ok identity =>
    simp only [either_ok, orThrow, wp_pure, wp_bind, wp_update, wp_gets]
    refine ⟨trivial, ?_⟩
    split
    · simp only [wp_bind]
      refine wp_writeRecord
        (F := fun v => Attempting ⟨scope.epoch, launchId⟩ v ∧ v.record = some record)
        ((attempting_stable _).and (record_stable _))
        (fun v hv => .of_attempting hrun v hv.1) ⟨⟨hu.counted, hu.opened⟩, rfl⟩ fun v hv => ?_
      have hrec : record.startingAs ⟨scope.epoch, launchId⟩ := ⟨hphase, by rw [hscope], hlaunch⟩
      simp only [either_ok, wp_update]
      refine ⟨trivial, ?_, fun r hr _ => ?_, fun l hl => ?_⟩
      · simpa [scheduleLaunchRetry, Counted] using hv.1.counted
      · simp only [scheduleLaunchRetry, clearLaunchRetry_record, hv.2, mem_some_iff] at hr
        exact ⟨_, hr ▸ hrec, .inl (.inl ⟨_, rfl, rfl⟩)⟩
      · simp only [scheduleLaunchRetry, clearLaunchRetry_history] at hl
        exact ⟨record, by simp [scheduleLaunchRetry, hv.2], hv.1.opened l hl ▸ hrec⟩
    · simp only [wp_bind, wp_update, either_ok]
      refine ⟨trivial, wp_writeRecord
        (F := fun v => Attempting ⟨scope.epoch, launchId⟩ v ∧ v.record = some _)
        ((attempting_stable _).and (record_stable _))
        (fun v hv => .of_attempting hrun v hv.1) ⟨⟨?_, ?_⟩, rfl⟩ fun v hv => ?_⟩
      · simpa [Counted, resetLaunchFailures] using hu.counted
      · simpa [resetLaunchFailures] using hu.opened
      · exact wp_conclude hrun ⟨rfl, rfl, .inr rfl⟩ hv.1 (by simp [hv.2])

lemma wp_attemptStart (h : Attempting ⟨scope.epoch, launchId⟩ s) :
    wp (ctx task) (attemptStart intent scope record launchId attempt) (fun _ => Ended 1) s := by
  simp only [attemptStart, wp_bind, wp_gets, either_ok]
  refine wp_writeRecord (attempting_stable _) (During.of_attempting hrun) ⟨h.counted, h.opened⟩
    fun t ht => ?_
  simp only [either_ok, wp_bind, wp_result]
  refine wp_mono (fun r u hu => ?_)
    (wp_launchWithRecovery (attempting_stable _) (During.of_attempting hrun) ht)
  cases r with
  | ok identity => exact wp_launched hrun hu
  | error => exact wp_launchFailure hrun rfl rfl rfl hu

/-- A rebound record is "running" all the while, so a wake that fails leaves no Start open only
if its result was reported before. -/
lemma wp_rebindRunning (hphase : record.phase = .running)
    (h : Attempting ⟨scope.epoch, launchId⟩ s) :
    wp (ctx task) (rebindRunning record scope intent launchId) (fun _ => Ended 1) s := by
  let F : AgentState → Prop := fun t =>
    Attempting ⟨scope.epoch, launchId⟩ t ∧ ∀ r ∈ t.record, r.phase ≠ .starting
  have hF : Stable F := by
    intro t u htu ht
    have ⟨added, hj⟩ := htu
    exact ⟨attempting_stable _ t u htu ht.1, hj.record ▸ ht.2⟩
  have hd : ∀ t, F t → During task t := fun t ht => .of_attempting hrun t ht.1
  simp only [rebindRunning, wp_bind]
  refine wp_writeRecord hF hd ⟨⟨h.counted, h.opened⟩, by simp [hphase]⟩ fun t ht => ?_
  simp only [either_ok, wp_bind]
  refine wp_effect (e := .rebind _ _) hF hd ht fun o r t' u _ hper _ hu => ?_
  cases r with
  | error => exact absurd hper id
  | ok identity =>
    simp only [either_ok, orThrow, wp_pure, wp_bind]
    refine wp_writeRecord hF hd ⟨⟨hu.1.counted, hu.1.opened⟩, by simp [hphase]⟩ fun v hv => ?_
    simp only [either_ok]
    split
    · simp only [wp_bind]
      refine wp_effect (e := .wake _) hF hd hv fun o r v' w hans hper hv' hw => ?_
      cases r with
      | error =>
        have hwv : w = v' := by cases o <;> cases hans; rfl
        have hq : Quiet 1 w := ⟨hw.1.counted, hwv ▸ hper, hw.2⟩
        exact hq.ended
      | ok => exact wp_conclude hrun ⟨rfl, rfl, .inl rfl⟩ hw.1 hw.2
    · exact wp_conclude hrun ⟨rfl, rfl, .inl rfl⟩ hv.1 hv.2

/-! ### Start -/

lemma wp_refuse {record : Option AgentRuntimeRecord} {code : String} {error : ControlError}
    (h : Ended 1 s) : wp (ctx task) (refuse record scope code error) (fun _ => Ended 1) s := by
  have hruns : task.runs = 1 := by simp [Task.runs, hrun]
  simp only [refuse, wp_bind]
  exact wp_reportEnded (hruns ▸ h) fun t ht => hruns ▸ ht

/-- Past the record checks a Start is refused, and the state is then as `href` has it, or it is
accepted and becomes the open one. -/
lemma wp_admitStart {record : Option AgentRuntimeRecord} (hc : Counted 1 s)
    (href : truthy intent.launchId = none ∨ startRoute record scope intent s.running = .refuse →
      Ended 1 s) : wp (ctx task) (admitStart record scope intent) (fun _ => Ended 1) s := by
  unfold admitStart
  split
  · next hid => exact wp_refuse hrun (href (.inl hid))
  · next launchId hid =>
    have hacc : Attempting ⟨scope.epoch, launchId⟩ (s.accept (.start scope launchId)) :=
      ⟨hc, fun l hl => (some.inj hl).symm⟩
    simp only [wp_bind, wp_gets, either_ok]
    split
    · next hroute => exact wp_refuse hrun (href (.inr hroute))
    · next r hroute =>
      simp only [wp_bind, wp_update, either_ok]
      exact ⟨trivial, wp_rebindRunning hrun (startRoute_rebind hroute).2.1 hacc⟩
    · simp only [wp_bind, wp_update, either_ok]
      refine ⟨trivial, wp_effect (e := .stop) (attempting_stable _) (During.of_attempting hrun)
        hacc fun o r t u _ hper _ hu => ?_⟩
      cases r with
      | error =>
        rw [Permits, hrun] at hper
        cases hper
      | ok =>
        simp only [either_ok, orThrow, wp_pure, wp_bind, wp_gets]
        exact wp_attemptStart hrun hu
    · simp only [wp_bind, wp_update, wp_gets, either_ok]
      exact ⟨trivial, wp_attemptStart hrun hacc⟩

lemma wp_replayStart {record : Option AgentRuntimeRecord} {result : AgentControlResult}
    (h : Ended 1 s) :
    wp (ctx task) (replayStart record scope intent result) (fun _ => Ended 1) s := by
  have hruns : task.runs = 1 := by simp [Task.runs, hrun]
  rw [← hruns] at h ⊢
  refine wp_replayResult ?_ h
  simp only [wp_bind, wp_gets, either_ok]
  split
  · simp only [wp_bind]
    refine wp_effect (e := .wake _) (ended_stable _) During.of_ended h fun o r t u _ _ _ hu => ?_
    cases r <;> exact hu
  · exact h

lemma wp_decideStart {epoch : Nat} {record : Option AgentRuntimeRecord}
    (hepoch : intent.controlEpoch = some epoch) (h : Before 1 none record s)
    (hper : ¬ refusedAfterCancel intent s) :
    wp (ctx task) (decideStart record (intent.scope epoch) intent) (fun _ => Ended 1) s := by
  simp only [decideStart, wp_bind]
  refine wp_fence (fun hfence => ?_) h.ended
  simp only [either_ok]
  split
  · exact wp_replayStart hrun h.ended
  · simp only [wp_bind, Prog.read, wp_get, wp_ret, either_ok]
    have hrec := h.record
    split
    · next hsup =>
      simp only [wp_bind, wp_update, either_ok]
      refine ⟨trivial, wp_admitStart hrun ?_ fun href => ?_⟩
      · simpa [Counted, resetLaunchFailures] using h.counted
      · refine absurd ⟨epoch, hepoch, ?_⟩ hper
        subst hrec
        exact ⟨hsup, hfence, by simpa [resetLaunchFailures] using href⟩
    · split
      · exact h.ended
      · exact wp_admitStart hrun h.counted fun _ => h.ended

end Attempts

lemma wp_start {s : AgentState} {intent : AgentStartIntent} {known : Bool} (h : Ended 1 s) :
    wp (ctx (.start intent known)) (start intent known) (fun _ => Ended 1) s := by
  unfold start
  split
  · exact h
  · exact h
  · next epoch _ hepoch =>
    simp only [wp_bind]
    refine wp_readEnded h fun t ht _ => ?_
    refine wp_bind.mpr (wp_requireRecord ht fun r u hu => ?_)
    cases r with
    | error => exact hu.ended
    | ok =>
      refine wp_bind.mpr (wp_repair hu fun v hv hper => ?_)
      exact wp_decideStart rfl hepoch hv (hper intent rfl)

/-- A retry that still owns the record takes it over, and one that does not was not the retry
the record waits for. -/
lemma wp_retryStart {s : AgentState} {retry : LaunchRetry}
    (h : Counted 1 s) (howned : Owned (some retry.launch) s) :
    wp (ctx (.retry retry)) (retryStart retry) (fun _ => Ended 1) s := by
  have hF : Stable fun t => Counted 1 t ∧ Owned (some retry.launch) t :=
    (counted_stable 1).and (owned_stable _)
  simp only [retryStart, wp_bind]
  refine wp_readRecord hF (fun t ht => .of_counted rfl t ht.1) ⟨h, howned⟩ fun t ht hper => ?_
  simp only [either_ok]
  split
  · next hrec => exact ⟨ht.1, fun r hr => by simp [hrec] at hr, ht.2.answered⟩
  · next record hrec =>
    split
    · next hnot =>
      refine ⟨ht.1, fun r hr hp => ?_, ht.2.answered⟩
      cases hrec.symm.trans hr
      obtain ⟨l, hl, hown⟩ := ht.2.starting _ hrec hp
      refine ⟨l, hl, .inl (hown.resolve_right fun he => hnot ?_)⟩
      cases he
      exact hl
    · next howns =>
      simp only [not_not] at howns
      have hrun := hper retry rfl record hrec howns
      simp only [wp_bind, wp_gets, either_ok, hrun]
      refine wp_attemptStart rfl ⟨ht.1, fun l hl => ?_⟩
      obtain ⟨r, hr, hl⟩ := ht.2.answered l hl
      cases hrec.symm.trans hr
      exact hl.unique howns

/-! ### Runs -/

/-- The launch a task takes over from the retry timer. -/
def Task.own (task : Task) : Option Launch := task.dueRetry.map (·.launch)

lemma wp_startRun {task : Task} {p : Op Unit} {s : AgentState}
    (h : wp (ctx task) p (fun _ => Ended 1) s) :
    wp (ctx task) (p.andFinally (update AgentState.endStartRun)) (fun _ => Ended 0) s := by
  simp only [wp_andFinally]
  refine wp_mono (fun r t ht => ⟨trivial, ?_⟩) h
  obtain ⟨n, hn⟩ := t.endStartRun_eq
  rw [hn]
  have hc : t.startsRunning = startRuns t.pending + 1 := ht.counted
  exact ⟨by simp [Counted, hc], ht.owned.starting, ht.owned.answered⟩

lemma wp_logged {task : Task} {p : Op Unit} {s : AgentState}
    (h : wp (ctx task) p (fun _ => Ended k) s) : wp (ctx task) (logged p) (fun _ => Ended k) s := by
  simp only [logged, wp_tryCatch]
  refine wp_mono (fun r t ht => ?_) h
  cases r with
  | ok => exact ht
  | error => exact ⟨trivial, ht.counted, ht.owned.starting, ht.owned.answered⟩

lemma wp_body {task : Task} {s : AgentState} (h : Counted task.runs s) (howned : Owned task.own s) :
    wp (ctx task) (body task) (fun _ => Ended 0) s := by
  cases task with
  | start intent known => exact wp_logged (wp_startRun (wp_start ⟨h, howned⟩))
  | retry retry =>
    refine wp_startRun ?_
    simp only [wp_tryCatch]
    refine wp_mono (fun r t ht => ?_) (wp_retryStart h howned)
    cases r <;> exact ht
  | stop scope known => exact wp_logged (wp_stop ⟨h, howned⟩)
  | resetWorkspace scope => exact wp_logged (wp_resetWorkspace ⟨h, howned⟩)
  | stopped launchId identity => exact wp_moved (by decide) (by decide) ⟨h, howned⟩
  | wake launchId identity => exact wp_moved (by decide) (by decide) ⟨h, howned⟩
  | updateSession launchId identity => exact wp_updateSession ⟨h, howned⟩
  | replay => exact wp_replay ⟨h, howned⟩
  | replaySession =>
    simp only [body, replaySession, wp_bind]
    exact wp_readEnded ⟨h, howned⟩ fun t ht _ => wp_sendEnded ht.ended

/-- The task that begins leaves the count, and a retry that begins is the one at work. -/
lemma ended_next {s t : AgentState} {task : Task} (h : Ended 0 s) (hn : s.next = some (task, t)) :
    Counted task.runs t ∧ Owned task.own t := by
  unfold next at hn
  split at hn
  · cases hn
  · next task' rest hp =>
    cases hn
    have hc : s.startsRunning = startRuns s.pending := h.counted
    refine ⟨?_, fun r hr hphase => ?_, h.owned.answered⟩
    · rw [hp, startRuns_cons] at hc
      exact hc
    · obtain ⟨l, hl, hown⟩ := h.owned.starting r hr hphase
      refine ⟨l, hl, ?_⟩
      rcases hown with (harmed | ⟨r', hr', rfl⟩) | hnone
      · exact .inl (.inl harmed)
      · rw [hp, List.mem_cons] at hr'
        rcases hr' with rfl | hrest
        · exact .inr rfl
        · exact .inl (.inr ⟨r', hrest, rfl⟩)
      · cases hnone

def retrySpec : agentControl.Spec RetryKept where
  idle := Ended 0
  context := ctx
  rely_refl _ := undisturbed_refl
  rely_trans _ _ _ _ := undisturbed_trans
  guar_refl _ _ := trivial
  guar_trans _ _ _ _ _ _ := trivial
  event_idle _ _ _ _ _ h hs := ended_stable 0 _ _ (undisturbed_event h) hs
  event_rely _ _ _ _ _ _ _ h := undisturbed_event h
  reply_answer _ _ _ o _ _ hturn hok hans := ⟨o, hans, hok.permits hturn hans⟩
  body_safe s task t _ _ hn hs := by
    obtain ⟨hc, hown⟩ := ended_next hs hn
    exact wp_body hc hown

lemma Ended.concluded {s : AgentState} (h : Ended 0 s) : Concluded s := by
  intro hidle
  simp only [startPending, Bool.or_eq_false_iff, decide_eq_false_iff_not,
    isSome_eq_false_iff, isNone_iff_eq_none] at hidle
  obtain ⟨hruns, hretry⟩ := hidle
  have hc : s.startsRunning = startRuns s.pending := h.counted
  have hnone (l : Launch) : ¬ s.Retrying l := by
    rintro (⟨r, hr, -⟩ | ⟨r, hr, -⟩)
    · simp [hretry] at hr
    · have hpos : 0 < startRuns s.pending := List.countP_pos_iff.mpr ⟨_, hr, rfl⟩
      omega
  have hphase : ∀ r ∈ s.record, r.phase ≠ .starting := by
    intro r hr hp
    obtain ⟨l, -, hown⟩ := h.owned.starting r hr hp
    simp [hnone l] at hown
  exact ⟨hphase, (h.owned.quiet h.counted hphase).answered⟩

/-- No start run and no retry that waits means no launch that is under way, at every point of
every run whose replies are permitted. -/
theorem starting_concluded {instanceId : String} {acts : List (Act Event Outcome)} {s : System}
    (hok : Permitted agentControl.step RetryKept (System.init instanceId) acts)
    (hrun : run agentControl.step (System.init instanceId) acts = some s) : Concluded s.shared := by
  have hinit : retrySpec.Inv (System.init instanceId) :=
    (retrySpec.inv_idle rfl).mpr
      ⟨rfl, fun r hr => by simp [System.init, init] at hr,
        fun l hl => by simp [System.init, init, openStart] at hl⟩
  have hinv := retrySpec.safe_run hinit hok hrun
  rcases hturn : s.turn with _ | ⟨task, p⟩
  · exact ((retrySpec.inv_idle hturn).mp hinv).concluded
  · obtain ⟨u, hduring, -, hrely⟩ := (retrySpec.inv_turn hturn).mp hinv
    have hc := counted_stable _ u s.shared hrely hduring.1
    cases hkind : task.isStartRun with
    | false =>
      have howned := owned_stable none u s.shared hrely (hduring.2 hkind)
      rw [Task.runs, hkind] at hc
      exact Ended.concluded ⟨hc, howned⟩
    | true =>
      intro hidle
      simp [Counted, Task.runs, hkind, startPending] at hc hidle
      omega

/-- The launch of a first Start fails, its process is stopped, and the retry brings it up. -/
def retriedRun : List (Act Event Outcome) :=
  [.event (.start (sampleStart "request" 1 "launch")), .begin, .reply .done, .reply .done,
    .reply .done, .reply .done, .reply .failed, .reply (.identity none), .reply .done,
    .event .retryDue, .begin, .reply .done, .reply .done, .reply (.identity none),
    .reply .done, .reply .done]

theorem starting_concluded_retried :
    ∃ s, run agentControl.step (System.init "daemon") retriedRun = some s ∧ Concluded s.shared := by
  obtain ⟨s, hs⟩ := isSome_iff_exists.mp
    (show (run agentControl.step (System.init "daemon") retriedRun).isSome by decide)
  exact ⟨s, hs, starting_concluded (by decide) hs⟩

/-- The launch of a first Start fails, and so does the stop that cleans up after it. -/
def failedCleanupRun : List (Act Event Outcome) :=
  [.event (.start (sampleStart "request" 1 "launch")), .begin, .reply .done, .reply .done,
    .reply .done, .reply .done, .reply .failed, .reply .failed]

theorem failed_cleanup_left_starting : ¬ ∀ instanceId acts s,
      run agentControl.step (System.init instanceId) acts = some s → Concluded s.shared := by
  intro h
  obtain ⟨hphase, -⟩ := h "daemon" failedCleanupRun _ rfl rfl
  exact hphase _ rfl rfl

end Coforge.Control
