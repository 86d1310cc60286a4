import Coforge.Health.Journal

/-!
# The budget of crashes

The Workspace process looks at its own journal when it starts: a live marker that it finds there
says that the run before died unexpectedly, and the death that exhausts the budget latches the
Workspace. An operator who clears the latch is to give it a full budget again.

A clear leaves the live marker as it is. `Settled` is the condition that no clear finds the marker
of a run that is over, whose death the next start would count a second time, or count although it
came before the clear.
-/

namespace Coforge.Health

open Transition

/-! ### Guarded starts -/

/-- `WorkspaceRunnerGuardOutcome`. -/
inductive GuardOutcome where
  | proceed
  | exit (reason : String) (crashCount since : Option Json)
  | parked (reason since : Option Json)

/-- The live marker of a record. -/
def isLive (record : Json) : Bool :=
  match record.get? "live" with
  | some (.bool live) => live
  | _                 => false

def crashesOf (record : Json) : List Json := Json.items (record.get? "crashes")

section Guard

variable (n : Numerals)

/-- An operation that nothing interrupts: it reads the file and replaces it, or leaves it. -/
def perform (op : Operation) (now : Int) (file : Option Json) : Option Json :=
  match op.edit n now (readFile n file) with
  | none      => file
  | some next => some next

def wasLeftRunning (file : Option Json) : Bool := isLive (readFile n file)

/-- The decision of a process that starts. `instant` is the time it gives to the death it counts. -/
def guardWorkspaceRunnerStart (instant now : Int) (file : Option Json) :
    Option Json × GuardOutcome :=
  match state n (readFile n file) now with
  | .parked reason since => (file, .parked reason since)
  | .degraded reason crashCount since => (file, .exit reason crashCount since)
  | .ok =>
    if wasLeftRunning n file then
      let crashed := perform n (.recordCrash instant) now file
      match state n (readFile n crashed) now with
      | .degraded reason crashCount since => (crashed, .exit reason crashCount since)
      | _ => (perform n .recordStart now crashed, .proceed)
    else (perform n .recordStart now file, .proceed)

/-- The file of a Workspace, whether its process runs, and how often it died unexpectedly since the
last clear. -/
structure Workspace where
  file : Option Json
  running : Bool
  deaths : Nat

inductive Event where
  | start (instant now : Int)
  | die
  | gracefulStop (now : Int)
  | clear (now : Int)
deriving DecidableEq

/-- One process of a Workspace runs at a time. -/
def Workspace.step (w : Workspace) : Event → Option Workspace
  | .start instant now =>
    if w.running then none
    else
      match guardWorkspaceRunnerStart n instant now w.file with
      | (file, .proceed) => some { w with file, running := true }
      | (file, _)        => some { w with file }
  | .die => if w.running then some { w with running := false, deaths := w.deaths + 1 } else none
  | .gracefulStop now =>
    if w.running then
      some { w with file := perform n .recordGracefulStop now w.file, running := false }
    else none
  | .clear now => some { w with file := perform n .clear now w.file, deaths := 0 }

/-- A Workspace without a journal. -/
def Workspace.fresh : Workspace := ⟨none, false, 0⟩

/-- A clear finds no live marker but that of the process that runs. -/
def Settled (w : Workspace) : Event → Prop
  | .clear _ => wasLeftRunning n w.file → w.running
  | _        => True

instance (w : Workspace) : ∀ event, Decidable (Settled n w event)
  | .clear _ => inferInstanceAs (Decidable (_ → _))
  | .start _ _ | .die | .gracefulStop _ => isTrue trivial

/-- No more crashes are on record than there were deaths, one less where a death is still to be
counted, and a latch has its deaths. -/
structure Workspace.Sound (w : Workspace) : Prop where
  crashes : (crashesOf (readFile n w.file)).length ≤ w.deaths
  uncounted : wasLeftRunning n w.file → !w.running →
    (readFile n w.file).get? "degraded" = none → (crashesOf (readFile n w.file)).length < w.deaths
  latched : ((readFile n w.file).get? "degraded").isSome → degradedThreshold ≤ w.deaths
  terminal : (readFile n w.file).get? "terminal" = none

end Guard

/-! ### What an operation leaves -/

section Effects

variable {n : Numerals} {file : Option Json} {now instant : Int} {w v : Workspace}

lemma readFile_perform {op : Operation} {next : Json}
    (hedit : op.edit n now (readFile n file) = some next) :
    readFile n (perform n op now file) = next := by
  rw [perform, hedit]
  exact readFile_of_valid (valid_edit (valid_readFile file) hedit)

lemma readFile_recordStart :
    readFile n (perform n .recordStart now file) = (readFile n file).set "live" (.bool true) :=
  readFile_perform rfl

lemma readFile_recordGracefulStop : readFile n (perform n .recordGracefulStop now file) =
      (readFile n file).set "live" (.bool false) :=
  readFile_perform rfl

lemma readFile_clear : readFile n (perform n .clear now file) =
      (((readFile n file).set "crashes" (.arr [])).erase "terminal").erase "degraded" :=
  readFile_perform rfl

lemma isRecord_readFile : (readFile n file).isRecord :=
  isRecord_of_valid (valid_readFile file)

lemma readFile_recordCrash (hterminal : (readFile n file).get? "terminal" = none)
    (hdegraded : (readFile n file).get? "degraded" = none) :
    readFile n (perform n (.recordCrash instant) now file) =
      withCrash n (readFile n file) instant now := by
  apply readFile_perform
  simp [Operation.edit, hterminal, hdegraded]

variable {record : Json}

lemma crashes_withCrash (h : record.isRecord) :
    (crashesOf (withCrash n record instant now)).length ≤ (crashesOf record).length + 1 := by
  have hlength : (crashesWith n record instant now).length ≤ (crashesOf record).length + 1 := by
    have hprune := List.length_filter_le (isRecent n now) (crashesOf record ++ [.int instant])
    rwa [List.length_append, List.length_singleton] at hprune
  rw [withCrash]
  split_ifs
  · simpa [crashesOf, Json.get?_set, h, Json.items] using hlength
  · simpa [crashesOf, Json.get?_set, h, Json.items] using hlength

lemma latched_withCrash (h : record.isRecord) (hdegraded : record.get? "degraded" = none)
    (hlatched : ((withCrash n record instant now).get? "degraded").isSome) :
    degradedThreshold ≤ (crashesOf (withCrash n record instant now)).length := by
  rw [withCrash] at hlatched ⊢
  split_ifs at hlatched ⊢ with hthreshold
  · simpa [crashesOf, Json.get?_set, h, Json.items] using hthreshold
  · simp [Json.get?_set, h, hdegraded] at hlatched

lemma withCrash_other (h : record.isRecord) {key : String}
    (hcrashes : key ≠ "crashes") (hdegraded : key ≠ "degraded") :
    (withCrash n record instant now).get? key = record.get? key := by
  rw [withCrash]
  split_ifs
  · simp [Json.get?_set, h, hcrashes, hdegraded]
  · simp [Json.get?_set, h, hcrashes]

/-! ### Steps -/

lemma sound_proceed (hcrashes : (crashesOf (readFile n file)).length ≤ w.deaths)
    (hlatched : ((readFile n file).get? "degraded").isSome → degradedThreshold ≤ w.deaths)
    (hterminal : (readFile n file).get? "terminal" = none) :
    Workspace.Sound n { w with file := perform n .recordStart now file, running := true } := by
  refine ⟨?_, fun _ hrunning => (nomatch hrunning), ?_, ?_⟩
  · simpa [readFile_recordStart, crashesOf, Json.get?_set isRecord_readFile] using hcrashes
  · simpa [readFile_recordStart, Json.get?_set isRecord_readFile] using hlatched
  · simpa [readFile_recordStart, Json.get?_set isRecord_readFile] using hterminal

lemma sound_crash (h : w.Sound n) (hrunning : !w.running) (hlive : wasLeftRunning n w.file)
    (hdegraded : (readFile n w.file).get? "degraded" = none) :
    let crashed := readFile n (perform n (.recordCrash instant) now w.file)
    (crashesOf crashed).length ≤ w.deaths ∧
      ((crashed.get? "degraded").isSome → degradedThreshold ≤ w.deaths) ∧
      crashed.get? "terminal" = none := by
  intro crashed
  have hrecord := @isRecord_readFile n w.file
  have hcrashed : crashed = withCrash n (readFile n w.file) instant now :=
    readFile_recordCrash h.terminal hdegraded
  rw [hcrashed]
  have hle := @crashes_withCrash n now instant _ hrecord
  have hlt := h.uncounted hlive hrunning hdegraded
  refine ⟨by omega, fun hlatched => ?_, ?_⟩
  · have hthreshold := latched_withCrash hrecord hdegraded hlatched
    omega
  · rw [withCrash_other hrecord (by decide) (by decide)]
    exact h.terminal

lemma latched_of_state_degraded {reason : String} {crashCount since : Option Json}
    (hterminal : record.get? "terminal" = none)
    (h : state n record now = .degraded reason crashCount since) :
    (record.get? "degraded").isSome := by
  rw [state, hterminal] at h
  cases hparked : record.get? "parked" with
  | some _ =>
    rw [hparked] at h
    cases h
  | none =>
    rw [hparked] at h
    cases hdegraded : record.get? "degraded" with
    | some _ => rfl
    | none =>
      rw [hdegraded] at h
      cases h

lemma degraded_of_state_ok (h : state n record now = .ok) : record.get? "degraded" = none := by
  rw [state] at h
  split at h
  · cases h
  · split at h
    · cases h
    · split at h
      · cases h
      · assumption

lemma sound_start (h : w.Sound n) (hstep : w.step n (.start instant now) = some v) : v.Sound n := by
  obtain ⟨hrunning, hstep⟩ := Option.ite_none_left_eq_some.mp hstep
  have hstopped : (!w.running) = true := by simpa using hrunning
  rw [guardWorkspaceRunnerStart] at hstep
  cases hstate : state n (readFile n w.file) now with
  | parked reason since =>
    rw [hstate] at hstep
    cases hstep
    exact h
  | degraded reason crashCount since =>
    rw [hstate] at hstep
    cases hstep
    exact h
  | ok =>
    have hdegraded := degraded_of_state_ok hstate
    rw [hstate] at hstep
    by_cases hlive : wasLeftRunning n w.file
    · obtain ⟨hcrashes, hlatched, hterminal⟩ :=
        @sound_crash n now instant w h hstopped hlive hdegraded
      simp only [hlive, if_true] at hstep
      cases hafter : state n (readFile n (perform n (.recordCrash instant) now w.file)) now with
      | degraded reason crashCount since =>
        rw [hafter] at hstep
        cases hstep
        have hlatch := latched_of_state_degraded hterminal hafter
        refine ⟨hcrashes, fun _ _ hnone => ?_, hlatched, hterminal⟩
        rw [Option.isSome_iff_ne_none] at hlatch
        exact absurd hnone hlatch
      | ok =>
        rw [hafter] at hstep
        cases hstep
        exact sound_proceed hcrashes hlatched hterminal
      | parked reason since =>
        rw [hafter] at hstep
        cases hstep
        exact sound_proceed hcrashes hlatched hterminal
    · simp only [hlive, Bool.false_eq_true, if_false] at hstep
      cases hstep
      exact sound_proceed h.crashes h.latched h.terminal

lemma sound_event {event : Event} (h : w.Sound n) (hok : Settled n w event)
    (hstep : w.step n event = some v) : v.Sound n := by
  cases event with
  | start instant now => exact sound_start h hstep
  | die =>
    obtain ⟨hrunning, hstep⟩ := Option.ite_none_right_eq_some.mp hstep
    cases hstep
    refine ⟨Nat.le_succ_of_le h.crashes, fun _ _ _ => Nat.lt_succ_of_le h.crashes, fun hlatched =>
      Nat.le_succ_of_le (h.latched hlatched), h.terminal⟩
  | gracefulStop now =>
    obtain ⟨hrunning, hstep⟩ := Option.ite_none_right_eq_some.mp hstep
    cases hstep
    refine ⟨?_, fun hlive => ?_, ?_, ?_⟩
    · simpa [readFile_recordGracefulStop, crashesOf, Json.get?_set isRecord_readFile]
        using h.crashes
    · simp [wasLeftRunning, isLive, readFile_recordGracefulStop, Json.get?_set isRecord_readFile]
        at hlive
    · simpa [readFile_recordGracefulStop, Json.get?_set isRecord_readFile] using h.latched
    · simpa [readFile_recordGracefulStop, Json.get?_set isRecord_readFile] using h.terminal
  | clear now =>
    cases hstep
    refine ⟨?_, fun hlive hrunning => ?_, fun hlatched => ?_, ?_⟩
    · simp [readFile_clear, crashesOf, Json.get?_set isRecord_readFile, Json.items]
    · have hbefore : wasLeftRunning n w.file := by
        simpa [wasLeftRunning, isLive, readFile_clear, Json.get?_set isRecord_readFile] using hlive
      have hrun : w.running = true := hok hbefore
      simp [hrun] at hrunning
    · simp [readFile_clear] at hlatched
    · simp [readFile_clear]

lemma sound_fresh : Workspace.fresh.Sound n :=
  ⟨Nat.le_refl 0, fun hlive => (nomatch hlive), fun h => (nomatch h), rfl⟩

end Effects

/-- While no clear finds the marker of a run that is over, no more crashes are on record than the
Workspace died unexpectedly since the last clear, and it is latched only after as many deaths as
the budget has. -/
theorem crashes_within_deaths {n : Numerals} {events : List Event} {w : Workspace}
    (hok : Permitted (Workspace.step n) (Settled n) .fresh events)
    (hrun : run (Workspace.step n) .fresh events = some w) :
    (crashesOf (readFile n w.file)).length ≤ w.deaths ∧ ∀ now reason crashCount since,
        state n (readFile n w.file) now = .degraded reason crashCount since →
          degradedThreshold ≤ w.deaths := by
  have hsound : w.Sound n :=
    invariant (fun _ _ _ hs hok hstep => sound_event hs hok hstep) sound_fresh hok hrun
  refine ⟨hsound.crashes, fun now reason crashCount since hstate => ?_⟩
  exact hsound.latched (latched_of_state_degraded hsound.terminal hstate)

/-- An operator restarts a Workspace that runs again after a death. -/
def clearedWhileRunning : List Event :=
  [.start 0 0, .die, .start 1 1, .clear 2, .die, .start 3 3]

theorem crashes_within_deaths_clearedWhileRunning :
    ∃ w, run (Workspace.step sampleNumerals) .fresh clearedWhileRunning = some w ∧
      (crashesOf (readFile sampleNumerals w.file)).length ≤ w.deaths ∧
      ∀ now reason crashCount since, state sampleNumerals (readFile sampleNumerals w.file) now =
          .degraded reason crashCount since → degradedThreshold ≤ w.deaths := by
  obtain ⟨w, hrun⟩ := Option.isSome_iff_exists.mp
    (show (run (Workspace.step sampleNumerals) .fresh clearedWhileRunning).isSome by decide)
  exact ⟨w, hrun, crashes_within_deaths (by decide) hrun⟩

/-- Three deaths latch the Workspace. The operator clears the latch and starts it, and it dies
twice. -/
def clearedAfterLatch : List Event :=
  [.start 0 0, .die, .start 1 1, .die, .start 2 2, .die, .start 3 3, .clear 4, .start 5 5, .die,
    .start 6 6, .die, .start 7 7]

theorem latched_below_budget :
    ¬ ∀ (n : Numerals) events w, run (Workspace.step n) .fresh events = some w →
      (crashesOf (readFile n w.file)).length ≤ w.deaths ∧ ∀ now reason crashCount since,
          state n (readFile n w.file) now = .degraded reason crashCount since →
            degradedThreshold ≤ w.deaths := by
  intro h
  obtain ⟨w, hrun, hmore⟩ := (Option.any_eq_true _ _).mp
    (show (run (Workspace.step sampleNumerals) .fresh clearedAfterLatch).any (fun w =>
      w.deaths < (crashesOf (readFile sampleNumerals w.file)).length) by decide)
  have hle := (h sampleNumerals clearedAfterLatch w hrun).1
  exact absurd (of_decide_eq_true hmore) (Nat.not_lt.mpr hle)

end Coforge.Health
