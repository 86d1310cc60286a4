import Coforge.Display.Effects
import Coforge.Lib.Run

/-!
# Readings of the context window

The frames of one daemon instance for one Agent, over its launches. A reading is taken if its number
exceeds that of the reading before it, whichever launch that one was of, while each launch numbers
its frames from the start; and it is taken whether its launch was retired or not. A reading of
another launch can therefore stand in the way of those of the launch that is displayed. Where none
does, they are taken, and what the display shows is never a reading of a launch that was retired.
-/

namespace Coforge.Display

open Transition

/-- The display, the launches that were retired so far, and the readings that were accepted, by
launch and number. -/
structure Watch where
  db : Store := .empty
  retired : List String := []
  accepted : List (String × Nat) := []

/-- A frame of the daemon instance for the Agent, less what all of them share. -/
inductive Frame where
  | status (status : ProcessStatus) (clientSeq observedAtMs : Nat)
  | activity (frame : AgentActivity) (fencedLaunchId : String)
  | usage (launchId : String) (clientSeq observedAtMs usedTokens windowTokens : Nat)
  deriving DecidableEq, Repr

section Frames

variable (time : Nat → Nat) (scope : Scope) (instanceId : String)

def statusFrame (status : ProcessStatus) (clientSeq observedAtMs : Nat) : AgentStatus where
  scope := scope
  status := status
  daemonInstanceId := instanceId
  clientSeq := clientSeq
  observedAtMs := observedAtMs

def usageFrame (launchId : String) (clientSeq observedAtMs usedTokens windowTokens : Nat) :
    AgentContextUsage where
  scope := scope
  launchId := launchId
  daemonInstanceId := instanceId
  clientSeq := clientSeq
  observedAtMs := observedAtMs
  usedTokens := usedTokens
  windowTokens := windowTokens

/-- The state a script finds after its projection. -/
def Watch.state (w : Watch) (now : Nat) : DisplayState := (w.db.state scope).projected now

def observe (w : Watch) : Frame × Nat → Option Watch
  | (.status status clientSeq observedAtMs, now) =>
    some { w with
      db := (observeStatus time (statusFrame scope instanceId status clientSeq observedAtMs) now
        w.db).1 }
  | (.activity frame fencedLaunchId, now) =>
    let frame := { frame with scope := scope }
    let (db, shown) := observeActivity time frame ⟨instanceId, fencedLaunchId⟩ now w.db
    some { w with
      db := db
      retired :=
        if shown.isSome then ((w.state scope now).retires frame).toList ++ w.retired
        else w.retired }
  | (.usage launchId clientSeq observedAtMs usedTokens windowTokens, now) =>
    let frame := usageFrame scope instanceId launchId clientSeq observedAtMs usedTokens windowTokens
    let (db, shown) := putContextUsage time frame now w.db
    some { w with
      db := db
      accepted := if shown.isSome then (launchId, clientSeq) :: w.accepted else w.accepted }

/-- The launch that is displayed: that of the activity. -/
def Watch.displayed (w : Watch) : Option String := (w.db.face scope).activity.map (·.launchId)

/-- The number exceeds those that were accepted from the launch. -/
def Watch.Exceeds (w : Watch) (launchId : String) (clientSeq : Nat) : Prop :=
  ∀ n, (launchId, n) ∈ w.accepted → n < clientSeq

/-- What is required of a frame: a reading of the displayed launch whose number exceeds the accepted
ones is accepted, and no reading of a retired launch is shown afterwards. -/
structure Kept (w : Watch) (l : Frame × Nat) (w' : Watch) : Prop where
  accepted : ∀ launchId clientSeq observedAtMs usedTokens windowTokens,
    l.1 = .usage launchId clientSeq observedAtMs usedTokens windowTokens →
      w.displayed scope = some launchId → w.Exceeds launchId clientSeq →
        (putContextUsage time (usageFrame scope instanceId launchId clientSeq observedAtMs
          usedTokens windowTokens) l.2 w.db).2.isSome
  shown : ∀ process usage, (w'.db.face scope).running = some process →
    (w'.db.face scope).shownUsage process = some usage → usage.launchId ∉ w'.retired

/-- No reading of the displayed launch that exceeds the accepted ones finds a reading of another
launch whose number is not below its own; no reading of a launch that was retired is such that it is
accepted; and the numbers of readings have at most 14 digits. -/
def Fair (w : Watch) (l : Frame × Nat) : Prop :=
  ∀ launchId clientSeq observedAtMs usedTokens windowTokens,
    l.1 = .usage launchId clientSeq observedAtMs usedTokens windowTokens →
      Exact clientSeq ∧
      (w.displayed scope = some launchId → w.Exceeds launchId clientSeq →
        ∀ current, (w.db.face scope).contextUsage = some current →
          current.launchId ≠ launchId → current.clientSeq < clientSeq) ∧
      (launchId ∈ w.retired →
        ¬(w.state scope l.2).acceptsUsage
          (usageFrame scope instanceId launchId clientSeq observedAtMs usedTokens windowTokens))

/-- The stored reading is of a launch that was not retired, and was accepted from the instance. -/
structure Current (w : Watch) : Prop where
  unretired : ∀ current, (w.db.face scope).contextUsage = some current →
    current.launchId ∉ w.retired
  accepted : ∀ current, (w.db.face scope).contextUsage = some current →
    (current.launchId, current.clientSeq) ∈ w.accepted ∧ current.daemonInstanceId = instanceId

end Frames

/-! ### Frames -/

section Steps

variable {time : Nat → Nat} {scope : Scope} {instanceId : String} {w w' : Watch} {now : Nat}

lemma projected_contextUsage {state : DisplayState} :
    (state.projected now).contextUsage = state.unrevised.contextUsage ∧
      (state.projected now).activity = state.unrevised.activity := by
  rw [DisplayState.projected]
  cases hprojection : state.projection now with
  | none => exact ⟨rfl, rfl⟩
  | some next =>
    obtain ⟨process, -, h⟩ := Option.bind_eq_some_iff.mp hprojection
    split_ifs at h
    · cases h
      exact ⟨rfl, rfl⟩
    · obtain ⟨activity, -, h⟩ := Option.bind_eq_some_iff.mp h
      split_ifs at h
      cases h
      exact ⟨rfl, rfl⟩

lemma state_contextUsage (now : Nat) :
    (w.state scope now).contextUsage = (w.db.face scope).contextUsage :=
  projected_contextUsage.1

lemma current_status (h : Current scope instanceId w) {status : ProcessStatus}
    {clientSeq observedAtMs : Nat}
    (hstep : observe time scope instanceId w (.status status clientSeq observedAtMs, now) =
      some w') : Current scope instanceId w' := by
  cases hstep
  have hface : ∀ current,
      ((observeStatus time (statusFrame scope instanceId status clientSeq observedAtMs) now
        w.db).1.face scope).contextUsage = some current →
        (w.db.face scope).contextUsage = some current := by
    intro current hcurrent
    rw [← state_contextUsage now]
    by_cases haccepts : (w.state scope now).acceptsStatus
        (statusFrame scope instanceId status clientSeq observedAtMs)
    · have hleft := (observeStatus_accepted time haccepts).2.face
      rw [show ((observeStatus time (statusFrame scope instanceId status clientSeq observedAtMs) now
        w.db).1.face scope) = _ from hleft] at hcurrent
      simp only [DisplayState.withStatus] at hcurrent
      split_ifs at hcurrent
      exact hcurrent
    · have hleft := (observeStatus_refused time haccepts).2.face
      rw [show ((observeStatus time (statusFrame scope instanceId status clientSeq observedAtMs) now
        w.db).1.face scope) = _ from hleft] at hcurrent
      exact hcurrent
  exact ⟨fun current hcurrent => h.unretired current (hface current hcurrent),
    fun current hcurrent => h.accepted current (hface current hcurrent)⟩

lemma current_activity (h : Current scope instanceId w) {frame : AgentActivity}
    {fencedLaunchId : String}
    (hstep : observe time scope instanceId w (.activity frame fencedLaunchId, now) = some w') :
    Current scope instanceId w' := by
  simp only [observe] at hstep
  cases hkind : activityKindForObservation { frame with scope := scope } with
  | none =>
    simp only [observeActivity, hkind] at hstep
    cases hstep
    exact ⟨h.unretired, h.accepted⟩
  | some kind =>
    by_cases haccepts : (w.state scope now).acceptsActivity { frame with scope := scope }
        ⟨instanceId, fencedLaunchId⟩ now
    · obtain ⟨hsome, hleaves⟩ := observeActivity_accepted time hkind haccepts
      rcases heq : observeActivity time { frame with scope := scope }
        ⟨instanceId, fencedLaunchId⟩ now w.db with ⟨db, shown⟩
      rw [heq] at hsome hleaves hstep
      simp only [hsome, if_true] at hstep
      cases hstep
      have hface : ∀ current, (db.face scope).contextUsage = some current →
          (w.db.face scope).contextUsage = some current ∧
            (w.state scope now).retires { frame with scope := scope } ≠ some current.launchId := by
        intro current hcurrent
        rw [show db.face scope = _ from hleaves.face] at hcurrent
        obtain ⟨hcurrent, hkept⟩ := Option.filter_eq_some_iff.mp hcurrent
        rw [← state_contextUsage now]
        exact ⟨hcurrent, of_decide_eq_true hkept⟩
      refine ⟨fun current hcurrent => ?_, fun current hcurrent => ?_⟩
      · obtain ⟨hbefore, hkept⟩ := hface current hcurrent
        intro hmem
        rcases List.mem_append.mp hmem with hmem | hmem
        · exact hkept (Option.mem_toList.mp hmem)
        · exact h.unretired current hbefore hmem
      · exact h.accepted current (hface current hcurrent).1
    · obtain ⟨hnone, hleaves⟩ := observeActivity_refused time hkind haccepts
      rcases heq : observeActivity time { frame with scope := scope }
        ⟨instanceId, fencedLaunchId⟩ now w.db with ⟨db, shown⟩
      rw [heq] at hnone hleaves hstep
      simp only at hnone
      subst hnone
      cases hstep
      have hface : (db.face scope).contextUsage = (w.db.face scope).contextUsage := by
        rw [show db.face scope = _ from hleaves.face, ← state_contextUsage now]
        rfl
      refine ⟨fun current hcurrent => ?_, fun current hcurrent => ?_⟩
      · exact h.unretired current (hface ▸ hcurrent)
      · exact h.accepted current (hface ▸ hcurrent)

lemma current_usage (h : Current scope instanceId w)
    {launchId : String} {clientSeq observedAtMs usedTokens windowTokens : Nat}
    (hfair : Fair scope instanceId w
      (.usage launchId clientSeq observedAtMs usedTokens windowTokens, now))
    (hstep : observe time scope instanceId w
      (.usage launchId clientSeq observedAtMs usedTokens windowTokens, now) = some w') :
    Current scope instanceId w' := by
  obtain ⟨hexact, -, hunretired⟩ := hfair _ _ _ _ _ rfl
  simp only [observe] at hstep
  by_cases haccepts : (w.state scope now).acceptsUsage
      (usageFrame scope instanceId launchId clientSeq observedAtMs usedTokens windowTokens)
  · obtain ⟨hsome, hleaves⟩ := putContextUsage_accepted time haccepts
    rcases heq : putContextUsage time (usageFrame scope instanceId launchId clientSeq observedAtMs
      usedTokens windowTokens) now w.db with ⟨db, shown⟩
    rw [heq] at hsome hleaves hstep
    simp only [hsome, if_true] at hstep
    cases hstep
    have hface : (db.face scope).contextUsage = some (usageFrame scope instanceId launchId clientSeq
        observedAtMs usedTokens windowTokens).usage := by
      rw [show db.face scope = _ from hleaves.face]
    refine ⟨fun current hcurrent => ?_, fun current hcurrent => ?_⟩
    · cases hface.symm.trans hcurrent
      exact fun hretired => hunretired hretired haccepts
    · cases hface.symm.trans hcurrent
      refine ⟨?_, rfl⟩
      have hnumber : cjsonNumber clientSeq = clientSeq := cjsonNumber_of_exact hexact
      simp only [AgentContextUsage.usage, usageFrame, hnumber]
      exact List.mem_cons_self
  · obtain ⟨hnone, hleaves⟩ := putContextUsage_refused time haccepts
    rcases heq : putContextUsage time (usageFrame scope instanceId launchId clientSeq observedAtMs
      usedTokens windowTokens) now w.db with ⟨db, shown⟩
    rw [heq] at hnone hleaves hstep
    simp only at hnone
    subst hnone
    cases hstep
    have hface : (db.face scope).contextUsage = (w.db.face scope).contextUsage := by
      rw [show db.face scope = _ from hleaves.face, ← state_contextUsage now]
      rfl
    refine ⟨fun current hcurrent => ?_, fun current hcurrent => ?_⟩
    · exact h.unretired current (hface ▸ hcurrent)
    · exact h.accepted current (hface ▸ hcurrent)

lemma current_step {l : Frame × Nat} (h : Current scope instanceId w)
    (hfair : Fair scope instanceId w l) (hstep : observe time scope instanceId w l = some w') :
    Current scope instanceId w' := by
  obtain ⟨frame, now⟩ := l
  cases frame with
  | status status clientSeq observedAtMs => exact current_status h hstep
  | activity frame fencedLaunchId => exact current_activity h hstep
  | usage launchId clientSeq observedAtMs usedTokens windowTokens =>
    exact current_usage h hfair hstep

/-- A reading that is not accepted meets one of another launch, or does not exceed its own. -/
lemma accepted_of_current (h : Current scope instanceId w)
    {launchId : String} {clientSeq observedAtMs usedTokens windowTokens : Nat}
    (hfair : Fair scope instanceId w
      (.usage launchId clientSeq observedAtMs usedTokens windowTokens, now))
    (hdisplayed : w.displayed scope = some launchId) (hexceeds : w.Exceeds launchId clientSeq) :
    (w.state scope now).acceptsUsage
      (usageFrame scope instanceId launchId clientSeq observedAtMs usedTokens windowTokens) := by
  obtain ⟨-, hother, -⟩ := hfair _ _ _ _ _ rfl
  rw [DisplayState.acceptsUsage, state_contextUsage]
  cases hcurrent : (w.db.face scope).contextUsage with
  | none => rfl
  | some current =>
    obtain ⟨hmem, hinstance⟩ := h.accepted current hcurrent
    have hsame : current.daemonInstanceId = (usageFrame scope instanceId launchId clientSeq
        observedAtMs usedTokens windowTokens).daemonInstanceId := hinstance
    rw [Option.all_some, if_pos hsame]
    refine decide_eq_true ?_
    by_cases hlaunch : current.launchId = launchId
    · exact hexceeds _ (hlaunch ▸ hmem)
    · exact hother hdisplayed hexceeds current hcurrent hlaunch

lemma kept_of_current {l : Frame × Nat} (h : Current scope instanceId w)
    (hfair : Fair scope instanceId w l) (h' : Current scope instanceId w') :
    Kept time scope instanceId w l w' := by
  obtain ⟨frame, now⟩ := l
  refine ⟨?_, fun process usage _ hshown => ?_⟩
  · rintro launchId clientSeq observedAtMs usedTokens windowTokens rfl hdisplayed hexceeds
    have haccepts := accepted_of_current h hfair hdisplayed hexceeds
    exact (putContextUsage_accepted time haccepts).1
  · exact h'.unretired usage (Option.filter_eq_some_iff.mp hshown).1

end Steps

def agentScope : Scope := ⟨"workspace", "computer", "agent"⟩

/-- A frame that says the Agent is at work. -/
def working (launchId : String) (clientSeq observedAtMs : Nat) : AgentActivity where
  scope := agentScope
  detailKind := "tool_started"
  level := .info
  detail := ""
  observedAtMs := observedAtMs
  launchId := launchId
  clientSeq := clientSeq
  entries := "[]"
  isHeartbeat := false

end Coforge.Display
