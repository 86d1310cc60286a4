import Mathlib

/-!
# The session reference of an Agent

An Agent row stores the fence of its launch, and refers to the session row that holds the native
session. A reader sees both as one reference, where the session is one of the fence's provider and
Computer. `replace` is the compare-and-set of the two. What else it checks, the write scope of the
Agent's control state, is the outcome `granted`.
-/

namespace Coforge.AgentSessions

open Option

inductive RuntimeProvider where
  | coforge
  | codex
  | claudeCode
  | pi
  | kiro
  | cursor
  | opencode
  | grok
deriving DecidableEq

inductive SessionMode where
  | create
  | resume
deriving DecidableEq

inductive SessionState where
  | empty
  | resumable
  | unknown
deriving DecidableEq

/-- Whether an optional string is set, and not empty. -/
def truthy (s : Option String) : Bool := s.any (· ≠ "")

/-- The part of a reference that `runtimeSession` stores. -/
structure Fence where
  provider : RuntimeProvider
  computerId : String
  sessionMode : Option SessionMode
  startRequestId : String
  daemonInstanceId : String
  launchId : Option String
deriving DecidableEq

structure RuntimeSessionReference extends Fence where
  sessionId : Option String
  state : Option SessionState
deriving DecidableEq

/-- A session row. -/
structure AgentSession where
  provider : RuntimeProvider
  computerId : String
  nativeSessionId : Option String
  state : SessionState
deriving DecidableEq

/-- An Agent row, with its current session. -/
structure Agent where
  workspaceId : String
  computerId : Option String
  provider : RuntimeProvider
  runtimeSession : Option Fence
  currentSession : Option AgentSession
deriving DecidableEq

/-- Whether a session row is one of a fence's provider and Computer. -/
def AgentSession.scoped (session : AgentSession) (fence : Fence) : Bool :=
  fence.provider = session.provider ∧ fence.computerId = session.computerId

/-- The `reference` of a `read`. -/
def Agent.reference (a : Agent) : Option RuntimeSessionReference :=
  a.runtimeSession.map fun stored =>
    let scopedSession := a.currentSession.filter (·.scoped stored)
    { stored with
      sessionId := (scopedSession.bind AgentSession.nativeSessionId).filter (· ≠ "")
      state := scopedSession.map AgentSession.state }

/-- The session row after a write of a reference: a new one where the current one is of another
provider or Computer, or holds another session. -/
def writeSession (current : Option AgentSession) (next : RuntimeSessionReference) :
    Option AgentSession :=
  let native := current.bind AgentSession.nativeSessionId
  if ¬(current.any (·.scoped next.toFence)) ∨
      (truthy next.sessionId ∧ truthy native ∧ native ≠ next.sessionId) ∨
      (next.sessionMode = some .create ∧ ¬truthy next.sessionId ∧ truthy native) then
    some
      { provider := next.provider
        computerId := next.computerId
        nativeSessionId := next.sessionId
        state := next.state.getD .unknown }
  else if truthy next.sessionId then
    current.map fun session =>
      { session with nativeSessionId := next.sessionId, state := next.state.getD session.state }
  else current

/-- Whether the rows are as `previous` was read from them. -/
def Agent.matches (a : Agent) (previous : Option RuntimeSessionReference) : Bool :=
  a.runtimeSession = previous.map RuntimeSessionReference.toFence ∧
    previous.all fun previous => a.currentSession.any fun session =>
      session.nativeSessionId = previous.sessionId ∧ previous.state.all (· = session.state)

/-- `replace`, where the write scope is of a Workspace. -/
def Agent.replace (a : Agent) (workspaceId : String) (previous : Option RuntimeSessionReference)
    (next : RuntimeSessionReference) (granted : Bool) : Option Agent :=
  if granted ∧ a.matches previous ∧ a.workspaceId = workspaceId ∧
      a.computerId = some next.computerId ∧ a.provider = next.provider then
    some
      { a with
        runtimeSession := some next.toFence
        currentSession := writeSession a.currentSession next }
  else none

/-! ### Reading what was written -/

/-- The session row is one of the fence's provider and Computer. -/
def Agent.Scoped (a : Agent) : Prop :=
  ∀ stored ∈ a.runtimeSession, a.currentSession.any (·.scoped stored)

section Replace

variable {a a' : Agent} {workspaceId : String} {previous : Option RuntimeSessionReference}
  {next r : RuntimeSessionReference} {granted : Bool}

lemma replace_eq_some (h : a.replace workspaceId previous next granted = some a') :
    a.matches previous ∧ a' = { a with
        runtimeSession := some next.toFence
        currentSession := writeSession a.currentSession next } := by
  rw [Agent.replace] at h
  split_ifs at h with hif
  exact ⟨hif.2.1, (some.inj h).symm⟩

lemma writeSession_scoped {current : Option AgentSession} :
    (writeSession current next).any (·.scoped next.toFence) := by
  simp only [writeSession]
  split_ifs with hnew hset
  · simp [AgentSession.scoped]
  · have hscoped : current.any (·.scoped next.toFence) := not_not.mp (not_or.mp hnew).1
    cases current with
    | none => exact absurd hscoped (by simp)
    | some session => exact hscoped
  · exact not_not.mp (not_or.mp hnew).1

lemma Agent.Scoped.replace (h : a.replace workspaceId previous next granted = some a') :
    a'.Scoped := by
  obtain ⟨-, rfl⟩ := replace_eq_some h
  intro stored hstored
  cases hstored
  exact writeSession_scoped

lemma reference_of_matches (hscoped : a.Scoped) (h : a.matches (some r)) :
    ∃ current, a.reference = some current ∧ current.toFence = r.toFence ∧
      current.sessionId = r.sessionId.filter (· ≠ "") := by
  simp only [Agent.matches, map_some, all_some, decide_eq_true_eq] at h
  obtain ⟨hfence, hsession⟩ := h
  have hin := hscoped r.toFence (mem_def.mpr hfence)
  cases hcurrent : a.currentSession with
  | none =>
    rw [hcurrent] at hin
    exact absurd hin (by simp)
  | some session =>
    rw [hcurrent, any_some] at hin hsession
    simp only [decide_eq_true_eq] at hsession
    refine ⟨{ r with
      sessionId := r.sessionId.filter (· ≠ ""), state := some session.state }, ?_, rfl, rfl⟩
    have hfilter : (some session).filter (·.scoped r.toFence) = some session := by
      rw [filter_some, if_pos hin]
    simp only [Agent.reference, hfence, hcurrent, hfilter, map_some, bind_some, hsession.1]

lemma native_of_matches (h : a.matches (some r)) :
    a.currentSession.bind AgentSession.nativeSessionId = r.sessionId := by
  simp only [Agent.matches, all_some, decide_eq_true_eq] at h
  cases hcurrent : a.currentSession with
  | none =>
    rw [hcurrent] at h
    exact absurd h.2 (by simp)
  | some session =>
    rw [hcurrent, any_some] at h
    exact (of_decide_eq_true h.2).1

lemma filter_sessionId (h : a.reference = some r) : r.sessionId.filter (· ≠ "") = r.sessionId := by
  obtain ⟨stored, -, rfl⟩ := map_eq_some_iff.mp h
  simp only [filter_filter, Bool.and_self]

lemma filter_of_truthy {s : Option String} (h : truthy s) : s.filter (· ≠ "") = s := by
  cases s with
  | none => rfl
  | some s =>
    rw [filter_some, if_pos]
    simpa [truthy] using h

lemma filter_of_not_truthy {s : Option String} (h : ¬truthy s) : s.filter (· ≠ "") = none := by
  cases s with
  | none => rfl
  | some s =>
    rw [filter_some, if_neg]
    simpa [truthy] using h

lemma native_writeSession {current : Option AgentSession} :
    ((writeSession current next).bind AgentSession.nativeSessionId).filter (· ≠ "") =
      if truthy next.sessionId then next.sessionId
      else if current.any (·.scoped next.toFence) ∧ next.sessionMode ≠ some .create then
        (current.bind AgentSession.nativeSessionId).filter (· ≠ "") else none := by
  by_cases hset : truthy next.sessionId
  · rw [if_pos hset]
    simp only [writeSession, hset, if_true]
    split_ifs with hnew
    · exact filter_of_truthy hset
    · cases current with
      | none => exact absurd (not_or.mp hnew).1 (by simp)
      | some session => exact filter_of_truthy hset
  · rw [if_neg hset]
    simp only [writeSession, hset]
    by_cases hscoped : current.any (·.scoped next.toFence)
    · by_cases hcreate : next.sessionMode = some .create
      · by_cases hnative : truthy (current.bind AgentSession.nativeSessionId)
        · simpa [hscoped, hcreate, hnative] using filter_of_not_truthy hset
        · simpa [hscoped, hcreate, hnative] using filter_of_not_truthy hnative
      · simp [hscoped, hcreate]
    · simpa [hscoped] using filter_of_not_truthy hset

lemma reference_replace (h : a.replace workspaceId previous next granted = some a') :
    ∃ current, a'.reference = some current ∧ current.toFence = next.toFence ∧ current.sessionId =
        if truthy next.sessionId then next.sessionId
        else if a.currentSession.any (·.scoped next.toFence) ∧ next.sessionMode ≠ some .create then
          (a.currentSession.bind AgentSession.nativeSessionId).filter (· ≠ "") else none := by
  obtain ⟨-, rfl⟩ := replace_eq_some h
  have hfilter : (writeSession a.currentSession next).filter (·.scoped next.toFence) =
      writeSession a.currentSession next := by
    cases hwritten : writeSession a.currentSession next with
    | none => rfl
    | some session =>
      have hscoped : (writeSession a.currentSession next).any (·.scoped next.toFence) :=
        writeSession_scoped
      rw [hwritten] at hscoped
      rw [any_some] at hscoped
      rw [filter_some, if_pos hscoped]
  refine ⟨_, rfl, rfl, ?_⟩
  simp only [hfilter]
  exact native_writeSession

end Replace

end Coforge.AgentSessions
