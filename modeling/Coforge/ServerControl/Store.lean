import Coforge.ServerControl.Record

/-!
# The row of an Agent

What the database keeps of an Agent for its control operations, and the reads and writes of the
two repositories over it. A write is one transaction. It compares what its caller read before with
the row, and changes nothing unless the row is still so.
-/

namespace Coforge.ServerControl

open Control (RuntimeProvider SessionIdentity SessionMode SessionState AgentControlScope)

/-- A row of the sessions. The native id is the provider's. -/
structure AgentSession where
  id : Nat
  provider : RuntimeProvider
  computerId : String
  nativeSessionId : Option String
  state : SessionState
deriving DecidableEq

/-- The row of the Agent. `assigned` says that its owner is a member of the Workspace and its
Computer belongs to it. -/
structure Agent where
  id : String
  ownerId : String
  workspaceId : String
  computerId : Option String
  runtimeConfig : AgentRuntimeConfig
  runtimeSession : Option RuntimeSession
  controlState : Option ControlState
  currentSession : Option AgentSession
  stoppedAt : Option Nat
  deletedAt : Option Nat
  assigned : Bool
deriving DecidableEq

namespace Agent

/-- The native id of the current session. -/
def nativeSessionId (row : Agent) : Option String := row.currentSession.bind (·.nativeSessionId)

/-- The current session belongs to a provider on a Computer. -/
def sessionScoped (row : Agent) (provider : RuntimeProvider) (computerId : String) : Prop :=
  ∃ session ∈ row.currentSession, session.provider = provider ∧ session.computerId = computerId

instance (row : Agent) (provider : RuntimeProvider) (computerId : String) :
    Decidable (row.sessionScoped provider computerId) :=
  inferInstanceAs (Decidable (∃ _ ∈ row.currentSession, _))

/-! ### Control operations -/

/-- The identity of the current session, if the session is that of the operation. -/
def identity (row : Agent) (computerId : String) : Option SessionIdentity :=
  let provider := (row.controlState.map (·.provider)).getD row.runtimeConfig.runtime
  let computerId := (row.controlState.map (·.computerId)).getD computerId
  match row.currentSession, Control.truthy row.nativeSessionId with
  | some session, some sessionId =>
    if row.sessionScoped provider computerId then some ⟨sessionId, session.state⟩ else none
  | _, _ => none

/-- `PrismaAgentControlStore.get`. -/
def get (row : Agent) : Option AgentControlAgent :=
  match row.computerId with
  | none            => none
  | some computerId =>
    if ¬ row.assigned then none
    else some {
      id := row.id
      workspaceId := row.workspaceId
      computerId := computerId
      ownerId := row.ownerId
      runtimeConfig := row.runtimeConfig
      storedRuntimeSession := row.runtimeSession
      state := row.controlState.map fun control => ⟨control, row.identity computerId⟩
      currentSessionId := row.currentSession.map (·.id)
      identity := row.identity computerId
      stoppedAt := row.stoppedAt
      deletedAt := row.deletedAt }

/-- The largest epoch that can be stored. -/
def maxEpoch : Nat := 2 ^ 31 - 1

/-- `stateSchema`. -/
def storable (state : AgentControlState) : Prop :=
  state.protocolMajor = 1 ∧ state.requestId ≠ "" ∧ state.workspaceId ≠ "" ∧
    state.computerId ≠ "" ∧ state.agentId ≠ "" ∧ 0 < state.epoch ∧ state.epoch ≤ maxEpoch

/-- The row is still what the caller read. -/
def unchanged (row : Agent) (before : AgentControlAgent) : Prop :=
  let provider := (before.state.map (·.provider)).getD before.runtimeConfig.runtime
  let computerId := (before.state.map (·.computerId)).getD before.computerId
  let native := if row.sessionScoped provider computerId then row.nativeSessionId else none
  (row.currentSession.map (·.id) = before.currentSessionId ∧
    native = before.identity.map (·.sessionId) ∧
    (∀ i ∈ before.identity, row.currentSession.map (·.state) = some i.state)) ∧
  (row.id = before.id ∧ row.ownerId = before.ownerId ∧ row.workspaceId = before.workspaceId ∧
    row.computerId = some before.computerId ∧ row.assigned ∧
    row.runtimeConfig = before.runtimeConfig ∧ row.runtimeSession = before.storedRuntimeSession ∧
    row.controlState = before.state.map (·.toControlState))

instance (state : AgentControlState) : Decidable (storable state) :=
  inferInstanceAs (Decidable (_ ∧ _))

instance (row : Agent) (before : AgentControlAgent) : Decidable (row.unchanged before) :=
  inferInstanceAs (Decidable ((_ ∧ _ ∧ _) ∧ (_ ∧ _)))

/-- The session that a write leaves current before its identity is stored: the one there was, a
new one, or none. -/
def sessionFor (row : Agent) (fresh : Nat) (before : AgentControlAgent) (state : AgentControlState)
    (clearSession : Bool) : Option AgentSession :=
  let incompatible := ∃ old ∈ before.state,
    old.provider ≠ state.provider ∨ old.computerId ≠ state.computerId
  let session := if clearSession ∨ incompatible then none else row.currentSession
  match session with
  | some session => some session
  | none =>
    if state.phase = .starting ∨ state.identity.isSome then
      some ⟨fresh, state.provider, before.computerId, none, .unknown⟩
    else none

/-- The identity is stored with the session. A session with another native id gives way only to
the first identity that a launch binds. -/
def bindIdentity (session : AgentSession) (fresh : Nat) (before : AgentControlAgent)
    (state : AgentControlState) (identity : SessionIdentity) : Option AgentSession :=
  if session.computerId = state.computerId ∧ session.provider = state.provider ∧
      (session.nativeSessionId = none ∨ session.nativeSessionId = some identity.sessionId) then
    some { session with nativeSessionId := some identity.sessionId, state := identity.state }
  else if state.launchIdentityBound ∧ ∀ old ∈ before.state, old.launchIdentityBound = false then
    some ⟨fresh, state.provider, state.computerId, some identity.sessionId, identity.state⟩
  else none

/-- `PrismaAgentControlStore.replace`: an error, no change, or the row after the write. New
sessions take ids from `fresh` on. -/
def replace (row : Agent) (fresh : Nat) (before : AgentControlAgent) (state : AgentControlState)
    (clearSession : Bool) (stoppedAt : Option (Option Nat)) :
    Except ControlFailure (Option Agent) :=
  if ¬ storable state then .error .unavailable
  else if ¬ row.unchanged before then .ok none
  else
    let changedRequest := ∀ old ∈ before.state, old.requestId ≠ state.requestId
    let written := { row with
      controlState := some state.toControlState
      runtimeSession := if clearSession ∨ changedRequest then none else row.runtimeSession
      stoppedAt := stoppedAt.getD row.stoppedAt }
    match row.sessionFor fresh before state clearSession, state.identity with
    | some session, some identity =>
      match bindIdentity session (fresh + 1) before state identity with
      | some session => .ok (some { written with currentSession := some session })
      | none         => .error .unavailable
    | session, _ => .ok (some { written with currentSession := session })

end Agent

/-! ### Launch fences -/

/-- The launch fence with the native session it goes with. -/
structure RuntimeSessionReference extends RuntimeSession where
  sessionId : Option String
  state : Option SessionState
deriving DecidableEq

/-- The operation a fence is written for. -/
structure AgentSessionWriteScope where
  workspaceId : String
  requestId : String
  controlEpoch : Option Nat
  launchId : Option String
deriving DecidableEq

/-- What the session operations read of an Agent. -/
structure SessionAgent where
  workspaceId : String
  computerId : Option String
  provider : RuntimeProvider
  reference : Option RuntimeSessionReference
deriving DecidableEq

namespace Agent

/-- `PrismaAgentSessionRepository.read`. -/
def readSession (row : Agent) : SessionAgent where
  workspaceId := row.workspaceId
  computerId := row.computerId
  provider := row.runtimeConfig.runtime
  reference := row.runtimeSession.map fun stored =>
    let session := row.currentSession.filter fun session =>
      stored.provider = session.provider ∧ stored.computerId = session.computerId
    { stored with
      sessionId := Control.truthy (session.bind (·.nativeSessionId))
      state := session.map (·.state) }

/-- The control operation that the fence belongs to is the current one, and it launches. -/
def admits (row : Agent) (scope : AgentSessionWriteScope) : Prop :=
  match scope.controlEpoch, row.controlState with
  | none, control       => control = none
  | some _, none        => False
  | some epoch, some control =>
    control.requestId = scope.requestId ∧ control.epoch = epoch ∧ control.phase.launches ∧
      ∀ launchId ∈ scope.launchId, control.launchId = some launchId

instance (row : Agent) (scope : AgentSessionWriteScope) : Decidable (row.admits scope) :=
  match hs : scope.controlEpoch, hc : row.controlState with
  | none, none       => isTrue (by simp [admits, hs, hc])
  | none, some _     => isFalse (by simp [admits, hs, hc])
  | some _, none     => isFalse (by simp [admits, hs, hc])
  | some epoch, some control =>
    decidable_of_iff (control.requestId = scope.requestId ∧ control.epoch = epoch ∧
      control.phase.launches ∧ ∀ launchId ∈ scope.launchId, control.launchId = some launchId)
      (by simp [admits, hs, hc])

/-- The fence is still the one the caller read. -/
def fenceUnchanged (row : Agent) (previous : Option RuntimeSessionReference)
    (next : RuntimeSessionReference) (scope : AgentSessionWriteScope) : Prop :=
  (∀ p ∈ previous, ∃ session ∈ row.currentSession, session.nativeSessionId = p.sessionId ∧
    ∀ state ∈ p.state, session.state = state) ∧
  row.workspaceId = scope.workspaceId ∧ row.computerId = some next.computerId ∧
    row.runtimeConfig.runtime = next.provider ∧
    row.runtimeSession = previous.map (·.toRuntimeSession)

instance (row : Agent) (previous : Option RuntimeSessionReference)
    (next : RuntimeSessionReference) (scope : AgentSessionWriteScope) :
    Decidable (row.fenceUnchanged previous next scope) :=
  inferInstanceAs (Decidable ((∀ _ ∈ previous, ∃ _ ∈ row.currentSession, _) ∧ _))

/-- The session that a fence makes current. -/
def sessionOf (row : Agent) (fresh : Nat) (next : RuntimeSessionReference) :
    Option AgentSession :=
  let created : AgentSession :=
    ⟨fresh, next.provider, next.computerId, next.sessionId, next.state.getD .unknown⟩
  match row.currentSession with
  | none => some created
  | some session =>
    if ¬ (session.provider = next.provider ∧ session.computerId = next.computerId) ∨
        ((Control.truthy next.sessionId).isSome ∧
          (Control.truthy session.nativeSessionId).isSome ∧
          session.nativeSessionId ≠ next.sessionId) ∨
        (next.sessionMode = some .create ∧ Control.truthy next.sessionId = none ∧
          (Control.truthy session.nativeSessionId).isSome) then some created
    else
      match Control.truthy next.sessionId with
      | some sessionId =>
        some { session with
          nativeSessionId := some sessionId, state := next.state.getD session.state }
      | none => some session

/-- `PrismaAgentSessionRepository.replace`. -/
def replaceSession (row : Agent) (fresh : Nat) (previous : Option RuntimeSessionReference)
    (next : RuntimeSessionReference) (scope : AgentSessionWriteScope) : Option Agent :=
  if row.admits scope ∧ row.fenceUnchanged previous next scope then
    some { row with
      runtimeSession := some next.toRuntimeSession
      currentSession := row.sessionOf fresh next }
  else none

end Agent

end Coforge.ServerControl
