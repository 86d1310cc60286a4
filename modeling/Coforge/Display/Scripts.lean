import Coforge.Display.Record

/-!
# The scripts of the display

Each script runs in Redis without interruption: it decodes the state of its scope, projects it to
the present, and writes what it makes of its arguments. The keys of a script for one scope are those
of that scope; the batch of snapshots is handed the keys of all of its scopes, in pairs.
-/

namespace Coforge.Display

def agentStatusLeaseMs : Nat := 90000
def workingLeaseMs : Nat := 90000

/-! ### Frames -/

structure AgentStatus where
  scope : Scope
  status : ProcessStatus
  daemonInstanceId : String
  clientSeq : Nat
  observedAtMs : Nat
  deriving DecidableEq, Repr

inductive Level where
  | info | warning | error
  deriving DecidableEq, Repr

structure AgentActivity where
  scope : Scope
  detailKind : String
  level : Level
  detail : String
  observedAtMs : Nat
  launchId : String
  clientSeq : Nat
  entries : String
  isHeartbeat : Bool
  deriving DecidableEq, Repr

/-- The launch and daemon instance the Agent currently runs under, as the caller looked it up. -/
structure Fence where
  daemonInstanceId : String
  launchId : String
  deriving DecidableEq, Repr

structure AgentContextUsage where
  scope : Scope
  launchId : String
  daemonInstanceId : String
  clientSeq : Nat
  observedAtMs : Nat
  usedTokens : Nat
  windowTokens : Nat
  deriving DecidableEq, Repr

def livenessOnlyDetailKinds : List String :=
  ["runtime_progress", "tool_end", "thinking_end", "compaction_finished", "review_finished"]

def workingKinds : List String :=
  ["model_request_started", "message_received", "model_response_started", "running_command",
    "tool_started", "freshness_hold", "runtime_progress", "runtime_reconnecting",
    "runtime_unavailable", "starting", "checking_messages", "compacting_context", "tool_end",
    "thinking_end", "compaction_finished", "review_finished", "subagent_activity",
    "reviewing_changes", "compaction_stale", "review_stale", "stalled_recovery", "system_message"]

def activityKindForObservation (observation : AgentActivity) : Option AgentActivityKind :=
  if observation.level = .error ∨
      observation.detailKind ∈ ["runtime_error", "runtime_crashed", "runtime_stalled"] then
    some .error
  else if observation.detailKind = "thinking_started" then some .thinking
  else if observation.detailKind ∈ ["idle", "runtime_interrupted"] then some .online
  else if observation.detailKind ∈ workingKinds then some .working
  else none

section Scripts

variable (time : Nat → Nat)

/-- What a script that refuses its frame leaves: the projection, if there was one. -/
def reject (scope : Scope) (projected : Bool) (db : Store) (state : DisplayState) : Store :=
  if projected then db.save scope state else db

/-! ### `OBSERVE_STATUS` -/

def DisplayState.acceptsStatus (state : DisplayState) (frame : AgentStatus) : Bool :=
  state.process.all fun current =>
    if current.daemonInstanceId = frame.daemonInstanceId then
      current.sequence < frame.clientSeq ||
        (frame.clientSeq = current.sequence && current.status = frame.status &&
          frame.observedAtMs = current.observedAt)
    else current.observedAt < frame.observedAtMs

/-- The process goes, or comes back, or another daemon instance takes over. -/
def DisplayState.resets (state : DisplayState) (frame : AgentStatus) : Bool :=
  (state.process.any fun current =>
    current.daemonInstanceId ≠ frame.daemonInstanceId || current.status = .inactive) ||
    frame.status = .inactive

/-- An activity that was taken before a process was known is kept for its instance. -/
def DisplayState.preservesProvisional (state : DisplayState) (frame : AgentStatus) : Bool :=
  state.process.isNone &&
    state.visible.any fun activity => activity.daemonInstanceId = frame.daemonInstanceId

def AgentStatus.process (frame : AgentStatus) (now : Nat) : Process where
  status := frame.status
  daemonInstanceId := frame.daemonInstanceId
  sequence := cjsonNumber frame.clientSeq
  observedAt := cjsonNumber frame.observedAtMs
  leaseUntil :=
    if frame.status = .active then some (cjsonNumber (now + agentStatusLeaseMs)) else none

def DisplayState.withStatus (state : DisplayState) (frame : AgentStatus) (now : Nat) :
    DisplayState :=
  { state with
    activityVisible :=
      if state.resets frame || (!state.preservesProvisional frame && state.process.isNone) then
        false
      else state.activityVisible
    contextUsage := if state.resets frame then none else state.contextUsage
    process := some (frame.process now)
    processExpired := false
    probe := none }

def observeStatus (frame : AgentStatus) (now : Nat) (db : Store) :
    Store × Option AgentDisplaySnapshot :=
  let scope := frame.scope
  let (db, state, projected) := project time scope scope now db (db.state scope)
  if state.acceptsStatus frame then
    let db := if frame.status = .inactive then db.zrem scope else db
    let (db, state) := revision time scope scope db (state.withStatus frame now)
    (db.save scope state, some (snapshot state scope now))
  else (reject scope projected db state, none)

/-! ### `OBSERVE_ACTIVITY` -/

def DisplayState.acceptsActivity (state : DisplayState) (frame : AgentActivity) (fence : Fence)
    (now : Nat) : Bool :=
  frame.launchId = fence.launchId &&
    (state.process.all fun process =>
      process.daemonInstanceId = fence.daemonInstanceId && process.status = .active &&
        !process.lapsed now) &&
    state.retiredLaunchId ≠ some frame.launchId &&
    state.activity.all fun previous =>
      if previous.launchId = frame.launchId then previous.sequence < frame.clientSeq
      else previous.observedAt < frame.observedAtMs

/-- The launch that a frame replaces. -/
def DisplayState.retires (state : DisplayState) (frame : AgentActivity) : Option String :=
  (state.activity.filter fun previous => previous.launchId ≠ frame.launchId).map (·.launchId)

def AgentActivity.activity (frame : AgentActivity) (fence : Fence) (kind : AgentActivityKind)
    (now : Nat) : Activity where
  launchId := frame.launchId
  daemonInstanceId := fence.daemonInstanceId
  sequence := cjsonNumber frame.clientSeq
  observedAt := cjsonNumber frame.observedAtMs
  receivedAt := cjsonNumber now
  kind := kind
  detailKind := frame.detailKind
  detail := frame.detail
  entries := frame.entries
  expiresAt := if kind.busy then some (cjsonNumber (now + workingLeaseMs)) else none

def DisplayState.withActivity (state : DisplayState) (frame : AgentActivity) (fence : Fence)
    (kind : AgentActivityKind) (now : Nat) : DisplayState :=
  { state with
    retiredLaunchId := (state.retires frame).or state.retiredLaunchId
    contextUsage := state.contextUsage.filter fun usage =>
      state.retires frame ≠ some usage.launchId
    activity := some (frame.activity fence kind now)
    activityVisible := true
    probe := none }

/-- What is shown changes. -/
def DisplayState.visiblyChanges (state : DisplayState) (frame : AgentActivity)
    (kind : AgentActivityKind) : Bool :=
  state.visible.all fun previous =>
    previous.kind ≠ kind || previous.detailKind ≠ frame.detailKind ||
      previous.detail ≠ frame.detail

def AgentActivity.isFiller (frame : AgentActivity) : Bool :=
  frame.isHeartbeat || frame.detailKind ∈ livenessOnlyDetailKinds

def observeActivity (frame : AgentActivity) (fence : Fence) (now : Nat) (db : Store) :
    Store × Option AgentDisplaySnapshot :=
  match activityKindForObservation frame with
  | none => (db, none)
  | some kind =>
    let scope := frame.scope
    let (db, state, projected) := project time scope scope now db (db.state scope)
    if state.acceptsActivity frame fence now then
      let db := if kind.busy then db.zadd scope (now + workingLeaseMs) else db.zrem scope
      let next := state.withActivity frame fence kind now
      let (db, next) :=
        if !frame.isFiller || state.visiblyChanges frame kind then revision time scope scope db next
        else (db, next)
      (db.save scope next, some (snapshot next scope now))
    else (reject scope projected db state, none)

/-! ### `PUT_CONTEXT_USAGE` -/

def DisplayState.acceptsUsage (state : DisplayState) (frame : AgentContextUsage) : Bool :=
  state.contextUsage.all fun current =>
    if current.daemonInstanceId = frame.daemonInstanceId then current.clientSeq < frame.clientSeq
    else current.observedAt < frame.observedAtMs

def AgentContextUsage.usage (frame : AgentContextUsage) : ContextUsage where
  launchId := frame.launchId
  daemonInstanceId := frame.daemonInstanceId
  clientSeq := cjsonNumber frame.clientSeq
  observedAt := cjsonNumber frame.observedAtMs
  usedTokens := cjsonNumber frame.usedTokens
  windowTokens := cjsonNumber frame.windowTokens

def DisplayState.usageChanges (state : DisplayState) (frame : AgentContextUsage) : Bool :=
  state.contextUsage.all fun current =>
    current.usedTokens ≠ frame.usedTokens || current.windowTokens ≠ frame.windowTokens

def putContextUsage (frame : AgentContextUsage) (now : Nat) (db : Store) :
    Store × Option AgentDisplaySnapshot :=
  let scope := frame.scope
  let (db, state, projected) := project time scope scope now db (db.state scope)
  if state.acceptsUsage frame then
    let next := { state with contextUsage := some frame.usage }
    let (db, next) :=
      if state.usageChanges frame then revision time scope scope db next else (db, next)
    (db.save scope next, some (snapshot next scope now))
  else (reject scope projected db state, none)

/-! ### `SNAPSHOT_MANY` -/

/-- `take_snapshot`: the counter is read under the second key of the script, and written under the
scope's own. -/
def takeSnapshot (readKey scope : Scope) (now : Nat) (db : Store) : Store × AgentDisplaySnapshot :=
  match db.states scope with
  | some state =>
    let (db, state, changed) := project time readKey scope now db state
    (if changed then db.save scope state else db, snapshot state scope now)
  | none =>
    let (db, state) := revision time readKey scope db {}
    (db.save scope state, snapshot state scope now)

/-- The loop of the script. -/
def takeSnapshots (readKey : Scope) (now : Nat) : List Scope → Store →
    Store × List AgentDisplaySnapshot
  | [], db => (db, [])
  | scope :: scopes, db =>
    let (db, shown) := takeSnapshot time readKey scope now db
    let (db, rest) := takeSnapshots readKey now scopes db
    (db, shown :: rest)

def snapshotMany (scopes : List Scope) (now : Nat) (db : Store) :
    Store × List AgentDisplaySnapshot :=
  match scopes with
  | [] => (db, [])
  | first :: _ => takeSnapshots time first now scopes db

/-! ### `SWEEP_STALE` -/

inductive ActivitySweepResult where
  | fresh | waiting | probe
  | expired (snapshot : AgentDisplaySnapshot)
  deriving DecidableEq, Repr

/-- The busy activity that is shown of a process that is alive. -/
def DisplayState.busyVisible (state : DisplayState) (now : Nat) : Option Activity :=
  (state.running.filter fun process => !process.lapsed now).bind fun _ =>
    state.visible.filter fun activity => activity.kind.busy

def sweepStale (scope : Scope) (probeId : String) (timeoutMs now : Nat) (db : Store) :
    Store × ActivitySweepResult :=
  let state := db.state scope
  match state.busyVisible now with
  | none => (db.zrem scope, .fresh)
  | some activity =>
    if !activity.lapsed now then (db.zadd scope (activity.expiresAt.getD 0), .fresh)
    else
      match state.probe with
      | some probe =>
        -- A clock that went back leaves the probe waiting.
        if now < probe.sentAt + timeoutMs then (db, .waiting)
        else
          let (db, state) :=
            revision time scope scope db { state with activityVisible := false, probe := none }
          ((db.save scope state).zrem scope, .expired (snapshot state scope now))
      | none =>
        (db.save scope { state with probe := some ⟨probeId, cjsonNumber now⟩ }, .probe)

end Scripts

end Coforge.Display
