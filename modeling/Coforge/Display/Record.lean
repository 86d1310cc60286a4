import Mathlib

/-!
# The display state of an Agent

What Redis keeps for each Agent's display: the state as the scripts decode it, the revision counter
beside it, and the index of busy leases. The helpers of the preamble that all scripts share are
given here. A number that goes through `cjson` keeps 14 significant digits; revisions are stored as
text and keep all of theirs.
-/

namespace Coforge.Display

/-! ### Numbers -/

/-- A number as `cjson` writes it, in the format `%.14g`, and reads it back. -/
def cjsonNumber (n : Nat) : Nat :=
  let unit := 10 ^ (Nat.log 10 n - 13)
  let kept := n / unit
  let rest := n % unit
  if 2 * rest < unit ∨ (2 * rest = unit ∧ kept % 2 = 0) then kept * unit else (kept + 1) * unit

/-- The numbers that go through `cjson` unharmed. -/
def Exact (n : Nat) : Prop := n < 10 ^ 14

instance (n : Nat) : Decidable (Exact n) := inferInstanceAs (Decidable (_ < _))

lemma cjsonNumber_of_exact {n : Nat} (h : Exact n) : cjsonNumber n = n := by
  have hlog : Nat.log 10 n - 13 = 0 := by
    have hlt : Nat.log 10 n < 14 := Nat.log_lt_of_lt_pow' (by decide) h
    omega
  simp [cjsonNumber, hlog, Nat.mod_one]

/-- The first number that has no successor among the doubles. -/
def doubleLimit : Nat := 2 ^ 53

/-- The sum of a double and one. -/
def successor (n : Nat) : Nat := min (n + 1) doubleLimit

/-! ### The state -/

structure Scope where
  workspaceId : String
  computerId : String
  agentId : String
  deriving DecidableEq, Repr

inductive ProcessStatus where
  | active | inactive
  deriving DecidableEq, Repr

inductive AgentActivityKind where
  | online | working | thinking | error | offline
  deriving DecidableEq, Repr

structure Process where
  status : ProcessStatus
  daemonInstanceId : String
  sequence : Nat
  observedAt : Nat
  leaseUntil : Option Nat
  deriving DecidableEq, Repr

/-- An activity frame as it is stored; `entries` is their JSON. -/
structure Activity where
  launchId : String
  daemonInstanceId : String
  sequence : Nat
  observedAt : Nat
  receivedAt : Nat
  kind : AgentActivityKind
  detailKind : String
  detail : String
  entries : String
  expiresAt : Option Nat
  deriving DecidableEq, Repr

structure ContextUsage where
  launchId : String
  daemonInstanceId : String
  clientSeq : Nat
  observedAt : Nat
  usedTokens : Nat
  windowTokens : Nat
  deriving DecidableEq, Repr

structure Probe where
  id : String
  sentAt : Nat
  deriving DecidableEq, Repr

structure DisplayState where
  process : Option Process := none
  processExpired : Bool := false
  activity : Option Activity := none
  activityVisible : Bool := false
  contextUsage : Option ContextUsage := none
  retiredLaunchId : Option String := none
  probe : Option Probe := none
  revision : Option Nat := none
  deriving DecidableEq, Repr

/-- The lease, if there is one, is over. -/
def Process.lapsed (p : Process) (now : Nat) : Bool := p.leaseUntil.any fun t => t ≤ now

def Activity.lapsed (a : Activity) (now : Nat) : Bool := a.expiresAt.any fun t => t ≤ now

def AgentActivityKind.busy : AgentActivityKind → Bool
  | .working | .thinking => true
  | .online | .error | .offline => false

/-- The process that is taken to run: active, and not found expired. -/
def DisplayState.running (s : DisplayState) : Option Process :=
  if s.processExpired then none else s.process.filter fun p => p.status = .active

/-- The activity that is shown while the process runs. -/
def DisplayState.visible (s : DisplayState) : Option Activity :=
  if s.activityVisible then s.activity else none

/-! ### Redis -/

/-- What Redis holds: the states, the revision counters, the scores of the lease index, and how
often its clock was read. Beside it, the revisions that were issued, the last one first. -/
structure Store where
  states : Scope → Option DisplayState
  revisions : Scope → Option Nat
  leases : Scope → Option Nat
  reads : Nat := 0
  issued : List (Scope × Nat) := []

def Store.empty : Store where
  states _ := none
  revisions _ := none
  leases _ := none

def Store.save (db : Store) (scope : Scope) (state : DisplayState) : Store :=
  { db with states := Function.update db.states scope (some state) }

def Store.zadd (db : Store) (scope : Scope) (score : Nat) : Store :=
  { db with leases := Function.update db.leases scope (some score) }

def Store.zrem (db : Store) (scope : Scope) : Store :=
  { db with leases := Function.update db.leases scope none }

/-- `decode_state` of the state key. -/
def Store.state (db : Store) (scope : Scope) : DisplayState := (db.states scope).getD {}

section Preamble

variable (time : Nat → Nat)

/-- The revision that is next: by the clock, by the counter, by the state. -/
def nextRevision (clock counter : Nat) (state : DisplayState) : Nat :=
  max clock (max (successor counter) (successor (state.revision.getD 0)))

/-- `revision`. The counter it reads is that of `KEYS[2]`, the one it writes that of
`revision_key`. -/
def revision (readKey revisionKey : Scope) (db : Store) (state : DisplayState) :
    Store × DisplayState :=
  let next := nextRevision (time db.reads) ((db.revisions readKey).getD 0) state
  ({ db with
      revisions := Function.update db.revisions revisionKey (some next)
      reads := db.reads + 1
      issued := (revisionKey, next) :: db.issued },
    { state with revision := some next })

/-- What `project` makes of a state, if it changes it. -/
def DisplayState.projection (state : DisplayState) (now : Nat) : Option DisplayState :=
  state.running.bind fun process =>
    if process.lapsed now then
      some { state with processExpired := true, activityVisible := false }
    else
      state.visible.bind fun activity =>
        if activity.kind.busy && activity.lapsed now then some { state with activityVisible := false }
        else none

/-- `project`, and whether it changed the state. -/
def project (readKey revisionKey : Scope) (now : Nat) (db : Store) (state : DisplayState) :
    Store × DisplayState × Bool :=
  match state.projection now with
  | some projected =>
    let (db, projected) := revision time readKey revisionKey db projected
    (db, projected, true)
  | none => (db, state, false)

end Preamble

structure ShownUsage where
  usedTokens : Nat
  windowTokens : Nat
  observedAtMs : Nat
  deriving DecidableEq, Repr

structure AgentDisplaySnapshot where
  scope : Scope
  revision : Option Nat
  activityKind : AgentActivityKind
  detailKind : String
  detail : String
  entries : String
  expiresAt : Option Nat
  contextUsage : Option ShownUsage
  deriving DecidableEq, Repr

/-- The reading that is shown while a process of its daemon instance runs, unless its launch is the
one that was retired last. -/
def DisplayState.shownUsage (state : DisplayState) (process : Process) : Option ContextUsage :=
  state.contextUsage.filter fun usage =>
    usage.daemonInstanceId = process.daemonInstanceId ∧
      some usage.launchId ≠ state.retiredLaunchId

/-- `snapshot`. -/
def snapshot (state : DisplayState) (scope : Scope) (now : Nat) : AgentDisplaySnapshot :=
  match state.running.filter fun process => !process.lapsed now with
  | none =>
    { scope := scope, revision := state.revision, activityKind := .offline, detailKind := "",
      detail := "", entries := "[]", expiresAt := none, contextUsage := none }
  | some process =>
    let usage := (state.shownUsage process).map fun usage =>
      ShownUsage.mk usage.usedTokens usage.windowTokens usage.observedAt
    match state.visible with
    | none =>
      { scope := scope, revision := state.revision, activityKind := .online, detailKind := "",
        detail := "", entries := "[]", expiresAt := process.leaseUntil, contextUsage := usage }
    | some activity =>
      { scope := scope, revision := state.revision, activityKind := activity.kind,
        detailKind := activity.detailKind, detail := activity.detail, entries := activity.entries,
        expiresAt :=
          if activity.kind.busy then
            (activity.expiresAt.bind fun t => process.leaseUntil.map fun u => min t u)
          else process.leaseUntil
        contextUsage := usage }

end Coforge.Display
