import Coforge.Lib.Keyed
import Mathlib

/-!
# The reminder mirror of the daemon

The part of `ReminderScheduler` that the server's sync messages read and write: the jobs held for
each Agent, the version each reminder was last heard at, the reminders cancelled at that version,
and the reminders changed one at a time since a snapshot last listed them. `Mirror.apply` is what
`apply` does to it; what a message does besides, to the timers and the receipts, is the
scheduler's.

Reminders are identified by their Agent and their id. The source joins the two with a colon, which
neither may contain.
-/

namespace Coforge.Reminder

open Keyed

/-- A job. Its `fireAt` text is kept as the instant it denotes, in milliseconds. -/
structure ReminderJob where
  reminderId : String
  ownerAgentId : String
  version : Nat
  title : String
  target : String
  messageId : String
  fireAt : Int
deriving DecidableEq, Inhabited

/-- What a sync message asks for, with the fields its decoder requires of each operation. -/
inductive SyncOperation where
  | snapshot (jobs : List ReminderJob)
  | upsert (job : ReminderJob)
  | cancel (reminderId : String) (version : Nat)
deriving DecidableEq

structure ReminderSync where
  protocolMajor : Nat
  workspaceId : String
  computerId : String
  agentId : String
  operation : SyncOperation
deriving DecidableEq

/-- The Workspace and the Computer of a daemon. -/
structure Scope where
  workspaceId : String
  computerId : String
deriving DecidableEq

def SyncOperation.jobs : SyncOperation → List ReminderJob
  | .snapshot jobs => jobs
  | .upsert job    => [job]
  | .cancel _ _    => []

def Scope.accepts (scope : Scope) (sync : ReminderSync) : Bool :=
  sync.protocolMajor = 1 ∧ sync.workspaceId = scope.workspaceId ∧
    sync.computerId = scope.computerId ∧
    sync.operation.jobs.all fun j => j.ownerAgentId = sync.agentId

/-- The Agent and the id of a reminder. -/
abbrev VersionKey := String × String

structure Mirror where
  running : Bool
  authorized : String → Bool
  jobs : String → List ReminderJob
  versions : VersionKey → Option Nat
  tombstones : VersionKey → Bool
  changedAfterSnapshot : VersionKey → Bool

def Mirror.initial : Mirror where
  running := true
  authorized _ := false
  jobs _ := []
  versions _ := none
  tombstones _ := false
  changedAfterSnapshot _ := false

namespace Mirror

/-- The job held for a reminder. -/
def held (m : Mirror) (agentId reminderId : String) : Option ReminderJob :=
  find ReminderJob.reminderId reminderId (m.jobs agentId)

/-- A version the fence turns away: an older one, or the one a cancel was applied at. -/
def fenced (m : Mirror) (key : VersionKey) (version : Nat) : Bool :=
  match m.versions key with
  | none       => false
  | some fence => version < fence ∨ (version = fence ∧ m.tombstones key)

/-! ### Snapshots -/

/-- One listed job of a snapshot, and the jobs it has taken over so far. -/
def listed (agentId : String) (acc : Mirror × List ReminderJob) (job : ReminderJob) :
    Mirror × List ReminderJob :=
  let key := (agentId, job.reminderId)
  if acc.1.fenced key job.version then acc
  else
    ({ acc.1 with
        versions := Function.update acc.1.versions key (some job.version)
        changedAfterSnapshot := Function.update acc.1.changedAfterSnapshot key false },
      put ReminderJob.reminderId job acc.2)

/-- A job held before the snapshot stays when it changed since and the snapshot brought no
other. -/
def carried (changed : String → Bool) (jobs : List ReminderJob) (old : ReminderJob) :
    List ReminderJob :=
  if changed old.reminderId ∧ find ReminderJob.reminderId old.reminderId jobs = none then
    put ReminderJob.reminderId old jobs
  else jobs

def snapshot (m : Mirror) (agentId : String) (jobs : List ReminderJob) : Mirror :=
  let m := { m with authorized := Function.update m.authorized agentId true }
  let (m', taken) := jobs.foldl (listed agentId) (m, [])
  let kept := (m.jobs agentId).foldl
    (carried fun r => m'.changedAfterSnapshot (agentId, r)) taken
  { m' with jobs := Function.update m'.jobs agentId kept }

/-! ### Single changes -/

def upsert (m : Mirror) (agentId : String) (job : ReminderJob) : Mirror :=
  let key := (agentId, job.reminderId)
  if m.fenced key job.version then m
  else
    { m with
      versions := Function.update m.versions key (some job.version)
      changedAfterSnapshot := Function.update m.changedAfterSnapshot key true
      tombstones := Function.update m.tombstones key false
      jobs := Function.update m.jobs agentId
        (put ReminderJob.reminderId job (m.jobs agentId)) }

def cancel (m : Mirror) (agentId reminderId : String) (version : Nat) : Mirror :=
  let key := (agentId, reminderId)
  if m.fenced key version then m
  else
    { m with
      versions := Function.update m.versions key (some version)
      changedAfterSnapshot := Function.update m.changedAfterSnapshot key true
      tombstones := Function.update m.tombstones key true
      jobs := Function.update m.jobs agentId
        (drop ReminderJob.reminderId reminderId (m.jobs agentId)) }

/-! ### Messages -/

/-- A message for an Agent. A single change before the Agent's first snapshot is ignored. -/
def apply (scope : Scope) (m : Mirror) (sync : ReminderSync) : Except String Mirror :=
  if !m.running then .error "reminder scheduler is stopped"
  else if !scope.accepts sync then .error "reminder sync targets another daemon"
  else
    match sync.operation with
    | .snapshot jobs => .ok (m.snapshot sync.agentId jobs)
    | .upsert job =>
      .ok (if m.authorized sync.agentId then m.upsert sync.agentId job else m)
    | .cancel reminderId version =>
      .ok (if m.authorized sync.agentId then m.cancel sync.agentId reminderId version else m)

/-- `stop` forgets the jobs and who is authorized, and no message is taken any more. -/
def stop (m : Mirror) : Mirror :=
  { m with running := false, authorized := fun _ => false, jobs := fun _ => [] }

/-- The mirror after a message: one that is refused leaves it as it was. -/
def receive (scope : Scope) (m : Mirror) (sync : ReminderSync) : Mirror :=
  match m.apply scope sync with
  | .ok m'   => m'
  | .error _ => m

/-- The mirror after a sequence of messages. -/
def after (scope : Scope) (m : Mirror) (syncs : List ReminderSync) : Mirror :=
  syncs.foldl (receive scope) m

end Mirror

end Coforge.Reminder
