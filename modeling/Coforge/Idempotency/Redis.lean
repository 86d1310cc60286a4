import Coforge.Lib.Run
import Mathlib

/-!
# The Redis idempotency layer of message requests

`RedisMessageRequestIdempotency.execute` as the sequence of Redis commands it issues. The state
holds the value stored under one key, so every call below has the same scope and idempotency
key; commands on other keys do not touch it. No TTL elapses, which makes the `EXPIRE` of the
keep-alive timer leave the value alone.

A Redis command either succeeds or fails, and a command that fails may have taken effect. Each
outcome is part of the label, as are the interleaving of the calls and the outcome of each
persist callback.
-/

namespace Coforge.Idempotency

open Transition

/-- A `Date`: its instant in milliseconds. -/
structure Date where
  instant : Int
deriving DecidableEq

/-- The text `toISOString` prints, kept as the instant it denotes: the text has millisecond
precision, so no instant is lost in it. -/
structure IsoText where
  instant : Int
deriving DecidableEq

def Date.toISOString (d : Date) : IsoText := ⟨d.instant⟩

/-- `new Date(text)`. -/
def Date.ofText (text : IsoText) : Date := ⟨text.instant⟩

@[simp] lemma Date.ofText_toISOString (d : Date) : Date.ofText d.toISOString = d := rfl

structure Attachment where
  id : String
  fileName : String
  contentType : String
  sizeBytes : Nat
deriving DecidableEq

/-- A message result whose `createdAt` has type `δ`: a `Date` in memory, its text in Redis. -/
structure DirectMessage (δ : Type) where
  id : String
  body : String
  createdAt : δ
  sequence : Nat
  threadRootId : Option String
  attachments : List Attachment
  deliveryId : Option String
  workspaceId : String
  agentId : Option String
  target : Option String
  latestSenderKind : Option String
  latestSenderHandle : Option String
  latestSenderDescription : Option String
deriving DecidableEq

abbrev PersistedDirectMessage := DirectMessage Date

def DirectMessage.mapCreatedAt {δ ε : Type} (f : δ → ε) (m : DirectMessage δ) :
    DirectMessage ε :=
  { m with createdAt := f m.createdAt }

/-- The value under the key: the claim of the request at work, or its result. -/
inductive StoredValue where
  | processing (owner : String)
  | completed (message : DirectMessage IsoText)
deriving DecidableEq

/-- The completion record `execute` writes. -/
def completedRecord (m : PersistedDirectMessage) : StoredValue :=
  .completed (m.mapCreatedAt Date.toISOString)

/-- A record as `find` reads it. -/
inductive MessageRequestRecord where
  | processing
  | completed (message : PersistedDirectMessage)
deriving DecidableEq

def StoredValue.record : StoredValue → MessageRequestRecord
  | .processing _ => .processing
  | .completed m  => .completed (m.mapCreatedAt Date.ofText)

@[simp] lemma record_completedRecord (m : PersistedDirectMessage) :
    (completedRecord m).record = .completed m := rfl

/-- How a Redis command ends. -/
inductive Outcome where
  | ok
  | failedBefore
  | failedAfter
deriving DecidableEq

/-- Whether the command changed what Redis holds. -/
def Outcome.effective : Outcome → Bool
  | .failedBefore => false
  | _             => true

/-- Where a call of `execute` stands. `releasing` is the catch path, with the message its
persist callback had returned when it was the completion write that failed. -/
inductive Phase where
  | claiming
  | finding
  | persisting
  | completing (message : PersistedDirectMessage)
  | releasing (message : Option PersistedDirectMessage)
  | returned (message : PersistedDirectMessage)
  | threw
deriving DecidableEq

/-- The key's value, the calls by the owner id each draws for its claim, and the messages that
persist callbacks have returned so far. -/
structure State where
  stored : Option StoredValue
  calls : String → Option Phase
  persisted : List PersistedDirectMessage

def State.init : State := ⟨none, fun _ => none, []⟩

/-- The call with this owner moves to `phase`. -/
def State.move (s : State) (owner : String) (phase : Phase) : State :=
  { s with calls := Function.update s.calls owner (some phase) }

/-- One step of a call, or of its keep-alive timer. -/
inductive Label where
  | execute (owner : String)
  | claim (owner : String) (outcome : Outcome)
  | find (owner : String) (outcome : Outcome)
  | persist (owner : String) (result : Option PersistedDirectMessage)
  | complete (owner : String) (outcome : Outcome)
  | release (owner : String) (outcome : Outcome)
  | refresh (owner : String) (outcome : Outcome)
deriving DecidableEq

/-- `SET key processing NX`: a failed command throws, a key that is taken sends the call to
`find`, and a free key is claimed. -/
def claim (s : State) (owner : String) : Outcome → State
  | .ok =>
    match s.stored with
    | some _ => s.move owner .finding
    | none   => { s with stored := some (.processing owner) }.move owner .persisting
  | .failedBefore => s.move owner .threw
  | .failedAfter  => { s with stored := s.stored.or (some (.processing owner)) }.move owner .threw

/-- `find` on the refused path: only a completed record is returned, anything else is
`MessageRequestInProgressError`. -/
def find (s : State) (owner : String) : Outcome → State
  | .ok =>
    match s.stored.map StoredValue.record with
    | some (.completed m) => s.move owner (.returned m)
    | _                   => s.move owner .threw
  | _ => s.move owner .threw

/-- The persist callback settles; one that throws committed nothing. -/
def persist (s : State) (owner : String) : Option PersistedDirectMessage → State
  | some m => { s with persisted := s.persisted ++ [m] }.move owner (.completing m)
  | none   => s.move owner (.releasing none)

/-- The completion write. It is unconditional, and its failure enters the catch path. -/
def complete (s : State) (owner : String) (m : PersistedDirectMessage) (outcome : Outcome) :
    State :=
  let s := if outcome.effective then { s with stored := some (completedRecord m) } else s
  match outcome with
  | .ok => s.move owner (.returned m)
  | _   => s.move owner (.releasing (some m))

/-- `RELEASE_IF_OWNER`, then the error is thrown. -/
def release (s : State) (owner : String) (outcome : Outcome) : State :=
  let held := s.stored = some (.processing owner)
  let s := if outcome.effective ∧ held then { s with stored := none } else s
  s.move owner .threw

def step (s : State) : Label → Option State
  | .execute owner =>
    if s.calls owner = none then some (s.move owner .claiming) else none
  | .claim owner outcome =>
    if s.calls owner = some .claiming then some (claim s owner outcome) else none
  | .find owner outcome =>
    if s.calls owner = some .finding then some (find s owner outcome) else none
  | .persist owner result =>
    if s.calls owner = some .persisting then some (persist s owner result) else none
  | .complete owner outcome =>
    match s.calls owner with
    | some (.completing m) => some (complete s owner m outcome)
    | _                    => none
  | .release owner outcome =>
    match s.calls owner with
    | some (.releasing _) => some (release s owner outcome)
    | _                   => none
  | .refresh owner _ =>
    -- the timer is armed by a successful claim and cancelled when the call settles
    match s.calls owner with
    | some .persisting | some (.completing _) | some (.releasing _) => some s
    | _ => none

end Coforge.Idempotency
