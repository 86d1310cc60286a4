import Coforge.ServerControl.Operations

/-!
# The control calls of one Agent

The operations as a pool: requests of users and of the server itself, and messages of the daemon,
in any number and any order. The row also changes from outside: its configuration, its Computer
and its owner's membership are edited, it is deleted, and another daemon comes to serve it.
-/

namespace Coforge.ServerControl

open Async
open Async.Prog (update)
open Control (AgentControlResult)

inductive Task where
  | execute (workspaceId requestId : String) (action : AgentControlAction) (confirmed : Bool)
      (now rounds : Nat)
  | stopOne (workspaceId : String) (now : Nat)
  | startOne (workspaceId resumePrompt : String)
  | recover (userId workspaceId requestId : String) (intent : AgentRecoveryFields)
  | publishStart (userId workspaceId requestId : String) (intent : AgentRecoveryFields)
  | publishStop (userId workspaceId requestId : String) (rounds : Nat)
  | startOnSession (userId workspaceId : String) (session : SubjectSession) (rounds : Nat)
  | result (claim : Claim) (result : AgentControlResult)
  | sessionReport (claim : Claim) (report : AgentSessionReport)
  | invalidate (claim : Claim) (message : AgentSessionInvalidate)

/-- What the rest of the server does to the row. -/
inductive Event where
  | configure (config : AgentRuntimeConfig)
  | move (computerId : Option String)
  | assign (assigned : Bool)
  | delete (now : Nat)
  | daemon (instanceId : Option String)

/-- How an awaited call ends. -/
inductive Outcome where
  | done
  | failed
  | recovery (recovery : Option AgentRecoveryFields)
  | flag (value : Bool)
deriving DecidableEq

namespace Server

/-- A write of an operation. Two session ids are set aside for it. -/
def replace (s : Server) (w : Write) : Except ControlFailure Bool × Server :=
  match s.row.replace s.sessions w.before w.state w.clearSession w.stoppedAt with
  | .error e        => (.error e, s)
  | .ok none        => (.ok false, s)
  | .ok (some row)  =>
    (.ok true, { s with row := row, sessions := s.sessions + 2 }.note
      (.wrote w.cause s.row.controlState w.state.toControlState))

/-- A write of a launch fence. -/
def replaceSession (s : Server) (w : FenceWrite) : Except Unit Bool × Server :=
  match s.row.replaceSession s.sessions w.previous w.next w.scope with
  | none     => (.ok false, s)
  | some row =>
    let t := { s with row := row, sessions := s.sessions + 1 }
    (.ok true,
      if w.reports then
        t.note (.reported w.scope.requestId w.scope.controlEpoch (w.next.sessionId.getD ""))
      else t)

/-- The reply to an effect. Whatever reaches the database or the bus can fail, and then it has
done nothing, except that a command whose publication fails may have been sent. -/
def answer : (e : Effect) → Outcome → Server → Option (Reply e × Server)
  | .get, .done, s                => some (.ok s.row.get, s)
  | .get, .failed, s              => some (.error (), s)
  | .replace w, .done, s          => some (s.replace w)
  | .replace _, .failed, s        => some (.error .unavailable, s)
  | .publish state command, .done, s =>
    some (.ok (), s.note (.published state.toControlState command))
  | .publish _ _, .failed, s      => some (.error (), s)
  | .publish state command, .flag _, s =>
    some (.error (), s.note (.published state.toControlState command))
  | .readSession, .done, s        => some (.ok s.row.readSession, s)
  | .readSession, .failed, s      => some (.error (), s)
  | .replaceSession w, .done, s   => some (s.replaceSession w)
  | .replaceSession _, .failed, s => some (.error (), s)
  | .currentDaemon, .done, s      => some (.ok s.daemon, s)
  | .currentDaemon, .failed, s    => some (.error (), s)
  | .memberRole, .done, s         => some (.ok (), s)
  | .memberRole, .failed, s       => some (.error (), s)
  | .lock, .done, s               => some ((), s)
  | .recovery, .recovery r, s     => some (r, s)
  | .deadline, .flag b, s         => some (b, s)
  | .signal, .flag b, s           => some (b, s)
  | _, _, _                       => none

def event (s : Server) : Event → Option Server
  | .configure config  => some { s with row := { s.row with runtimeConfig := config } }
  | .move computerId   => some { s with row := { s.row with computerId := computerId } }
  | .assign assigned   => some { s with row := { s.row with assigned := assigned } }
  | .delete now        => some { s with row := { s.row with deletedAt := some now } }
  | .daemon instanceId => some { s with daemon := instanceId }

end Server

/-- The caller gets the view. -/
def viewed (op : Op AgentControlView) : Op Unit := do
  let view ← op
  update fun s => s.note (.viewed view)

variable [Digest]

def body : Task → Op Unit
  | .execute workspaceId requestId action confirmed now rounds =>
    viewed (execute workspaceId requestId action confirmed now rounds)
  | .stopOne workspaceId now => stopOne workspaceId now
  | .startOne workspaceId resumePrompt => startOne workspaceId resumePrompt
  | .recover userId workspaceId requestId intent => recover userId workspaceId requestId intent
  | .publishStart userId workspaceId requestId intent =>
    publishStart userId workspaceId requestId intent
  | .publishStop userId workspaceId requestId rounds =>
    viewed (publishStop userId workspaceId requestId rounds)
  | .startOnSession userId workspaceId session rounds =>
    viewed (startOnSession userId workspaceId session rounds)
  | .result claim r => result claim r
  | .sessionReport claim report => sessionReport claim report
  | .invalidate claim message => invalidate claim message

/-- The control calls of one Agent. -/
def agentControl : Pool Server Event Task Outcome Reply ControlFailure where
  event := Server.event
  body _ := body
  answer := Server.answer

abbrev System := Roster Server Task Reply ControlFailure

/-- An Agent that no operation was begun for. -/
def Server.init (row : Agent) (uuid : Nat → { id : String // id ≠ "" })
    (daemon : Option String) : Server :=
  ⟨{ row with controlState := none }, ((row.currentSession.map (·.id)).map (· + 1)).getD 0, uuid, 0,
    daemon, []⟩

def System.init (row : Agent) (uuid : Nat → { id : String // id ≠ "" })
    (daemon : Option String) : System :=
  ⟨.init row uuid daemon, []⟩

end Coforge.ServerControl
