import Coforge.Lib.Json
import Coforge.Lib.Lines
import Coforge.Activity.Redaction

/-!
# The process of a code agent

A code agent writes one JSON record on each line. A record that answers a pending request settles
it, and any other goes to the listeners. The reader of the output stops at the first line that is no
record and where a listener throws; the process then fails, and its pending requests with it.

The listeners are a function of the records they were given: what they call on the process while
they have the last of them, and whether they throw.
-/

namespace Coforge.CodeAgent

open Lines

inductive ProcessState
  | open
  | failed (message : String)
  | disposing
  | closed (failureMessage : Option String)
  deriving DecidableEq, Repr

/-- How the promise of a response is settled. -/
inductive Settlement
  | resolved (record : Json)
  | responseError (record : Json)
  | rejected (message : String)

/-- What stops the reader of the output. -/
inductive Thrown
  | protocolError (message : String)
  | error
  deriving DecidableEq, Repr

def Thrown.message : Thrown → String
  | protocolError message => message
  | error                 => "code agent process produced invalid output"

/-- The calls that take effect at once. -/
inductive Call
  | request
  | sendFailed
  | dispose
  deriving DecidableEq, Repr

structure Reaction where
  calls  : List Call
  thrown : Option Thrown

structure Process where
  state     : ProcessState
  next      : ℕ
  pending   : List String
  failing   : Option String
  disposals : ℕ
  settled   : List (String × Settlement)
  accepted  : List Json
  delivered : List Json

/-! ### Requests -/

def requestId (n : ℕ) : String := "coforge-" ++ toString n

namespace Process

def create : Process := ⟨.open, 1, [], none, 0, [], [], []⟩

def rejectPending (message : String) (p : Process) : Process :=
  { p with
    settled := p.settled ++ p.pending.map fun id => (id, .rejected message)
    pending := [] }

def recordFailure (message : String) (p : Process) : Process :=
  match p.state with
  | .closed _ => p
  | _         => { p with state := .failed message }.rejectPending message

def fail (message : String) (p : Process) : Process :=
  match p.state with
  | .open => { p.recordFailure message with failing := some message }
  | _     => p

/-- The cleanup that a failure started is through. -/
def cleaned (p : Process) : Process :=
  match p.failing, p.state with
  | none, _                     => p
  | some _, .failed message     => { p with state := .closed (some message), failing := none }
  | some message, _             => { p with state := .closed (some message), failing := none }

def cleanupFailed (message : String) (p : Process) : Process :=
  match p.failing with
  | none   => p
  | some _ => { p.recordFailure message with failing := none }

def request (p : Process) : Process :=
  match p.state with
  | .open => { p with next := p.next + 1, pending := p.pending ++ [requestId p.next] }
  | _     => p

/-- A message that the process did not take. -/
def sendFailed (p : Process) : Process := p.fail "code agent process rejected a message"

def requestFailed (id : String) (p : Process) : Process :=
  let p := p.sendFailed
  { p with pending := p.pending.erase id }

def dispose (p : Process) : Process :=
  match p.state with
  | .closed _ => p
  | .open     =>
    { p with state := .disposing, disposals := p.disposals + 1 }.rejectPending
      "code agent process closed"
  | _         => { p with disposals := p.disposals + 1 }

def disposed (p : Process) : Process :=
  if p.disposals = 0 then p
  else { p with state := .closed none, disposals := p.disposals - 1 }

def disposeFailed (message : String) (p : Process) : Process :=
  if p.disposals = 0 then p
  else { p.recordFailure message with disposals := p.disposals - 1 }

def call (p : Process) : Call → Process
  | .request    => p.request
  | .sendFailed => p.sendFailed
  | .dispose    => p.dispose

end Process

/-! ### Output -/

/-- `record.success === false || record.error !== undefined`. -/
def refused (record : Json) : Bool :=
  (match record.get? "success" with
    | some (.bool b) => !b
    | _              => false) || (record.get? "error").isSome

def settlement (record : Json) : Settlement :=
  if refused record then .responseError record else .resolved record

/-- `replace(/\r$/, "")`. -/
def stripReturn (line : List Char) : List Char :=
  if line.getLast? = some '\r' then line.dropLast else line

section Reading

variable {σ : Type*} (D : Decoder σ UInt8 Char) (parse : List Char → Option Json)
  (listen : List Json → Reaction)

def parseRecord (line : List Char) : Option Json := (parse line).filter Json.isRecord

namespace Process

def deliver (record : Json) (p : Process) : Process × Option Thrown :=
  let reaction := listen (p.delivered ++ [record])
  (reaction.calls.foldl call { p with delivered := p.delivered ++ [record] }, reaction.thrown)

/-- The pending request that a record answers. -/
def answered (record : Json) (p : Process) : Option String :=
  (Json.text? (record.get? "id")).filter fun id => id ≠ "" ∧ id ∈ p.pending

def accept (record : Json) (p : Process) : Process × Option Thrown :=
  let p := { p with accepted := p.accepted ++ [record] }
  match p.answered record with
  | some id =>
    ({ p with
      pending := p.pending.erase id
      settled := p.settled ++ [(id, settlement record)] }, none)
  | none    => p.deliver listen record

def readLine (line : List Char) (p : Process) : Process × Option Thrown :=
  if stripReturn line = [] then (p, none)
  else match parseRecord parse (stripReturn line) with
    | none        => (p, some .error)
    | some record => p.accept listen record

/-- Reads complete lines until one of them stops the reader. -/
def readLines : List (List Char) → Process → Process × Option Thrown
  | [], p            => (p, none)
  | line :: lines, p =>
    match (p.readLine parse listen line).2 with
    | some thrown => ((p.readLine parse listen line).1, some thrown)
    | none        => readLines lines (p.readLine parse listen line).1

end Process

/-- The process, its reader with the decoder and the buffer, and the output: the bytes that were
written and whether that was all. -/
structure Agent (σ : Type*) where
  process : Process
  reader  : Option (σ × List Char)
  written : List UInt8
  ended   : Bool

def Agent.create : Agent σ := ⟨.create, some (D.start, []), [], false⟩

/-- What happens to the process. -/
inductive Event
  | call (c : Call)
  | requestFailed (id : String)
  | chunk (bytes : List UInt8)
  | outputError
  | outputEnd
  | exit
  | cleaned
  | cleanupFailed (message : String)
  | disposed
  | disposeFailed (message : String)
  deriving DecidableEq, Repr

namespace Agent

/-- The reader stops, and the process fails unless it is failed or closed already. -/
def stop (thrown : Thrown) (w : Agent σ) : Agent σ :=
  { w with process := w.process.fail thrown.message, reader := none }

def chunk (bytes : List UInt8) (w : Agent σ) : Agent σ :=
  if w.ended then w
  else match w.reader with
    | none             => { w with written := w.written ++ bytes }
    | some (s, buffer) =>
      let decoded := D.decode s bytes
      let cut := lines '\n' (buffer ++ decoded.2)
      let (process, thrown) := w.process.readLines parse listen cut.1
      match thrown with
      | some thrown => { w with process, written := w.written ++ bytes }.stop thrown
      | none        =>
        { w with process, reader := some (decoded.1, cut.2), written := w.written ++ bytes }

def outputError (w : Agent σ) : Agent σ :=
  match w.reader with
  | none   => { w with ended := true }
  | some _ => { w with ended := true }.stop .error

def outputEnd (w : Agent σ) : Agent σ :=
  match w.reader with
  | none             => { w with ended := true }
  | some (s, buffer) =>
    if (buffer ++ D.finish s).all Activity.space then { w with reader := none, ended := true }
    else { w with ended := true }.stop .error

/-- A change of the process alone. -/
def withProcess (f : Process → Process) (w : Agent σ) : Agent σ :=
  { w with process := f w.process }

def step (w : Agent σ) : Event → Agent σ
  | .call c                => w.withProcess (·.call c)
  | .requestFailed id      => w.withProcess (·.requestFailed id)
  | .chunk bytes           => w.chunk D parse listen bytes
  | .outputError           => w.outputError
  | .outputEnd             => w.outputEnd D
  | .exit                  => w.withProcess (·.fail "code agent process exited unexpectedly")
  | .cleaned               => w.withProcess (·.cleaned)
  | .cleanupFailed message => w.withProcess (·.cleanupFailed message)
  | .disposed              => w.withProcess (·.disposed)
  | .disposeFailed message => w.withProcess (·.disposeFailed message)

/-- The process after some events, in their order. -/
def run (w : Agent σ) (events : List Event) : Agent σ := events.foldl (step D parse listen) w

end Agent

end Reading

end Coforge.CodeAgent
