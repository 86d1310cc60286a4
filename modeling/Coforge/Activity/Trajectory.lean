import Coforge.Activity.Redaction

/-!
# The trajectory of an Agent's activity

A trajectory buffers the deltas that a provider streams and forwards each piece of them as one
entry: when the kind or the subagent changes, when another event comes, or after a quiet window. It
announces the kind of a fresh run at once, and reports that a thinking run ended before the event
that ends it.

What is forwarded of the trajectory's own is told apart here from a provider's event that passes
through.
-/

namespace Coforge.Activity

inductive DetailKind
  | modelResponseStarted
  | thinkingStarted
  | thinkingEnd
  | toolStarted
  | runtimeProgress
  | compactingContext
  | compactionFinished
  | other (name : String)
  deriving DecidableEq

inductive Level
  | info
  | error
  deriving DecidableEq

/-- The kind of a delta, and of the entry that its text stands in. -/
inductive Kind
  | text
  | thinking
  deriving DecidableEq

/-- The detail kind that a run is announced with. -/
def Kind.detailKind : Kind → DetailKind
  | text     => .modelResponseStarted
  | thinking => .thinkingStarted

structure Entry where
  kind     : Kind
  text     : List Char
  subagent : Option String
  deriving DecidableEq

structure AgentActivity where
  detailKind : DetailKind
  level      : Level
  detail     : String
  entries    : List Entry
  deriving DecidableEq

/-- A streamed text. `subagent` is the tool use that its subagent belongs to. -/
structure Delta where
  kind     : Kind
  text     : List Char
  subagent : Option String
  deriving DecidableEq

/-- What a provider reports. `other` stands for the events that the trajectory only passes on:
usage, session, tool output, progress and undelivered notices. -/
inductive Event
  | delta (d : Delta)
  | activity (a : AgentActivity)
  | toolStart (id : String)
  | toolEnd (id : String)
  | completed
  | compactionStarted
  | compactionFinished
  | compactionInterrupted
  | error (message : String)
  | reconnecting
  | other (type : String)
  deriving DecidableEq

/-- The model moved on from an open thinking run. -/
def Event.endsThinking : Event → Bool
  | delta d     => d.kind = .text
  | toolStart _ => true
  | toolEnd _   => true
  | completed   => true
  | error _     => true
  | activity a  =>
      a.level = .error || a.detailKind = .compactingContext || a.detailKind = .compactionFinished
  | _           => false

/-- The events that flush what is pending before they are forwarded. -/
def Event.flushes : Event → Bool
  | toolStart _           => true
  | activity _            => true
  | completed             => true
  | compactionStarted     => true
  | compactionFinished    => true
  | compactionInterrupted => true
  | error _               => true
  | reconnecting          => true
  | _                     => false

structure Pending where
  kind      : Kind
  text      : List Char
  subagent  : Option String
  truncated : Bool
  deriving DecidableEq

/-- What is forwarded: a provider's event, or one of the trajectory's own. -/
inductive Sent
  | passed (e : Event)
  | announced (kind : Kind)
  | closed
  | entry (e : Entry)
  deriving DecidableEq

namespace Sent

def event : Sent → Event
  | passed e       => e
  | announced kind => .activity ⟨kind.detailKind, .info, "", []⟩
  | closed         => .activity ⟨.thinkingEnd, .info, "Thinking finished", []⟩
  | entry e        => .activity ⟨e.kind.detailKind, .info, "", [e]⟩

def entry? : Sent → Option Entry
  | entry e => some e
  | _       => none

end Sent

/-- What an event announces: its own detail kind unless it is progress, and a tool for a tool
call. -/
def Event.announces : Event → Option DetailKind
  | activity a  => if a.detailKind = .runtimeProgress then none else some a.detailKind
  | toolStart _ => some .toolStarted
  | _           => none

structure Trajectory where
  pending       : Option Pending
  timer         : Bool
  disposed      : Bool
  lastAnnounced : Option DetailKind
  deriving DecidableEq

namespace Trajectory

def start : Trajectory := ⟨none, false, false, none⟩

def forward (t : Trajectory) (x : Sent) : Trajectory × List Sent :=
  ({ t with lastAnnounced := x.event.announces.or t.lastAnnounced }, [x])

def pendingLimit : ℕ := 8000

def entryLimit : ℕ := 2000

/-- The text of an entry: redacted, and cut at the limit. -/
def shownText (text : List Char) (truncated : Bool) : List Char :=
  let chars := redactTrajectoryText text
  if entryLimit < chars.length ∨ truncated then chars.take (entryLimit - 1) ++ ['…'] else chars

def flush (t : Trajectory) : Trajectory × List Sent :=
  let t' := { t with pending := none, timer := false }
  match t.pending with
  | none   => (t', [])
  | some p =>
    let text := shownText p.text p.truncated
    if text = [] then (t', []) else t'.forward (.entry ⟨p.kind, text, p.subagent⟩)

/-- Announces a fresh run's kind, unless it is the last announced one. -/
def startRun (t : Trajectory) (kind : Kind) : Trajectory × List Sent :=
  if t.lastAnnounced = some kind.detailKind then (t, []) else t.forward (.announced kind)

/-- Adds a delta to what is pending, of which a bounded prefix is retained. -/
def append (t : Trajectory) (d : Delta) : Trajectory :=
  let p := t.pending.getD ⟨d.kind, [], d.subagent, false⟩
  let text := p.text ++ d.text
  { t with
    pending := some { p with
      text := text.take pendingLimit
      truncated := p.truncated || pendingLimit < text.length }
    timer := true }

/-- One effect after the other. -/
def next (r : Trajectory × List Sent) (f : Trajectory → Trajectory × List Sent) :
    Trajectory × List Sent :=
  let r' := f r.1
  (r'.1, r.2 ++ r'.2)

/-- Reports the end of a thinking run that is the last announced. -/
def closeThinking (t : Trajectory) (e : Event) : Trajectory × List Sent :=
  if t.lastAnnounced = some .thinkingStarted ∧ e.endsThinking then
    next t.flush fun t => t.forward .closed
  else (t, [])

/-- Flushes what is pending of another kind or subagent. -/
def switch (t : Trajectory) (d : Delta) : Trajectory × List Sent :=
  if t.pending.any fun p => p.kind ≠ d.kind ∨ p.subagent ≠ d.subagent then t.flush else (t, [])

/-- The announcement that a delta makes before it is added. -/
def openRun (t : Trajectory) (d : Delta) : Trajectory × List Sent :=
  next (t.switch d) fun t => if t.pending = none then t.startRun d.kind else (t, [])

def acceptDelta (t : Trajectory) (d : Delta) : Trajectory × List Sent :=
  ((t.openRun d).1.append d, (t.openRun d).2)

/-- Forwards an event, behind what is pending where it flushes that. -/
def pass (t : Trajectory) (e : Event) : Trajectory × List Sent :=
  next (if e.flushes then t.flush else (t, [])) fun t => t.forward (.passed e)

def acceptEvent (t : Trajectory) : Event → Trajectory × List Sent
  | .delta d => t.acceptDelta d
  | e        => t.pass e

def accept (t : Trajectory) (e : Event) : Trajectory × List Sent :=
  if t.disposed then (t, []) else next (t.closeThinking e) fun t => t.acceptEvent e

def dispose (t : Trajectory) : Trajectory × List Sent :=
  if t.disposed then (t, []) else next t.flush fun t => ({ t with disposed := true }, [])

end Trajectory

/-! ### Runs -/

inductive Label
  | accept (e : Event)
  /-- The quiet window after the last delta is over. -/
  | timer
  | dispose
  deriving DecidableEq

namespace Trajectory

def step (t : Trajectory) : Label → Trajectory × List Sent
  | .accept e => t.accept e
  | .timer    => if t.timer then t.flush else (t, [])
  | .dispose  => t.dispose

/-- The state after a list of labels and all that was forwarded on the way. -/
def run (labels : List Label) : Trajectory × List Sent :=
  labels.foldl (fun r label => next r fun t => t.step label) (start, [])

end Trajectory

end Coforge.Activity
