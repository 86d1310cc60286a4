import Coforge.Control.Operations

/-!
# One Agent under `AgentControl`

The operations of `Coforge.Control.Operations` as a component: control calls and reports of the
runtime join the queue, the retry timer fires, the process comes and goes, and the operation in
its turn is answered. The disposal of `AgentControl` at the shutdown of the daemon is left out.

`Undisturbed` is all that can happen to the state while an operation waits, and the `wp` rules
of the effects are stated for it.
-/

namespace Coforge.Control

open Async Async.Prog

/-- What happens to the Agent from outside its operations. -/
inductive Event where
  | start (intent : AgentStartIntent)
  | stop (scope : AgentControlScope)
  | resetWorkspace (scope : AgentControlScope)
  | stopped (launchId : String) (identity : Option SessionIdentity)
  | wake (launchId : String) (identity : Option SessionIdentity)
  | updateSession (launchId : String) (identity : SessionIdentity)
  | replay
  | replaySession
  | retryDue
  | process (running : Bool)
deriving DecidableEq

/-- How an awaited call ends. -/
inductive Outcome where
  | done
  | identity (identity : Option SessionIdentity)
  | failed
  | recovery (code : AgentSessionRecoveryCode)
deriving DecidableEq

namespace AgentState

/-- `state.run`. -/
def enqueue (s : AgentState) (task : Task) : AgentState :=
  { s with pending := s.pending ++ [task] }

def event (s : AgentState) : Event → Option AgentState
  | .start intent   => some ({ s.beginStartRun with known := true }.enqueue (.start intent s.known))
  | .stop scope     => some ({ s with known := true }.enqueue (.stop scope s.known))
  | .resetWorkspace scope => some (s.enqueue (.resetWorkspace scope))
  | .stopped launchId identity => some (s.enqueue (.stopped launchId identity))
  | .wake launchId identity => some (s.enqueue (.wake launchId identity))
  | .updateSession launchId identity => some (s.enqueue (.updateSession launchId identity))
  | .replay         => if s.known then some (s.enqueue .replay) else none
  | .replaySession  => some (s.enqueue .replaySession)
  | .retryDue       => s.launchRetry.map s.fireLaunchRetry
  | .process running => some { s with running := running }

def next (s : AgentState) : Option (Task × AgentState) :=
  match s.pending with
  | []           => none
  | task :: rest => some (task, { s with pending := rest })

/-- The reply to an effect. A launch brings the process up and a Stop takes it down. -/
def answer (s : AgentState) : (e : Effect) → Outcome → Option (Reply e × AgentState)
  | .turn _, .done => some ((), s)
  | .result _, .done => some ((), s)
  | .session _, .done => some ((), s)
  | .stop, .identity i => some (.ok i, { s with running := false })
  | .stop, .failed => some (.error (), s)
  | .launch _ _ _ _, .identity i => some (.ok i, { s with running := true })
  | .launch _ _ _ _, .failed => some (.error .other, s)
  | .launch _ _ _ _, .recovery code => some (.error (.recovery code), s)
  | .rebind _ _, .identity i => some (.ok i, s)
  | .rebind _ _, .failed => some (.error (), s)
  | .wake _, .done => some (.ok (), s)
  | .wake _, .failed => some (.error (), s)
  | .clearWorkspace, .done => some (.ok (), s)
  | .clearWorkspace, .failed => some (.error (), s)
  | _, _ => none

end AgentState

/-- A control call whose caller sees it reject. -/
def logged (op : Op Unit) : Op Unit :=
  tryCatch op fun e => update fun s => { s with rejections := e :: s.rejections }

/-- The work of a task. -/
def body : Task → Op Unit
  | .start intent known  => logged ((start intent known).andFinally (update AgentState.endStartRun))
  | .retry retry         =>
    (tryCatch (retryStart retry) fun _ => pure ()).andFinally (update AgentState.endStartRun)
  | .stop scope known    => logged (stop scope known)
  | .resetWorkspace scope => logged (resetWorkspace scope)
  | .stopped launchId identity => stopped launchId identity
  | .wake launchId identity => wake launchId identity
  | .updateSession launchId identity => updateSession launchId identity
  | .replay              => replay
  | .replaySession       => replaySession

/-- `AgentControl`, for one Agent. -/
def agentControl : Component AgentState Event Task Outcome Reply ControlError where
  event := AgentState.event
  next := AgentState.next
  body := body
  answer e o s := s.answer e o

abbrev System := Sys AgentState Task Reply ControlError

def System.init (instanceId : String) : System := ⟨.init instanceId, none⟩

/-- A managed Start as the server sends it. -/
def sampleStart (requestId : String) (epoch : Nat) (launchId : String) : AgentStartIntent where
  requestId := requestId
  workspaceId := "workspace"
  computerId := "computer"
  agentId := "agent"
  provider := .codex
  sessionId := none
  sessionMode := none
  controlEpoch := some epoch
  launchId := some launchId
  wakeMessage := none
  resumePrompt := none

/-! ### The state while an operation waits -/

/-- The number of start runs in a queue. -/
def startRuns (tasks : List Task) : Nat := tasks.countP Task.isStartRun

@[simp] lemma startRuns_nil : startRuns [] = 0 := rfl

@[simp] lemma startRuns_append (xs ys : List Task) :
    startRuns (xs ++ ys) = startRuns xs + startRuns ys :=
  List.countP_append

@[simp] lemma startRuns_cons (t : Task) (ts : List Task) :
    startRuns (t :: ts) = startRuns ts + if t.isStartRun then 1 else 0 :=
  List.countP_cons

/-- What the first Start or Stop of a queue found when it was called. -/
def firstKnown : List Task → Option Bool
  | []                 => none
  | .start _ known :: _ => some known
  | .stop _ known :: _ => some known
  | _ :: rest          => firstKnown rest

lemma firstKnown_append (xs ys : List Task) :
    firstKnown (xs ++ ys) = (firstKnown xs).or (firstKnown ys) := by
  induction xs with
  | nil => rfl
  | cons t ts ih => cases t <;> simp [firstKnown, ih]

/-- What can happen while an operation waits: the queue grows, the retry timer fires, the
process comes and goes. `added` is what joined the queue. -/
structure Joined (s t : AgentState) (added : List Task) : Prop where
  instanceId : t.instanceId = s.instanceId
  record : t.record = s.record
  history : t.history = s.history
  rejections : t.rejections = s.rejections
  pending : t.pending = s.pending ++ added
  startsRunning : t.startsRunning = s.startsRunning + startRuns added
  launchRetry : t.launchRetry = s.launchRetry ∨ t.launchRetry = none
  fired : ∀ r, s.launchRetry = some r → t.launchRetry = some r ∨ .retry r ∈ added
  known : t.known = (s.known || (firstKnown added).isSome)
  firstKnown : ∀ k, firstKnown added = some k → k = s.known

def Undisturbed (s t : AgentState) : Prop := ∃ added, Joined s t added

lemma undisturbed_of_running (s : AgentState) (running : Bool) :
    Undisturbed s { s with running := running } :=
  ⟨[], by constructor <;> simp [firstKnown]⟩

lemma undisturbed_refl (s : AgentState) : Undisturbed s s :=
  undisturbed_of_running s s.running

lemma undisturbed_trans {s t u : AgentState} (hst : Undisturbed s t) (htu : Undisturbed t u) :
    Undisturbed s u := by
  obtain ⟨xs, hs⟩ := hst
  obtain ⟨ys, ht⟩ := htu
  refine ⟨xs ++ ys, ?_, ?_, ?_, ?_, ?_, ?_, ?_, ?_, ?_, ?_⟩
  · rw [ht.instanceId, hs.instanceId]
  · rw [ht.record, hs.record]
  · rw [ht.history, hs.history]
  · rw [ht.rejections, hs.rejections]
  · rw [ht.pending, hs.pending, List.append_assoc]
  · rw [ht.startsRunning, hs.startsRunning, startRuns_append, Nat.add_assoc]
  · rcases ht.launchRetry with h | h
    · exact h ▸ hs.launchRetry
    · exact .inr h
  · intro r hr
    rcases hs.fired r hr with h | h
    · exact (ht.fired r h).imp_right fun h => List.mem_append_right xs h
    · exact .inr (List.mem_append_left ys h)
  · rw [ht.known, hs.known, firstKnown_append, Bool.or_assoc]
    cases Control.firstKnown xs <;> simp
  · intro k hk
    rw [firstKnown_append] at hk
    cases hx : Control.firstKnown xs with
    | none => simpa [hs.known, hx] using ht.firstKnown k (by simpa [hx] using hk)
    | some k' =>
      have : k' = k := by simpa [hx] using hk
      exact this ▸ hs.firstKnown k' hx

lemma undisturbed_enqueue (s : AgentState) {task : Task} (hrun : task.isStartRun = false)
    (hknown : firstKnown [task] = none) : Undisturbed s (s.enqueue task) :=
  ⟨[task], by constructor <;> simp +contextual [AgentState.enqueue, hrun, hknown]⟩

lemma undisturbed_event {s t : AgentState} {l : Event} (h : s.event l = some t) :
    Undisturbed s t := by
  cases l with
  | start intent =>
    cases h
    exact ⟨[.start intent s.known], by
      constructor <;>
        simp [AgentState.enqueue, AgentState.beginStartRun, Task.isStartRun, firstKnown]⟩
  | stop scope =>
    cases h
    exact ⟨[.stop scope s.known], by
      constructor <;> simp [AgentState.enqueue, Task.isStartRun, firstKnown]⟩
  | retryDue =>
    obtain ⟨r, hr, rfl⟩ := Option.map_eq_some_iff.mp h
    exact ⟨[.retry r], by
      constructor <;>
        simp [AgentState.fireLaunchRetry, AgentState.beginStartRun, Task.isStartRun, firstKnown,
          hr]⟩
  | process running => cases h; exact undisturbed_of_running s running
  | replay =>
    obtain ⟨-, h⟩ := Option.ite_none_right_eq_some.mp h
    cases h
    exact undisturbed_enqueue s rfl rfl
  | _ => cases h; exact undisturbed_enqueue s rfl rfl

lemma undisturbed_answer {s t : AgentState} {e : Effect} {o : Outcome} {r : Reply e}
    (h : s.answer e o = some (r, t)) : Undisturbed s t := by
  cases e <;> cases o <;> cases h <;>
    first
      | exact undisturbed_refl s
      | exact undisturbed_of_running s _

/-! ### Rules for the effects -/

/-- An assertion that survives a wait. -/
def Stable (F : AgentState → Prop) : Prop := ∀ s t, Undisturbed s t → F s → F t

/-- The context of a task, when the answers it gets are restricted to `permits` and `during`
holds at each of its awaits. -/
def context (permits : Task → (e : Effect) → AgentState → Reply e → Prop)
    (during : Task → AgentState → Prop) (task : Task) : Context AgentState Reply where
  rely := Undisturbed
  answer e s r t := ∃ o, s.answer e o = some (r, t) ∧ permits task e s r
  guar _ _ := True
  issue _ s := during task s

/-- Every reply of the step is one that `permits` allows. -/
def Answered (permits : Task → (e : Effect) → AgentState → Reply e → Prop) (s : System) :
    Act Event Outcome → Prop
  | .reply o =>
    match s.turn with
    | none => True
    | some (task, p) =>
      match s.shared.answer p.effect o with
      | none        => True
      | some (r, _) => permits task p.effect s.shared r
  | _ => True

instance (permits : Task → (e : Effect) → AgentState → Reply e → Prop)
    [∀ task e s r, Decidable (permits task e s r)] (s : System) :
    ∀ a : Act Event Outcome, Decidable (Answered permits s a)
  | .event _ => isTrue trivial
  | .begin   => isTrue trivial
  | .reply o =>
    match h : s.turn with
    | none => isTrue (by simp [Answered, h])
    | some (task, p) =>
      match h' : s.shared.answer p.effect o with
      | none        => isTrue (by simp [Answered, h, h'])
      | some (r, _) =>
        decidable_of_iff (permits task p.effect s.shared r) (by simp [Answered, h, h'])

lemma Answered.permits {permits : Task → (e : Effect) → AgentState → Reply e → Prop} {s : System}
    {task : Task} {p : Suspended AgentState Reply ControlError Unit} {o : Outcome}
    {r : Reply p.effect} {t : AgentState} (h : Answered permits s (.reply o))
    (hturn : s.turn = some (task, p)) (hans : s.shared.answer p.effect o = some (r, t)) :
    permits task p.effect s.shared r := by
  simpa [Answered, hturn, hans] using h

section Rules

variable {permits : Task → (e : Effect) → AgentState → Reply e → Prop}
  {during : Task → AgentState → Prop} {task : Task} {F : AgentState → Prop} {s : AgentState}

/-- An await keeps a stable assertion. The reply is one that the state before it permits. -/
lemma wp_effect {e : Effect} {Q : Except ControlError (Reply e) → AgentState → Prop}
    (hF : Stable F) (hd : ∀ t, F t → during task t) (h : F s)
    (hk : ∀ o r s' t, s'.answer e o = some (r, t) → permits task e s' r → F s' → F t →
      Q (.ok r) t) : wp (context permits during task) (request e) Q s := by
  rw [wp_request]
  refine ⟨hd s h, fun s' hs' r t ⟨o, hans, hper⟩ => ⟨trivial, ?_⟩⟩
  have hs : F s' := hF s s' hs' h
  exact hk o r s' t hans hper hs (hF s' t (undisturbed_answer hans) hs)

lemma wp_turn {p : Point} {Q : Except ControlError Unit → AgentState → Prop}
    (hF : Stable F) (hd : ∀ t, F t → during task t) (h : F s)
    (hk : ∀ t, F t → permits task (.turn p) t () → Q (.ok ()) t) :
    wp (context permits during task) (turn p) Q s := by
  refine wp_effect (e := .turn p) hF hd h fun o r s' t hans hper hs ht => ?_
  cases o <;> cases hans
  exact hk s' hs hper

lemma wp_readRecord {Q : Except ControlError (Option AgentRuntimeRecord) → AgentState → Prop}
    (hF : Stable F) (hd : ∀ t, F t → during task t) (h : F s)
    (hk : ∀ t, F t → permits task (.turn .read) t () → Q (.ok t.record) t) :
    wp (context permits during task) readRecord Q s := by
  simp only [readRecord, wp_bind, wp_gets, either_ok]
  have hF' : Stable fun t => F t ∧ t.record = s.record :=
    fun t u htu ht => ⟨hF t u htu ht.1, by obtain ⟨_, hj⟩ := htu; rw [hj.record, ht.2]⟩
  refine wp_turn hF' (fun t ht => hd t ht.1) ⟨h, rfl⟩ fun t ht hper => ?_
  exact ht.2 ▸ hk t ht.1 hper

lemma wp_writeRecord {record : AgentRuntimeRecord} {Q : Except ControlError Unit → AgentState → Prop}
    (hF : Stable F) (hd : ∀ t, F t → during task t) (h : F { s with record := some record })
    (hk : ∀ t, F t → Q (.ok ()) t) :
    wp (context permits during task) (writeRecord record) Q s := by
  simp only [writeRecord, wp_bind, wp_update, either_ok]
  exact ⟨trivial, wp_turn hF hd h fun t ht _ => hk t ht⟩

lemma wp_report {result : AgentControlResult} {Q : Except ControlError Unit → AgentState → Prop}
    (hF : Stable F) (hd : ∀ t, F t → during task t)
    (h : F { s with history := .reported result :: s.history })
    (hk : ∀ t, F t → Q (.ok ()) t) :
    wp (context permits during task) (report result) Q s := by
  simp only [report, wp_bind, wp_update, either_ok]
  refine ⟨trivial, wp_effect (e := .result result) hF hd h fun o r s' t hans hper hs ht => ?_⟩
  exact hk t ht

lemma wp_sendSession {report : Option AgentSessionSnapshot}
    {Q : Except ControlError Unit → AgentState → Prop}
    (hF : Stable F) (hd : ∀ t, F t → during task t)
    (h : ∀ x, report = some x → F { s with history := .session x :: s.history })
    (hnone : report = none → F s) (hk : ∀ t, F t → Q (.ok ()) t) :
    wp (context permits during task) (sendSession report) Q s := by
  cases report with
  | none => exact hk s (hnone rfl)
  | some x =>
    simp only [sendSession, wp_bind, wp_update, either_ok]
    refine ⟨trivial, wp_effect (e := .session x) hF hd (h x rfl) fun o r s' t hans hper hs ht => ?_⟩
    exact hk t ht

end Rules

end Coforge.Control
