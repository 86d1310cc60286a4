import Coforge.Lib.Script
import Coforge.Release.Names
import Mathlib

/-!
# Upgrades and rollbacks of the Computer

The coordinator of an upgrade prepares a version, takes the launch-hold, switches the machine to
the version and back if that fails, and leaves one receipt. Its steps are effects of a program, and
how each of them turns out is the world's choice. The machine keeps a log of the steps so far.
-/

namespace Coforge.Release

open Async
open Async.Prog (gets update request)

/-! ### Records -/

inductive UpdateErrorCode where
  | busy | feedInvalid | integrityFailed | noRollback | unsupportedTarget
deriving DecidableEq

def UpdateErrorCode.text : UpdateErrorCode → String
  | .busy              => "UPDATE_BUSY"
  | .feedInvalid       => "UPDATE_FEED_INVALID"
  | .integrityFailed   => "UPDATE_INTEGRITY_FAILED"
  | .noRollback        => "UPDATE_NO_ROLLBACK"
  | .unsupportedTarget => "UPDATE_UNSUPPORTED_TARGET"

/-- An error: its message, and the code of an `UpdateError`. -/
structure Failure where
  message : String
  code : Option UpdateErrorCode
deriving DecidableEq

/-- `active.json`. -/
structure ActiveState where
  current : String
  previous : Option String
deriving DecidableEq

structure PreparedUpdate where
  version : String
  previous : Option String
  rollbackVersion : Option String
deriving DecidableEq

inductive UpgradeOperationKind where
  | upgrade | rollback
deriving DecidableEq

structure ManagedRuntimeBinding where
  bindingId : String
  running : Bool
deriving DecidableEq

structure ManagedRuntimeSnapshot where
  bindings : List ManagedRuntimeBinding
  supervisorRunning : Bool
deriving DecidableEq

inductive UpgradeStatus where
  | succeeded | failed
deriving DecidableEq

/-- The receipt of an operation. -/
structure UpgradeResult where
  requestId : String
  operation : UpgradeOperationKind
  status : UpgradeStatus
  version : Option String
  restoredVersion : Option String
  error : Option String
  errorCode : Option String
  supervisorRunning : Option Bool
  runtimes : Option (List ManagedRuntimeBinding)
deriving DecidableEq

/-- `UPGRADE_ERROR_CODE.ROLLED_BACK`. -/
def rolledBackCode : String := "UPGRADE_ROLLED_BACK"

/-- `UPGRADE_ERROR_CODE.ROLLBACK_FAILED`. -/
def rollbackFailedCode : String := "UPGRADE_ROLLBACK_FAILED"

/-- The request, whether the host restarts its coordinator in place, and how many polls of the
Coordinator fit before the deadline of the work under way. -/
structure UpgradeCoordinatorOptions where
  requestId : String
  operation : UpgradeOperationKind
  selection : String
  restartsInPlace : Bool
  settlePolls : Nat

/-- What `coordinateUpgrade` fails with: an error of a step before the switch, or the outcome of
the switch with its receipt. -/
inductive UpgradeError where
  | failure (error : Failure)
  | coordinator (message : String) (result : UpgradeResult)
deriving DecidableEq

/-! ### Steps -/

/-- A step that is done or fails. -/
inductive Action where
  | lock
  | assertInstalled (version : String)
  | prepareArtifact (version : String)
  | installVersion (version : String)
  | writeActive (state : ActiveState)
  | linkActive (version : String)
  | mkdirState
  | writeHold (requestId : String)
  | pause
  | holdRunners
  | assertRestartable
  | stopHost
  | restartHost
  | ensureRunning
  | probe (version : String)
  | release
  | resume (requestId : String)
  | removeHold
  | writeReceipt (result : UpgradeResult)
deriving DecidableEq

/-- A step of the coordinator that the world decides. -/
inductive Step where
  | act (action : Action)
  | installationSource
  | readActive
  | identity
  | pollWork
  | status
deriving DecidableEq

def Step.Reply : Step → Type
  | .act _              => Except Failure Unit
  | .installationSource => Except Failure String
  | .readActive         => Except Failure (Option ActiveState)
  | .identity           => Bool
  | .pollWork           => List String
  | .status             => Except Failure (List ManagedRuntimeBinding)

/-- How a step turns out: it is done, it fails, or it fails after it took effect. Some steps
answer with what they found. -/
inductive Outcome where
  | done
  | failed (error : Failure)
  | lost (error : Failure)
  | version (text : String)
  | runtimes (bindings : List ManagedRuntimeBinding)
  | underWay (workspaceIds : List String)
deriving DecidableEq

/-- The files and the Coordinator of the machine, the variables of the two coordinating modules,
and the steps so far, the newest first. -/
structure Machine where
  active : Option ActiveState
  receipt : Option UpgradeResult
  holdFile : Bool
  paused : Bool
  supervisorWasRunning : Bool
  inPlaceRestartVerified : Bool
  committedResult : Option UpgradeResult
  log : List (Step × Outcome)

/-- The machine before an operation. -/
def Machine.start (active : Option ActiveState) (receipt : Option UpgradeResult)
    (holdFile paused : Bool) : Machine where
  active := active
  receipt := receipt
  holdFile := holdFile
  paused := paused
  supervisorWasRunning := false
  inPlaceRestartVerified := false
  committedResult := none
  log := []

/-- What an action does to the machine when it takes effect. -/
def Action.effect : Action → Machine → Machine
  | .writeActive state, m   => { m with active := some state }
  | .writeHold _, m         => { m with holdFile := true }
  | .pause, m               => { m with paused := true }
  | .stopHost, m            => { m with paused := false }
  | .restartHost, m         => { m with paused := m.holdFile }
  | .ensureRunning, m       => { m with paused := m.holdFile }
  | .resume _, m            => { m with paused := false }
  | .removeHold, m          => { m with holdFile := false }
  | .writeReceipt result, m => { m with receipt := some result }
  | _, m                    => m

/-- The actions that write a file whole or not at all. -/
def Action.atomic : Action → Bool
  | .writeActive _ | .writeReceipt _ => true
  | _ => false

def Action.turnOut (action : Action) (m : Machine) : Outcome → Option (Except Failure Unit × Machine)
  | .done         => some (.ok (), action.effect m)
  | .failed error => some (.error error, m)
  | .lost error   => if action.atomic then none else some (.error error, action.effect m)
  | _             => none

/-- The version that the release feed names. -/
def Outcome.text? : Outcome → Option (Except Failure String)
  | .version text => some (.ok text)
  | .failed error => some (.error error)
  | _             => none

/-- What was read. -/
def Outcome.read? {α : Type} (content : α) : Outcome → Option (Except Failure α)
  | .done         => some (.ok content)
  | .failed error => some (.error error)
  | _             => none

/-- Whether the Coordinator answered. -/
def Outcome.answered? : Outcome → Option Bool
  | .done     => some true
  | .failed _ => some false
  | _         => none

/-- The Workspaces with work under way; none are known if the poll fails. -/
def Outcome.underWay? : Outcome → Option (List String)
  | .underWay ids => some ids
  | .failed _     => some []
  | _             => none

def Outcome.runtimes? : Outcome → Option (Except Failure (List ManagedRuntimeBinding))
  | .runtimes bindings => some (.ok bindings)
  | .failed error      => some (.error error)
  | _                  => none

def Step.turnOut (m : Machine) : (step : Step) → Outcome → Option (step.Reply × Machine)
  | .act action, o         => action.turnOut m o
  | .installationSource, o => o.text?.map (·, m)
  | .readActive, o         => (o.read? m.active).map (·, m)
  | .identity, o           => o.answered?.map (·, m)
  | .pollWork, o           => o.underWay?.map (·, m)
  | .status, o             => o.runtimes?.map (·, m)

/-- The world's answer to a step, which the log records. -/
def Step.answer (step : Step) (o : Outcome) (m : Machine) : Option (step.Reply × Machine) :=
  (step.turnOut m o).map fun (r, m) => (r, { m with log := (step, o) :: m.log })

/-- `errorMessage`. -/
def UpgradeError.text : UpgradeError → String
  | .failure error         => error.message
  | .coordinator message _ => message

abbrev UpgradeOp (α : Type) : Type := Prog Machine Step.Reply UpgradeError α

namespace UpgradeOp

/-- What a step answers, or its failure. -/
def settled {α : Type} (p : UpgradeOp (Except Failure α)) : UpgradeOp α :=
  p >>= fun r => Prog.ofExcept (r.mapError .failure)

def fail {α : Type} (message : String) (code : Option UpdateErrorCode) : UpgradeOp α :=
  throw (.failure ⟨message, code⟩)

def act (action : Action) : UpgradeOp Unit :=
  settled (request (R := Step.Reply) (.act action))

def installationSource : UpgradeOp String :=
  settled (request (R := Step.Reply) .installationSource)

def readActive : UpgradeOp (Option ActiveState) :=
  settled (request (R := Step.Reply) .readActive)

def identity : UpgradeOp Bool :=
  request (R := Step.Reply) .identity

def pollWork : UpgradeOp (List String) :=
  request (R := Step.Reply) .pollWork

def status : UpgradeOp (List ManagedRuntimeBinding) :=
  settled (request (R := Step.Reply) .status)

end UpgradeOp

/-! ### `ComputerUpdater` -/

open UpgradeOp

def assertVersion (value message : String) : UpgradeOp Unit :=
  if isValidReleaseVersion value then pure () else fail message (some .feedInvalid)

def resolveVersion (selection : String) : UpgradeOp String :=
  if selection = "latest" ∨ selection = "" then do
    let version ← tryCatch installationSource fun error =>
      fail error.text (some .feedInvalid)
    assertVersion version "latest pointer does not contain a valid version"
    if version = "latest" then
      fail "latest pointer must name a concrete version" (some .feedInvalid)
    else pure version
  else do
    assertVersion selection "version must be latest or a valid version string"
    pure selection

def prepare (selection : String) : UpgradeOp PreparedUpdate := do
  let version ← resolveVersion selection
  let active ← readActive
  (match active with
    | some state =>
      if state.current = "" then pure ()
      else do
        assertVersion state.current "active version is invalid"
        act (.assertInstalled state.current)
    | none => pure ())
  act (.prepareArtifact version)
  act (.installVersion version)
  return { version := version, previous := active.map (·.current)
           rollbackVersion := active.bind (·.previous) }

def prepareRollback : UpgradeOp PreparedUpdate := do
  let active ← readActive
  match active.bind fun state => state.previous.map fun previous => (state, previous) with
  | none => fail "no previous verified version is available" (some .noRollback)
  | some (state, previous) =>
    if previous = "" ∨ !isValidReleaseVersion previous then
      fail "no previous verified version is available" (some .noRollback)
    else do
      act (.assertInstalled state.current)
      act (.assertInstalled previous)
      return { version := previous, previous := some state.current
               rollbackVersion := some previous }

/-- `#activate`: the selected version is recorded, and then the links follow it. -/
def activate (state : ActiveState) : UpgradeOp Unit := do
  act (.writeActive state)
  act (.linkActive state.current)

def activatePrepared (prepared : PreparedUpdate) : UpgradeOp Unit := do
  act (.assertInstalled prepared.version)
  let active ← readActive
  if active.map (·.current) ≠ prepared.previous then
    fail "active version changed after update preparation" (some .busy)
  else
    activate
      { current := prepared.version
        previous :=
          if some prepared.version = prepared.previous then prepared.rollbackVersion
          else prepared.previous }

def restoreVerified (version : String) (rollbackVersion : Option String) : UpgradeOp Unit := do
  assertVersion version "rollback version is invalid"
  act (.assertInstalled version)
  activate { current := version, previous := rollbackVersion }

/-! ### The lifecycle of the Coordinator -/

/-- What an upgrade is told when work goes on past the deadline. -/
def stillUnderWay (ids : List String) : String :=
  "Workspace " ++ ", ".intercalate ids ++ (if ids.length = 1 then " is" else " are") ++
    " still starting or restarting. Run 'coforge-computer status' to follow " ++
    (if ids.length = 1 then "it" else "them") ++ ", then upgrade again."

/-- Polls until no work is under way, or the deadline has passed. -/
def settleLifecycleWork : Nat → UpgradeOp Unit
  | 0 => do
    let underWay ← pollWork
    if underWay ≠ [] then fail (stillUnderWay underWay) none else pure ()
  | polls + 1 => do
    let underWay ← pollWork
    if underWay ≠ [] then settleLifecycleWork polls else pure ()

def resumeLaunches (requestId : String) : UpgradeOp Unit := do
  let running ← gets (·.supervisorWasRunning)
  (if running then do
      tryCatch (act .release) fun _ => pure ()
      act (.resume requestId)
    else pure ())
  act .removeHold

def pauseLaunches (options : UpgradeCoordinatorOptions) : UpgradeOp Unit := do
  act .mkdirState
  act (.writeHold options.requestId)
  let running ← identity
  update fun m => { m with supervisorWasRunning := running }
  if running then do
    act .pause
    tryCatch (settleLifecycleWork options.settlePolls) fun error => do
      tryCatch (resumeLaunches options.requestId) fun _ => pure ()
      throw error
  else pure ()

def snapshot : UpgradeOp ManagedRuntimeSnapshot := do
  let bindings ← status
  let running ← gets (·.supervisorWasRunning)
  return { bindings := bindings, supervisorRunning := running }

def holdRunners : UpgradeOp Unit := do
  let running ← gets (·.supervisorWasRunning)
  if running then act .holdRunners else pure ()

def coordinatorStopFailure (error : String) (foregroundSupervised : Bool) : String :=
  if foregroundSupervised then
    "Cannot upgrade a foreground externally supervised Computer while it is running: " ++ error ++
      " Stop it through its external supervisor before upgrading, or install the supported user " ++
      "service with `coforge-computer start`."
  else "Cannot stop the Computer supervisor to upgrade it: " ++ error

def stop (restartsInPlace : Bool) : UpgradeOp Unit := do
  let m ← Prog.read
  if !m.supervisorWasRunning then pure ()
  else if restartsInPlace then do
    let verified ← tryCatch (do act .assertRestartable; return true) fun error => do
      if m.inPlaceRestartVerified then return false
      else fail (coordinatorStopFailure error.text true) none
    update fun m => { m with inPlaceRestartVerified := m.inPlaceRestartVerified || verified }
  else
    tryCatch (act .stopHost) fun error =>
      fail (coordinatorStopFailure error.text false) none

def start (restartsInPlace : Bool) : UpgradeOp Unit := do
  let running ← gets (·.supervisorWasRunning)
  if !running then pure ()
  else if restartsInPlace then act .restartHost
  else act .ensureRunning

def probe (version : String) : UpgradeOp Unit :=
  act (.probe version)

/-! ### The switch -/

/-- Stops, activates one version, starts it and waits for it to report healthy. -/
def performSwitch (restartsInPlace : Bool) (version : String) (activate : UpgradeOp Unit) :
    UpgradeOp Unit := do
  stop restartsInPlace
  activate
  start restartsInPlace
  probe version

def succeededResult (options : UpgradeCoordinatorOptions) (prepared : PreparedUpdate)
    (snapshot : ManagedRuntimeSnapshot) : UpgradeResult where
  requestId := options.requestId
  operation := options.operation
  status := .succeeded
  version := some prepared.version
  restoredVersion := none
  error := none
  errorCode := none
  supervisorRunning := some snapshot.supervisorRunning
  runtimes := some snapshot.bindings

def failedResult (options : UpgradeCoordinatorOptions) (restoredVersion : Option String)
    (error : String) (errorCode : Option String) : UpgradeResult where
  requestId := options.requestId
  operation := options.operation
  status := .failed
  version := none
  restoredVersion := restoredVersion
  error := some error
  errorCode := errorCode
  supervisorRunning := none
  runtimes := none

/-- The receipt is committed, or the operation ends with another message. -/
def commitOr (commitResult : UpgradeResult → UpgradeOp Unit) (result : UpgradeResult)
    (message : String) : UpgradeOp Unit :=
  tryCatch (commitResult result) fun _ => throw (.coordinator message result)

/-- The candidate: the runners are held, the switch is made and its receipt committed. -/
def switchCandidate (options : UpgradeCoordinatorOptions) (snapshot : ManagedRuntimeSnapshot)
    (prepared : PreparedUpdate) (commitResult : UpgradeResult → UpgradeOp Unit) :
    UpgradeOp UpgradeResult := do
  holdRunners
  performSwitch options.restartsInPlace prepared.version (activatePrepared prepared)
  let result := succeededResult options prepared snapshot
  commitResult result
  return result

/-- The candidate failed. There may be no version to go back to; else it is restored, and its
receipt committed before Workspaces launch. -/
def recoverPrevious (options : UpgradeCoordinatorOptions) (prepared : PreparedUpdate)
    (commitResult : UpgradeResult → UpgradeOp Unit) (candidateError : UpgradeError) :
    UpgradeOp UpgradeResult :=
  match prepared.previous with
  | none => do
    let result := failedResult options none candidateError.text none
    commitOr commitResult result "candidate failed with no rollback version and result commit failed"
    throw (.coordinator "candidate failed with no rollback version" result)
  | some previous => do
    let restored ← (performSwitch options.restartsInPlace previous
      (restoreVerified previous prepared.rollbackVersion)).result
    match restored with
    | .error rollbackError => do
      let result := failedResult options none
        (candidateError.text ++ "; rollback failed: " ++ rollbackError.text)
        (some rollbackFailedCode)
      commitOr commitResult result "candidate and rollback failed; result commit failed"
      throw (.coordinator "candidate and rollback failed" result)
    | .ok () => do
      let result := failedResult options (some previous) candidateError.text (some rolledBackCode)
      commitOr commitResult result "previous version restored but result commit failed"
      tryCatch (resumeLaunches options.requestId) fun _ =>
        throw (.coordinator "previous version restored; Workspace recovery failed" result)
      throw (.coordinator "candidate failed; previous version restored" result)

/-- What follows a committed candidate is not undone. -/
def switchRuntime (options : UpgradeCoordinatorOptions) (snapshot : ManagedRuntimeSnapshot)
    (prepared : PreparedUpdate) (commitResult : UpgradeResult → UpgradeOp Unit) :
    UpgradeOp UpgradeResult := do
  let candidate ← (switchCandidate options snapshot prepared commitResult).result
  match candidate with
  | .ok result => do
    tryCatch (resumeLaunches options.requestId) fun _ =>
      throw (.coordinator "candidate committed; Workspace recovery failed" result)
    return result
  | .error candidateError => recoverPrevious options prepared commitResult candidateError

def prepareOperation (options : UpgradeCoordinatorOptions) : UpgradeOp PreparedUpdate :=
  match options.operation with
  | .rollback => prepareRollback
  | .upgrade  => prepare options.selection

def coordinateUpgrade (options : UpgradeCoordinatorOptions)
    (commitResult : UpgradeResult → UpgradeOp Unit) : UpgradeOp UpgradeResult := do
  if !rfcUuidPattern options.requestId then
    fail "upgrade operation requires a valid UUID request ID" none
  else do
    act .lock
    let prepared ← prepareOperation options
    pauseLaunches options
    let snapshot ← tryCatch snapshot fun error => do
      resumeLaunches options.requestId
      throw error
    switchRuntime options snapshot prepared commitResult

/-! ### `runUpgradeCoordinator` -/

/-- A terminal receipt is write-once. -/
def commitResult (result : UpgradeResult) : UpgradeOp Unit := do
  let committed ← gets (·.committedResult)
  match committed with
  | some committed =>
    if committed ≠ result then fail "attempted to overwrite a committed upgrade result" none
    else pure ()
  | none => do
    act (.writeReceipt result)
    update fun m => { m with committedResult := some result }

/-- The receipt of an operation that ended with an error. -/
def errorResult (options : UpgradeCoordinatorOptions) : UpgradeError → UpgradeResult
  | .coordinator _ result => result
  | .failure error => failedResult options none error.message (error.code.map (·.text))

def runUpgradeCoordinator (options : UpgradeCoordinatorOptions) : UpgradeOp Unit :=
  if !rfcUuidPattern options.requestId then
    fail "upgrade operation requires a valid UUID request ID" none
  else do
    let outcome ← (coordinateUpgrade options commitResult).result
    match outcome with
    | .ok result   => commitResult result
    | .error error => commitResult (errorResult options error)

/-! ### Rules -/

section Rules

variable {guar : Machine → Machine → Prop} {issue : Step → Machine → Prop} {α : Type} {m : Machine}

/-- The machine after a step, which is in its log. -/
def Machine.logged (m : Machine) (step : Step) (o : Outcome) : Machine :=
  { m with log := (step, o) :: m.log }

lemma wp_settled {c : Prog.Context Machine Step.Reply} {p : UpgradeOp (Except Failure α)}
    {Q : Except UpgradeError α → Machine → Prop} : Prog.wp c (settled p) Q m ↔
      Prog.wp c p (Prog.either (fun r => Q (r.mapError .failure)) fun e => Q (.error e)) m := by
  simp only [settled, Prog.wp_bind, Prog.wp_ofExcept]

lemma wp_step {step : Step} {Q : Except UpgradeError step.Reply → Machine → Prop}
    (hissue : issue step m) (h : ∀ o r t, step.turnOut m o = some (r, t) →
      guar m (t.logged step o) ∧ Q (.ok r) (t.logged step o)) :
    Prog.wp (Prog.alone Step.answer guar issue) (request step) Q m := by
  refine Prog.wp_alone_request hissue fun o r t hans => ?_
  obtain ⟨⟨r', t'⟩, hturn, heq⟩ := Option.map_eq_some_iff.mp hans
  obtain ⟨rfl, rfl⟩ := Prod.mk.inj heq
  exact h o r' t' hturn

lemma wp_act {action : Action} {Q : Except UpgradeError Unit → Machine → Prop}
    (hissue : issue (.act action) m)
    (hdone : guar m ((action.effect m).logged (.act action) .done) ∧
      Q (.ok ()) ((action.effect m).logged (.act action) .done))
    (hfailed : ∀ f, guar m (m.logged (.act action) (.failed f)) ∧
      Q (.error (.failure f)) (m.logged (.act action) (.failed f)))
    (hlost : action.atomic = false → ∀ f,
      guar m ((action.effect m).logged (.act action) (.lost f)) ∧
        Q (.error (.failure f)) ((action.effect m).logged (.act action) (.lost f))) :
    Prog.wp (Prog.alone Step.answer guar issue) (act action) Q m := by
  refine wp_settled.mpr (@wp_step _ _ _ (.act action) _ hissue fun o r t hturn => ?_)
  have hact : action.turnOut m o = some (r, t) := hturn
  cases o with
  | done =>
    cases hact
    exact hdone
  | failed f =>
    cases hact
    exact hfailed f
  | lost f =>
    rw [Action.turnOut] at hact
    split_ifs at hact with hatomic
    cases hact
    exact hlost (by simpa using hatomic) f
  | version text => exact nomatch hact
  | runtimes bindings => exact nomatch hact
  | underWay ids => exact nomatch hact

lemma turnOut_query {step : Step} {o : Outcome} {r : step.Reply} {t : Machine}
    (hquery : ∀ action, step ≠ .act action) (h : step.turnOut m o = some (r, t)) : t = m := by
  cases step with
  | act action => exact absurd rfl (hquery action)
  | _ =>
    obtain ⟨_, _, heq⟩ := Option.map_eq_some_iff.mp h
    exact (Prod.mk.inj heq).2.symm

lemma wp_query {step : Step} {Q : Except UpgradeError step.Reply → Machine → Prop}
    (hquery : ∀ action, step ≠ .act action) (hissue : issue step m)
    (h : ∀ o r, guar m (m.logged step o) ∧ Q (.ok r) (m.logged step o)) :
    Prog.wp (Prog.alone Step.answer guar issue) (request step) Q m := by
  refine wp_step hissue fun o r t hturn => ?_
  obtain rfl := turnOut_query hquery hturn
  exact h o r

lemma wp_pollWork {Q : Except UpgradeError (List String) → Machine → Prop}
    (hissue : issue .pollWork m)
    (h : ∀ o ids, guar m (m.logged .pollWork o) ∧ Q (.ok ids) (m.logged .pollWork o)) :
    Prog.wp (Prog.alone Step.answer guar issue) pollWork Q m :=
  wp_query (fun _ => nofun) hissue h

lemma wp_identity {Q : Except UpgradeError Bool → Machine → Prop} (hissue : issue .identity m)
    (h : ∀ o running, guar m (m.logged .identity o) ∧ Q (.ok running) (m.logged .identity o)) :
    Prog.wp (Prog.alone Step.answer guar issue) identity Q m :=
  wp_query (fun _ => nofun) hissue h

end Rules

end Coforge.Release
