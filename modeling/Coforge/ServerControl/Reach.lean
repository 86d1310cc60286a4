import Coforge.ServerControl.Calls

/-!
# Every reachable state

The operations of users and of the server, and the messages of the daemon, each under the
invariant, and what the outside does to the row. With them the invariant holds at every point of
every run.
-/

namespace Coforge.ServerControl

open Async Async.Growth
open Async.Prog (request update)
open Control (SessionIdentity AgentControlScope AgentControlResult AgentSessionSnapshot truthy)

variable [Digest] {u : Server} {subject : Subject} {requestId : String}
  {recovery : Option AgentRecoveryFields}

/-! ### The chain -/

variable {past : List Happening} {state : AgentControlState}

lemma currentOperation_known {agent : Option AgentControlAgent}
    {a : AgentControlAgent} (h : ∀ a ∈ agent, KnownAgent past a)
    (heq : currentOperation agent requestId = some (a, state)) :
    KnownAgent past a ∧ state ∈ a.state := by
  unfold currentOperation at heq
  split at heq
  · cases heq
  next b =>
    obtain ⟨s, hs, hpair⟩ := Option.map_eq_some_iff.mp heq
    obtain ⟨rfl, rfl⟩ := Prod.mk.inj hpair
    exact ⟨h b rfl, (Option.filter_eq_some_iff.mp hs).1⟩

lemma safe_publishCurrent (hsubject : Registered u.trace subject) :
    Safe u (publishCurrent subject requestId recovery) fun _ _ => True := by
  unfold publishCurrent
  refine safe_get.bind fun agent t _ ht hagent => ?_
  split
  · exact safe_throw
  next a state hcurrent =>
    obtain ⟨hknown, hstate⟩ := currentOperation_known hagent hcurrent
    exact safe_publish (hknown state hstate) (hsubject.mono ht)

lemma safe_advance (hsubject : Registered u.trace subject) :
    Safe u (advance subject requestId recovery) fun _ _ => True := by
  unfold advance
  refine safe_get.bind fun agent t _ ht hagent => ?_
  split
  · exact safe_pure fun _ _ _ => trivial
  next a state hcurrent =>
    obtain ⟨hknown, hstate⟩ := currentOperation_known hagent hcurrent
    split
    · exact safe_publishCurrent (hsubject.mono ht)
    next completed hcompleted =>
      rcases hnext : nextStep state.action completed with ⟨clearSession, next⟩
      dsimp only
      -- the launch id is drawn exactly for a Start
      have hwrite (launchId : Option String) {v : Server} (hv : t.trace <:+ v.trace)
          (hlaunch : (∃ id ∈ launchId, id ≠ "") ↔ next = some .start) :
          Safe v (do
            if ← replace { cause := .advance, before := a,
                           state := advanced state clearSession next launchId,
                           clearSession := clearSession } then
              publishCurrent subject requestId recovery
            else pure ()) fun _ _ => True := by
        have hlegit : Write.Legit ⟨.advance, a, advanced state clearSession next launchId,
            clearSession, none⟩ := by
          refine ⟨state, hstate, completed, hcompleted, launchId, ?_, ?_, ?_⟩
          · rw [hnext]
            exact hlaunch
          · rw [hnext]
          · rw [hnext]
        refine (safe_replace hlegit (hknown.mono hv)).bind fun isWritten w _ hw _ => ?_
        refine safe_ite (fun _ => ?_) fun _ => safe_pure fun _ _ _ => trivial
        exact safe_publishCurrent (hsubject.mono (ht.trans (hv.trans hw)))
      refine safe_ite (fun _ => safe_throw) fun _ => ?_
      refine safe_ite (fun hstart => ?_) fun hstart => ?_
      · refine safe_launchId.bind fun launchId v _ hv hdrawn => hwrite launchId hv ?_
        exact iff_of_true hdrawn hstart
      · refine hwrite none (List.suffix_refl _) (iff_of_false ?_ hstart)
        rintro ⟨id, hid, -⟩
        cases hid

/-! ### Requests -/

lemma safe_begin {action : AgentControlAction} {stoppedAt : Option (Option Nat)} {attempts : Nat}
    {agent : AgentControlAgent} (h : KnownAgent u.trace agent) :
    Safe u (begin action requestId stoppedAt attempts agent) fun state t =>
      Known t.trace state ∧ state.action = action := by
  induction attempts generalizing u agent with
  | zero => exact safe_throw
  | succ attempts ih =>
    unfold begin
    split
    next old hold =>
      refine safe_ite (fun _ => safe_throw) fun hsame => safe_pure fun t _ ht => ?_
      exact ⟨(h old (Option.filter_eq_some_iff.mp hold).1).mono ht, not_not.mp (not_or.mp hsame).1⟩
    next hnew =>
      have hrequest : ∀ old ∈ agent.state, old.requestId ≠ requestId := by
        intro old hold heq
        rw [Option.filter_eq_none_iff] at hnew
        exact hnew old hold (by simpa using heq)
      have hwrite (launchId : Option String) {t : Server} (ht : u.trace <:+ t.trace)
          (hlaunch : (∃ id ∈ launchId, id ≠ "") ↔ action = .start) :
          Safe t (do
            if ← replace { cause := .begin, before := agent,
                           state := begun agent action requestId launchId,
                           stoppedAt := stoppedAt } then
              return begun agent action requestId launchId
            else do
              let refreshed ← authorized agent.ownerId agent.workspaceId
              if movedOn agent refreshed then throw .configurationOrOperationChanged
              else begin action requestId stoppedAt attempts refreshed)
            fun state t => Known t.trace state ∧ state.action = action := by
        have hlegit : Write.Legit ⟨.begin, agent, begun agent action requestId launchId, false,
            stoppedAt⟩ := ⟨rfl, action, requestId, launchId, rfl, hrequest, hlaunch⟩
        refine (safe_replace hlegit (h.mono ht)).bind fun isWritten v _ hv hdone => ?_
        refine safe_ite (fun hwritten => safe_pure fun w _ hw => ?_) fun _ => ?_
        · exact ⟨(hdone hwritten).mono hw, rfl⟩
        · refine safe_authorized.bind fun refreshed w _ _ hknown => ?_
          exact safe_ite (fun _ => safe_throw) fun _ => ih hknown
      refine safe_ite (fun hstart => ?_) fun hstart => ?_
      · refine safe_launchId.bind fun launchId t _ ht hdrawn => hwrite launchId ht ?_
        exact iff_of_true hdrawn hstart
      · refine hwrite none (List.suffix_refl _) (iff_of_false ?_ hstart)
        rintro ⟨id, hid, -⟩
        cases hid

/-! ### Views -/

omit [Digest] in
lemma view_known (h : Known past state) : ViewKnown past (view state) := by
  intro hcompleted
  refine ⟨state.toControlState, rfl, rfl, ?_, h.earned⟩
  by_contra hne
  simp only [view] at hcompleted
  cases hphase : state.phase <;> simp [hphase] at hcompleted hne

omit [Digest] in
lemma supersededView_known : ViewKnown past (supersededView state) := nofun

omit [Digest] in
lemma ViewKnown.mono {trace : List Happening} {v : AgentControlView} (h : ViewKnown past v)
    (hle : past <:+ trace) : ViewKnown trace v := by
  intro hcompleted
  obtain ⟨c, hrequest, haction, hphase, hearned⟩ := h hcompleted
  exact ⟨c, hrequest, haction, hphase, hearned.mono hle⟩

lemma safe_drive {rounds : Nat} {publishedPhase : Option ControlPhase} {signaled : Bool}
    (hsubject : Registered u.trace subject) :
    Safe u (drive subject requestId recovery rounds publishedPhase signaled) fun v t =>
      ViewKnown t.trace v := by
  induction rounds generalizing u publishedPhase signaled with
  | zero =>
    unfold drive
    refine Safe.bind (safe_silent fun o s r t ho => ?_) fun r => nomatch r
    cases o <;> cases ho
  | succ rounds ih =>
    unfold drive
    refine safe_get.bind fun agent t _ ht hagent => ?_
    cases agent with
    | none => exact safe_throw
    | some agent =>
      dsimp only
      split
      · exact safe_throw
      next state hstate =>
        have hknown : Known t.trace state :=
          hagent agent rfl state (Option.filter_eq_some_iff.mp hstate).1
        have hview {v : Server} (hv : t.trace <:+ v.trace) :
            Safe v (pure (view state)) fun v t => ViewKnown t.trace v :=
          safe_pure fun w _ hw => view_known (hknown.mono (hv.trans hw))
        have hsubject := hsubject.mono ht
        refine safe_ite (fun _ => safe_pure fun _ _ _ => supersededView_known) fun _ => ?_
        refine safe_ite (fun _ => hview (List.suffix_refl _)) fun _ => ?_
        refine safe_ite (fun _ => ?_) fun _ => ?_
        · refine (safe_advance hsubject).bind fun _ v _ hv _ => ?_
          exact ih (hsubject.mono hv)
        refine safe_ite (fun _ => ?_) fun _ => ?_
        · refine (safe_publishCurrent hsubject).result.bind fun r v _ hv _ => ?_
          cases r with
          | ok _ => exact ih (hsubject.mono hv)
          | error e =>
            refine safe_get.bind fun latest w _ hw _ => ?_
            split
            · exact safe_pure fun _ _ _ => supersededView_known
            · exact hview (hv.trans hw)
        · refine Safe.bind (G := fun _ _ => True) (safe_silent fun o s r t ho => ?_)
            fun isOver v _ hv _ => ?_
          · cases o <;> cases ho
            rfl
          refine safe_ite (fun _ => hview hv) fun _ => ?_
          refine Safe.bind (G := fun _ _ => True) (safe_silent fun o s r t ho => ?_)
            fun signaled w _ hw _ => ?_
          · cases o <;> cases ho
            rfl
          exact ih (hsubject.mono (hv.trans hw))

/-! ### Requests of users and of the server -/

section Requests

variable {userId workspaceId : String} {rounds : Nat}

omit [Digest] in
lemma safe_lock : Safe u (request Effect.lock : Op Unit) fun _ _ => True := by
  refine safe_silent fun o s r t ho => ?_
  cases o <;> cases ho
  rfl

omit [Digest] in
lemma safe_actorRole : Safe u actorRole fun _ _ => True := by
  unfold actorRole
  refine Safe.bind (G := fun _ _ => True) (safe_silent fun o s r t ho => ?_) fun r _ _ _ _ => ?_
  · cases o <;> cases ho <;> rfl
  · cases r with
    | ok _ => exact safe_pure fun _ _ _ => trivial
    | error _ => exact safe_throw

omit [Digest] in
lemma safe_controllableAgent :
    Safe u (controllableAgent workspaceId) fun agent t => KnownAgent t.trace agent := by
  unfold controllableAgent
  refine safe_get.bind fun agent t _ _ hagent => ?_
  split
  · exact safe_throw
  next agent =>
    refine safe_ite (fun _ => safe_throw) fun _ => safe_ite (fun _ => safe_throw) fun _ => ?_
    exact safe_pure fun v _ hv => (hagent agent rfl).mono hv

variable {now : Nat}

/-- The part of `execute` after the recovery was read. -/
lemma safe_executeLocked {action : AgentControlAction}
    {recovery : Option AgentRecoveryFields} : Safe u (do
      request Effect.lock
      actorRole
      let agent ← controllableAgent workspaceId
      match if action = .start then starting agent else none with
      | some inFlight => drive none inFlight.requestId recovery rounds none false
      | none => do
        let stoppedAt := if action = .stop then some now else none
        let _ ← begin action requestId (some stoppedAt) beginAttempts agent
        drive none requestId recovery rounds none false) fun v t => ViewKnown t.trace v := by
  refine safe_lock.bind fun _ _ _ _ _ => safe_actorRole.bind fun _ _ _ _ _ => ?_
  refine safe_controllableAgent.bind fun agent _ _ _ hagent => ?_
  cases if action = .start then starting agent else none with
  | some inFlight => exact safe_drive registered_none
  | none => exact (safe_begin hagent).bind fun _ _ _ _ _ => safe_drive registered_none

lemma safe_execute {action : AgentControlAction} {confirmed : Bool} :
    Safe u (execute workspaceId requestId action confirmed now rounds) fun v t =>
      ViewKnown t.trace v := by
  unfold execute
  refine safe_ite (fun _ => safe_throw) fun _ => ?_
  refine safe_ite (fun _ => ?_) fun _ => ?_
  · exact safe_readRecovery.bind fun _ _ _ _ _ => safe_executeLocked
  · exact safe_executeLocked

omit [Digest] in
lemma safe_sendTwice {op : Op Unit} (h : ∀ t : Server, u.trace <:+ t.trace →
    Safe t op fun _ _ => True) : Safe u (sendTwice op) fun _ _ => True :=
  (h u (List.suffix_refl _)).tryCatch fun _ t _ ht => h t ht

lemma safe_stopOne : Safe u (stopOne workspaceId now) fun _ _ => True := by
  unfold stopOne
  refine safe_actorRole.bind fun _ _ _ _ _ => safe_lock.bind fun _ _ _ _ _ => ?_
  refine safe_controllableAgent.bind fun agent t _ _ hagent => ?_
  refine safe_randomUUID.bind fun id v _ hv _ => ?_
  refine (safe_begin (hagent.mono hv)).bind fun state w _ _ _ => ?_
  exact safe_sendTwice fun _ _ => safe_sendStop

lemma safe_startOne {resumePrompt : String} :
    Safe u (startOne workspaceId resumePrompt) fun _ _ => True := by
  unfold startOne
  refine safe_actorRole.bind fun _ _ _ _ _ => safe_lock.bind fun _ _ _ _ _ => ?_
  refine safe_controllableAgent.bind fun agent t _ _ hagent => ?_
  refine safe_randomUUID.bind fun id v _ hv _ => ?_
  refine (safe_begin (hagent.mono hv)).bind fun state w _ _ hstate => ?_
  obtain ⟨hknown, haction⟩ := hstate
  refine safe_sendTwice fun x hx => safe_sendStart (hknown.mono hx) ?_ registered_none
  rw [haction]
  nofun

lemma safe_recover {userId : String} {intent : AgentRecoveryFields} :
    Safe u (recover userId workspaceId requestId intent) fun _ _ => True := by
  unfold recover
  refine safe_authorized.bind fun agent t _ _ hagent => ?_
  refine safe_ite (fun _ => safe_throw) fun _ => ?_
  split
  · exact safe_advance registered_none
  · refine (safe_begin hagent).bind fun state v _ _ hstate => ?_
    exact safe_publish hstate.1 registered_none

lemma safe_publishStart {userId : String} {intent : AgentRecoveryFields} :
    Safe u (publishStart userId workspaceId requestId intent) fun _ _ => True := by
  unfold publishStart
  refine safe_authorized.bind fun agent t _ _ hagent => ?_
  refine safe_ite (fun _ => safe_throw) fun _ => ?_
  split
  · exact safe_publishCurrent registered_none
  · refine (safe_begin hagent).bind fun state v _ _ _ => safe_ite (fun _ => ?_) fun _ => ?_
    · exact safe_publishCurrent registered_none
    · exact safe_readRecovery.bind fun _ _ _ _ _ => safe_publishCurrent registered_none

lemma safe_publishStop {userId : String} :
    Safe u (publishStop userId workspaceId requestId rounds) fun v t => ViewKnown t.trace v := by
  unfold publishStop
  refine safe_authorized.bind fun agent t _ _ hagent => ?_
  refine (safe_begin hagent).bind fun state v _ _ _ => ?_
  refine (safe_drive registered_none).bind fun result w _ _ hresult => ?_
  cases result.phase with
  | completed => exact safe_pure fun x _ hx => hresult.mono hx
  | superseded => exact safe_throw
  | pending | failed => exact safe_throw

lemma safe_startOnSession {userId : String} {session : SubjectSession} :
    Safe u (startOnSession userId workspaceId session rounds) fun v t => ViewKnown t.trace v := by
  unfold startOnSession
  refine safe_randomUUID.bind fun id t _ _ _ => (safe_note rfl).bind fun _ v _ _ hnoted => ?_
  refine safe_lock.bind fun _ w _ hw _ => safe_authorized.bind fun agent x _ hx hagent => ?_
  have hsubject : Registered x.trace (some (id, session)) := by
    intro requestId selected heq
    cases heq
    exact (hw.trans hx).subset hnoted
  have hdrive (driven : String) {y : Server} (hy : x.trace <:+ y.trace) : Safe y (do
      let result ← drive (some (id, session)) driven none rounds none false
      if result.phase = .completed then return result else throw .temporarilyUnavailable)
      fun v t => ViewKnown t.trace v := by
    refine (safe_drive (hsubject.mono hy)).bind fun result z _ _ hresult => ?_
    exact safe_ite (fun _ => safe_pure fun _ _ hle => hresult.mono hle) fun _ => safe_throw
  refine safe_ite (fun _ => safe_throw) fun _ => ?_
  dsimp only
  split
  · exact hdrive _ (List.suffix_refl _)
  · exact (safe_begin hagent).bind fun _ y _ hy _ => hdrive _ hy

end Requests

/-! ### What the daemon sends -/

section Daemon

variable {claim : Claim}

lemma safe_requireCurrentAgentScope {input : AgentControlScope} :
    Safe u (requireCurrentAgentScope claim input) fun pair t => KnownAgent t.trace pair.1 ∧
      pair.2 ∈ pair.1.state ∧ sameScope pair.2.toAgentControlScope input := by
  unfold requireCurrentAgentScope
  refine safe_get.bind fun agent t _ _ hagent => ?_
  split
  · exact safe_throw
  next agent =>
    split
    · exact safe_throw
    next state hstate =>
      obtain ⟨hmem, hfit⟩ := Option.filter_eq_some_iff.mp hstate
      refine safe_ite (fun _ => safe_throw) fun _ => safe_pure fun v _ hv => ?_
      exact ⟨(hagent agent rfl).mono hv, hmem, (of_decide_eq_true hfit).1⟩

lemma safe_result {r : AgentControlResult} : Safe u (result claim r) fun _ _ => True := by
  unfold result
  refine safe_requireCurrentAgentScope.bind fun pair t _ ht hpair => ?_
  obtain ⟨agent, state⟩ := pair
  obtain ⟨hknown, hstate, hscope⟩ := hpair
  dsimp only
  split
  · exact safe_throw
  · exact safe_pure fun _ _ _ => trivial
  next next happly =>
    have hlegit : Write.Legit ⟨.result r, agent, next, false, none⟩ :=
      ⟨rfl, state, hstate, hscope, happly⟩
    refine (safe_replace hlegit hknown).bind fun isWritten v _ _ _ => ?_
    refine safe_ite (fun _ => ?_) fun _ => safe_throw
    refine safe_ite (fun _ => ?_) fun _ => safe_pure fun _ _ _ => trivial
    exact (safe_advance registered_none).result.bind fun _ _ _ _ _ =>
      safe_pure fun _ _ _ => trivial

variable {report : AgentSessionReport}

lemma safe_authorizeReport : Safe u (authorizeReport claim report) fun _ _ => True := by
  unfold authorizeReport
  refine safe_get.bind fun agent t _ _ hagent => ?_
  split
  · exact safe_throw
  refine safe_ite (fun _ => safe_pure fun _ _ _ => trivial) fun _ => ?_
  refine safe_requireCurrentAgentScope.bind fun pair v _ _ _ => ?_
  exact safe_ite (fun _ => safe_throw) fun _ => safe_pure fun _ _ _ => trivial

omit [Digest] in
lemma safe_verify : Safe u (verify report) fun _ _ => True := by
  unfold verify
  refine safe_readSession.bind fun agent t _ _ _ => ?_
  split
  · exact safe_throw
  · exact safe_currentDaemon.bind fun _ _ _ _ _ =>
      safe_ite (fun _ => safe_throw) fun _ => safe_pure fun _ _ _ => trivial

lemma safe_acceptSnapshot {snapshot : AgentSessionSnapshot} :
    Safe u (acceptSnapshot claim snapshot) fun _ _ => True := by
  unfold acceptSnapshot
  refine safe_requireCurrentAgentScope.bind fun pair t _ ht hpair => ?_
  obtain ⟨agent, state⟩ := pair
  obtain ⟨hknown, hstate, hscope⟩ := hpair
  dsimp only
  split
  · exact safe_throw
  · exact safe_pure fun _ _ _ => trivial
  next next happly =>
    have hlegit : Write.Legit ⟨.snapshot snapshot, agent, next, false, none⟩ :=
      ⟨rfl, state, hstate, hscope, happly⟩
    refine (safe_replace hlegit hknown).bind fun isWritten v _ _ _ => ?_
    exact safe_ite (fun _ => safe_pure fun _ _ _ => trivial) fun _ => safe_throw

omit [Digest] in
lemma safe_acceptReport : Safe u (acceptReport report) fun _ _ => True := by
  unfold acceptReport
  refine safe_verify.bind fun old t _ _ _ => ?_
  refine (safe_replaceSession (.inl rfl)).bind fun isWritten v _ _ _ => ?_
  exact safe_ite (fun _ => safe_pure fun _ _ _ => trivial) fun _ => safe_throw

lemma safe_sessionReport : Safe u (sessionReport claim report) fun _ _ => True := by
  unfold sessionReport
  refine safe_ite (fun _ => safe_throw) fun _ => ?_
  refine safe_authorizeReport.bind fun _ t _ _ _ => ?_
  split
  · exact safe_verify.bind fun _ v _ _ _ => safe_acceptSnapshot
  · exact safe_acceptReport

lemma safe_invalidate {message : AgentSessionInvalidate} :
    Safe u (invalidate claim message) fun _ _ => True := by
  have hdone {v : Server} : Safe v (pure () : Op Unit) fun _ _ => True :=
    safe_pure fun _ _ _ => trivial
  unfold invalidate
  refine safe_ite (fun _ => hdone) fun _ => safe_get.bind fun agent t _ _ hagent => ?_
  split
  · exact hdone
  next agent =>
    refine safe_ite (fun _ => hdone) fun _ => ?_
    refine safe_requestDaemon.bind fun r v _ hv _ => ?_
    refine (safe_orUnavailable fun _ _ _ _ _ => trivial).bind fun _ w _ hw (_ : True) => ?_
    refine safe_ite (fun _ => hdone) fun _ => ?_
    split
    · exact hdone
    next state hstate =>
      have hmem : state ∈ agent.state := (Option.filter_eq_some_iff.mp hstate).1
      have hlegit : Write.Legit ⟨.invalidate, agent, { state with identity := none }, true, none⟩ :=
        ⟨rfl, state, hmem, rfl⟩
      refine (safe_replace hlegit ((hagent agent rfl).mono (hv.trans hw))).bind fun _ _ _ _ _ => ?_
      exact hdone

end Daemon

/-! ### Runs -/

omit [Digest] in
lemma safe_viewed {op : Op AgentControlView} (h : Safe u op fun v t => ViewKnown t.trace v) :
    Safe u (viewed op) fun _ _ => True := by
  unfold viewed
  refine h.bind fun v t _ _ hv => safe_update fun s hs hle => ?_
  refine ⟨?_, List.suffix_cons _ _, trivial⟩
  refine hs.note (fun _ _ _ heq => Happening.noConfusion heq)
    (fun _ _ heq => Happening.noConfusion heq) fun w heq => ?_
  obtain rfl := Happening.viewed.inj heq
  exact hv.mono hle

lemma safe_body (task : Task) : Safe u (body task) fun _ _ => True := by
  cases task with
  | execute workspaceId requestId action confirmed now rounds => exact safe_viewed safe_execute
  | stopOne workspaceId now => exact safe_stopOne
  | startOne workspaceId resumePrompt => exact safe_startOne
  | recover userId workspaceId requestId intent => exact safe_recover
  | publishStart userId workspaceId requestId intent => exact safe_publishStart
  | publishStop userId workspaceId requestId rounds => exact safe_viewed safe_publishStop
  | startOnSession userId workspaceId session rounds => exact safe_viewed safe_startOnSession
  | result claim r => exact safe_result
  | sessionReport claim report => exact safe_sessionReport
  | invalidate claim message => exact safe_invalidate

omit [Digest] in
lemma Inv.event {s t : Server} {e : Event} (h : Inv s) (hevent : s.event e = some t) :
    Inv t ∧ s.trace <:+ t.trace := by
  cases e with
  | configure | move | assign | delete | daemon =>
    cases hevent
    exact ⟨h.of_row rfl rfl rfl, List.suffix_refl _⟩

omit [Digest] in
lemma inv_init (row : Agent) (uuid : Nat → { id : String // id ≠ "" }) (daemon : Option String) :
    Inv (.init row uuid daemon) where
  fenced := trivial
  last := rfl
  earned _ hc := nomatch hc
  session _ hc := nomatch hc
  published := trivial
  viewed := trivial

/-- The invariant holds at every point of every run. -/
theorem inv_run {row : Agent} {uuid : Nat → { id : String // id ≠ "" }} {daemon : Option String}
    {moves : List (Async.Move Event Task Outcome)} {t : System}
    (hrun : Transition.run agentControl.step (System.init row uuid daemon) moves = some t) :
    Inv t.shared :=
  growth.inv_run (M := agentControl) (fun _ _ _ hs ht => hs.event ht) (fun _ task _ _ => safe_body task)
    (inv_init row uuid daemon) hrun

end Coforge.ServerControl
