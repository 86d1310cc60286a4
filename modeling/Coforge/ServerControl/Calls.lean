import Coforge.ServerControl.Known
import Coforge.Lib.Growth

/-!
# The control calls keep the invariant

One lemma for each operation: what it needs to know of its arguments, and what is known of its
result. What a call knows is about the trace, which only grows, so it survives the awaits. The
lemmas are put together into the result that every reachable state has the invariant.
-/

namespace Coforge.ServerControl

open Async Async.Growth Option
open Async.Prog (request update)
open Control (SessionIdentity AgentControlScope AgentControlResult AgentSessionSnapshot truthy)

/-- The row keeps the invariant, and the trace grows. -/
def growth : Growth Server where
  inv := Inv
  le s t := s.trace <:+ t.trace
  refl _ := List.suffix_refl _
  trans := List.IsSuffix.trans

/-- The answers of the server's world. -/
def answers (e : Effect) (s : Server) (r : Reply e) (t : Server) : Prop :=
  ∃ o, Server.answer e o s = some (r, t)

/-- An operation that any state above `u` allows, with what is known of its result. -/
abbrev Safe {α : Type} (u : Server) (op : Op α) (G : α → Server → Prop) : Prop :=
  Growth.Safe growth answers u op G

/-! ### What lasts -/

section Mono

variable {past trace : List Happening} {c : ControlState}

lemma Written.mono (h : Written past c) (hle : past <:+ trace) : Written trace c :=
  Trace.of_suffix (S := (Written · c)) (fun _ _ => Written.cons) hle h

lemma Earned.mono (h : Earned past c) (hle : past <:+ trace) : Earned trace c :=
  Trace.of_suffix (S := (Earned · c)) (fun _ _ => Earned.cons) hle h

lemma SourcedFor.mono {sessionId : String} (h : SourcedFor past c sessionId)
    (hle : past <:+ trace) : SourcedFor trace c sessionId :=
  Trace.of_suffix (S := (SourcedFor · c sessionId)) (fun _ _ => SourcedFor.cons) hle h

lemma Known.mono {state : AgentControlState} (h : Known past state) (hle : past <:+ trace) :
    Known trace state :=
  Trace.of_suffix (S := (Known · state)) (fun _ _ => Known.cons) hle h

lemma KnownAgent.mono {agent : AgentControlAgent} (h : KnownAgent past agent)
    (hle : past <:+ trace) : KnownAgent trace agent :=
  Trace.of_suffix (S := (KnownAgent · agent)) (fun _ _ => KnownAgent.cons) hle h

lemma StartKnown.mono {state : ControlState} {intent : AgentStartIntent}
    (h : StartKnown past state intent) (hle : past <:+ trace) : StartKnown trace state intent where
  earned := h.earned.mono hle
  launches := h.launches
  requestId := h.requestId
  epoch := h.epoch
  session sessionId hid := (h.session sessionId hid).mono hle

/-- The subject session of a call was selected for its request. -/
def Registered (past : List Happening) (subject : Subject) : Prop :=
  ∀ requestId session, subject = some (requestId, session) →
    .subject requestId session.sessionId ∈ past

lemma Registered.mono {subject : Subject} (h : Registered past subject) (hle : past <:+ trace) :
    Registered trace subject := fun requestId session heq => hle.subset (h requestId session heq)

lemma registered_none : Registered past none := nofun

end Mono

variable {α : Type} {u : Server}

/-! ### Awaits -/

lemma safe_orUnavailable {r : Except Unit α} {G : α → Server → Prop}
    (h : ∀ a, r = .ok a → ∀ t, Inv t → u.trace <:+ t.trace → G a t) :
    Safe u (orUnavailable r) G := by
  cases r with
  | ok a => exact safe_pure (h a rfl)
  | error e => exact safe_throw

lemma safe_silent {e : Effect} (h : ∀ o s r t, Server.answer e o s = some (r, t) → t = s) :
    Safe u (request e) fun _ _ => True := by
  refine safe_request fun s r t hs hu ht => ?_
  obtain ⟨o, ho⟩ := ht
  rw [h o s r t ho]
  exact ⟨hs, List.suffix_refl _, trivial⟩

lemma safe_get : Safe u get fun agent t => ∀ a ∈ agent, KnownAgent t.trace a := by
  have hreply : Safe u (request Effect.get) fun r t => ∀ agent, r = .ok agent →
      ∀ a ∈ agent, KnownAgent t.trace a := by
    refine safe_request fun s r t hs hu ht => ?_
    obtain ⟨o, ho⟩ := ht
    cases o with
    | done =>
      cases ho
      refine ⟨hs, List.suffix_refl _, fun agent heq a ha => ?_⟩
      cases heq
      exact hs.get ha
    | failed =>
      cases ho
      refine ⟨hs, List.suffix_refl _, fun agent heq => ?_⟩
      cases heq
    | recovery | flag => cases ho
  unfold ServerControl.get
  refine hreply.bind fun r t _ _ hr => safe_orUnavailable fun agent heq v _ hv a ha => ?_
  exact (hr agent heq a ha).mono hv

lemma safe_randomUUID : Safe u randomUUID fun id _ => id ≠ "" := by
  intro s hs hu
  have hinv : Inv { s with drawn := s.drawn + 1 } := hs.of_row rfl rfl rfl
  exact ⟨fun _ => ⟨hinv, List.suffix_refl _⟩, hinv, hu, fun id hid =>
    Except.ok.inj hid ▸ (s.uuid s.drawn).property⟩

lemma safe_launchId : Safe u (some <$> randomUUID) fun launchId _ => ∃ id ∈ launchId, id ≠ "" :=
  (safe_randomUUID.mono fun id _ _ hne => ⟨id, rfl, hne⟩).map

/-- An event that is no write, no publication and no view. -/
def Happening.isOrigin : Happening → Bool
  | .drew _ _ _ | .subject _ _ | .reported _ _ _ => true
  | _ => false

lemma safe_note {event : Happening} (horigin : event.isOrigin) :
    Safe u (update fun s => s.note event) fun _ t => event ∈ t.trace := by
  refine safe_update fun s hs _ => ⟨?_, List.suffix_cons _ _, List.mem_cons_self⟩
  refine hs.note (fun cause before after heq => ?_) (fun state intent heq => ?_) fun v heq => ?_
  · rw [heq] at horigin
    cases horigin
  · rw [heq] at horigin
    cases horigin
  · rw [heq] at horigin
    cases horigin

lemma safe_authorized {userId workspaceId : String} :
    Safe u (authorized userId workspaceId) fun agent t => KnownAgent t.trace agent := by
  unfold authorized
  refine safe_get.bind fun agent t _ _ hagent => ?_
  split
  · exact safe_throw
  next agent =>
    refine safe_ite (fun _ => safe_throw) fun _ => safe_pure fun v _ hv => ?_
    exact (hagent agent rfl).mono hv

section Writes

variable [Digest]

/-- A legitimate write of what was read. Afterwards the operation is known as it was written. -/
lemma safe_replace {w : Write} (hlegit : w.Legit) (hknown : KnownAgent u.trace w.before) :
    Safe u (replace w) fun isWritten t => isWritten = true → Known t.trace w.state := by
  have hreply : Safe u (request (Effect.replace w)) fun r t =>
      r = .ok true → Known t.trace w.state := by
    refine safe_request fun s r t hs hu ht => ?_
    obtain ⟨o, ho⟩ := ht
    cases o with
    | done => exact hs.replace hlegit (hknown.mono hu) (some.inj ho)
    | failed =>
      cases ho
      exact ⟨hs, List.suffix_refl _, nofun⟩
    | recovery | flag => cases ho
  unfold ServerControl.replace
  refine hreply.bind fun r t _ _ hr => ?_
  cases r with
  | ok isWritten => exact safe_pure fun v _ hv heq => (hr (heq ▸ rfl)).mono hv
  | error e => exact safe_throw

end Writes

lemma FenceWrite.Legit.mono {w : FenceWrite} {past trace : List Happening} (h : w.Legit past)
    (hle : past <:+ trace) : w.Legit trace := by
  refine h.imp_right fun h sessionId hid => (h sessionId hid).imp_right ?_
  rintro ⟨c, hwritten, hrequest, hepoch, hsourced⟩
  exact ⟨c, hwritten.mono hle, hrequest, hepoch, hsourced.mono hle⟩

lemma safe_replaceSession {w : FenceWrite} (hlegit : w.Legit u.trace) :
    Safe u (replaceSession w) fun isWritten t => isWritten = true → ∀ c : ControlState,
      Written u.trace c → w.scope.controlEpoch = some c.epoch → ∀ p ∈ w.previous,
        ∀ sessionId ∈ p.sessionId, SourcedFor t.trace c sessionId := by
  have hreply : Safe u (request (Effect.replaceSession w)) fun r t => r = .ok true →
      ∀ c : ControlState, Written u.trace c → w.scope.controlEpoch = some c.epoch →
        ∀ p ∈ w.previous, ∀ sessionId ∈ p.sessionId, SourcedFor t.trace c sessionId := by
    refine safe_request fun s r t hs hu ht => ?_
    obtain ⟨o, ho⟩ := ht
    cases o with
    | done =>
      obtain ⟨ht, hle, hstart⟩ := hs.replaceSession (hlegit.mono hu) (some.inj ho)
      exact ⟨ht, hle, fun hr c hc => hstart hr c (hc.mono hu)⟩
    | failed =>
      cases ho
      exact ⟨hs, List.suffix_refl _, nofun⟩
    | recovery | flag => cases ho
  unfold ServerControl.replaceSession
  refine hreply.bind fun r t _ _ hr => safe_orUnavailable fun isWritten heq v _ hv hwritten => ?_
  intro c hc hepoch p hp sessionId hid
  exact (hr (heq.trans (congrArg _ hwritten)) c hc hepoch p hp sessionId hid).mono hv

lemma safe_readSession : Safe u readSession fun _ _ => True := by
  unfold ServerControl.readSession
  refine Safe.bind (safe_silent fun o s r t ho => ?_) fun r _ _ _ _ =>
    safe_orUnavailable fun _ _ _ _ _ => trivial
  cases o <;> cases ho <;> rfl

lemma safe_requestDaemon : Safe u (request Effect.currentDaemon) fun _ _ => True := by
  refine safe_silent fun o s r t ho => ?_
  cases o <;> cases ho <;> rfl

lemma safe_currentDaemon : Safe u currentDaemon fun _ _ => True :=
  safe_requestDaemon.bind fun _ _ _ _ _ =>
    (safe_orUnavailable fun _ _ _ _ _ => trivial).bind fun _ _ _ _ (_ : True) =>
      safe_pure fun _ _ _ => trivial

/-! ### Sessions -/

section Prepare

variable {usable : Option RuntimeSessionReference} {intent : AgentStartIntent}

lemma safe_selectSession :
    Safe u (selectSession usable intent) fun selected t => ∀ sessionId ∈ selected,
      intent.sessionId = some sessionId ∨ (∃ o ∈ usable, o.sessionId = some sessionId) ∨
        .drew intent.requestId intent.controlEpoch sessionId ∈ t.trace := by
  unfold selectSession
  split
  · next selected hselected =>
    refine safe_pure fun t _ _ sessionId hid => ?_
    obtain rfl : selected = sessionId := some.inj hid
    rcases or_eq_some_iff.mp hselected with hintent | ⟨-, hfence⟩
    · exact .inl hintent
    · obtain ⟨o, ho, hid⟩ := bind_eq_some_iff.mp hfence
      exact .inr (.inl ⟨o, (filter_eq_some_iff.mp ho).1, hid⟩)
  · refine safe_ite (fun _ => ?_) fun _ => ?_
    · refine safe_randomUUID.bind fun drawn t _ _ _ => ?_
      refine (safe_note rfl).bind fun _ v _ _ hv => ?_
      refine safe_pure fun w _ hw sessionId hid => .inr (.inr ?_)
      obtain rfl : drawn = sessionId := some.inj hid
      exact hw.subset hv
    · exact safe_pure fun _ _ _ _ hid => nomatch hid

/-- A Start keeps its request, and its session is the intent's or a new one of the launch. -/
lemma safe_prepare {c : ControlState} (h : StartKnown u.trace c intent) :
    Safe u (prepare intent) fun selected t => StartKnown t.trace c selected := by
  have hepoch : intent.writeScope.controlEpoch = some c.epoch := h.epoch
  unfold prepare
  refine safe_readSession.bind fun agent t _ ht _ => ?_
  refine safe_ite (fun _ => safe_throw) fun _ => ?_
  refine safe_currentDaemon.bind fun daemon v _ hv _ => ?_
  have hle : u.trace <:+ v.trace := ht.trans hv
  cases daemon with
  | none => exact safe_throw
  | some daemonInstanceId =>
    dsimp only
    split
    · next o ho =>
      -- the launch there is, on the daemon it was for
      have husable := (filter_eq_some_iff.mp ho).1
      have hrequest : o.startRequestId = intent.requestId := by
        have hfit := (filter_eq_some_iff.mp husable).2
        simpa [h.epoch] using (of_decide_eq_true hfit).2.2
      have hlegit : FenceWrite.Legit v.trace ⟨some o, o, intent.writeScope, false⟩ :=
        .inr fun sessionId hid => .inl ⟨o, rfl, hid⟩
      refine safe_ite (fun _ => safe_throw) fun _ => ?_
      refine (safe_replaceSession hlegit).bind fun isWritten w _ hw hstart => ?_
      refine safe_ite (fun hdone => ?_) fun _ => safe_throw
      refine safe_pure fun x _ hx => ?_
      have hnow := h.mono (hle.trans (hw.trans hx))
      refine ⟨hnow.earned, hnow.launches, hrequest.trans h.requestId, h.epoch, fun sessionId hid => ?_⟩
      exact (hstart hdone c (h.earned.written.mono hle) hepoch o rfl sessionId hid).mono hx
    · refine safe_selectSession.bind fun selected w _ hw hselected => ?_
      refine safe_ite (fun _ => safe_throw) fun _ => ?_
      have hknown := h.mono (hle.trans hw)
      have hwritten := hknown.earned.written
      have horigin : ∀ sessionId ∈ selected, (∃ p ∈ agent.reference,
          p.sessionId = some sessionId) ∨ SourcedFor w.trace c sessionId := by
        intro sessionId hid
        rcases hselected sessionId hid with hintent | ⟨o, ho, hfence⟩ | hdrew
        · exact .inr (hknown.session sessionId hintent)
        · exact .inl ⟨o, (filter_eq_some_iff.mp ho).1, hfence⟩
        · rw [h.requestId, h.epoch] at hdrew
          exact .inr fun _ => .drawn hdrew
      have hlegit : FenceWrite.Legit w.trace ⟨agent.reference,
          nextReference (usableReference agent.reference intent) intent daemonInstanceId selected
            (selectMode (usableReference agent.reference intent) intent selected),
          intent.writeScope, false⟩ :=
        .inr fun sessionId hid => (horigin sessionId hid).imp_right fun hsourced =>
          ⟨c, hwritten, h.requestId, h.epoch, hsourced⟩
      refine (safe_replaceSession hlegit).bind fun isWritten x _ hx hstart => ?_
      refine safe_ite (fun hdone => ?_) fun _ => safe_throw
      refine safe_pure fun y _ hy => ?_
      have hnow := hknown.mono (hx.trans hy)
      refine ⟨hnow.earned, hnow.launches, h.requestId, h.epoch, fun sessionId hid => ?_⟩
      rcases or_eq_some_iff.mp hid with hnew | ⟨-, hintent⟩
      · have hnew : selected = some sessionId := (filter_eq_some_iff.mp hnew).1
        rcases horigin sessionId hnew with ⟨p, hp, hfence⟩ | hsourced
        · exact (hstart hdone c hwritten hepoch p hp sessionId hfence).mono hy
        · exact hsourced.mono (hx.trans hy)
      · exact hnow.session sessionId hintent

end Prepare

/-! ### Publishing -/

lemma safe_send {state : AgentControlState} {command : Command}
    (h : ∀ intent, command = .start intent → StartKnown u.trace state.toControlState intent) :
    Safe u (send state command) fun _ _ => True := by
  have hnoted {s : Server} (hs : Inv s) (hu : u.trace <:+ s.trace) :
      Inv (s.note (.published state.toControlState command)) := by
    refine hs.note (fun _ _ _ heq => Happening.noConfusion heq) (fun c intent heq => ?_)
      fun v heq => Happening.noConfusion heq
    obtain ⟨rfl, rfl⟩ := Happening.published.inj heq
    exact (h intent rfl).mono hu
  have hreply : Safe u (request (Effect.publish state command)) fun _ _ => True := by
    refine safe_request fun s r t hs hu ht => ?_
    obtain ⟨o, ho⟩ := ht
    cases o with
    | done | flag =>
      cases ho
      exact ⟨hnoted hs hu, List.suffix_cons _ _, trivial⟩
    | failed =>
      cases ho
      exact ⟨hs, List.suffix_refl _, trivial⟩
    | recovery => cases ho
  unfold send
  exact hreply.bind fun _ _ _ _ _ => safe_orUnavailable fun _ _ _ _ _ => trivial

section Start

variable {subject : Subject} {agent : AgentControlAgent} {state : AgentControlState}
  {launchId : Option String} {recovery : Option AgentRecoveryFields} {resumePrompt : Option String}

/-- Before its session is selected, a Start has none but the one its caller selected, or the one
the operation resumes. -/
lemma startIntent_known {past : List Happening} (h : Known past state)
    (hlaunches : state.action.isReset → state.phase.launches) (hsubject : Registered past subject) :
    StartKnown past state.toControlState
      (startIntent subject agent state launchId recovery resumePrompt) where
  earned := h.earned
  launches := hlaunches
  requestId := rfl
  epoch := rfl
  session sessionId hid := by
    simp only [startIntent] at hid
    split at hid
    · next selected hselected =>
      obtain ⟨⟨requestId, session⟩, hfor, rfl⟩ := map_eq_some_iff.mp hselected
      obtain ⟨hmine, hrequest⟩ := filter_eq_some_iff.mp hfor
      obtain rfl : session.sessionId = sessionId := some.inj hid
      have hrequest : requestId = state.requestId := of_decide_eq_true hrequest
      exact fun _ => .subject (hrequest ▸ hsubject requestId session hmine)
    · have hresumed : resumedSession state = some sessionId := hid
      unfold resumedSession at hresumed
      split_ifs at hresumed
      obtain ⟨i, hi, rfl⟩ := map_eq_some_iff.mp hresumed
      intro hreset
      exact h.session (hlaunches hreset) i (filter_eq_some_iff.mp hi).1 hreset

lemma safe_sendStart (h : Known u.trace state)
    (hlaunches : state.action.isReset → state.phase.launches) (hsubject : Registered u.trace subject) :
    Safe u (sendStart subject agent state launchId recovery resumePrompt) fun _ _ => True := by
  refine (safe_prepare (startIntent_known h hlaunches hsubject)).bind fun selected t _ _ ht => ?_
  refine safe_send fun intent heq => ?_
  cases heq
  exact ht

lemma safe_sendStop : Safe u (sendStop state) fun _ _ => True :=
  safe_send fun _ heq => nomatch heq

lemma safe_launchIdFor (h : Known u.trace state) (hstarting : state.phase = .starting) :
    Safe u (launchIdFor agent state) fun _ _ => True := by
  obtain ⟨id, hid, hne⟩ := h.earned.launch (.inl hstarting)
  have htruthy : truthy state.launchId = some id :=
    filter_eq_some_iff.mpr ⟨hid, by simpa using hne⟩
  unfold launchIdFor
  rw [htruthy]
  exact safe_pure fun _ _ _ => trivial

lemma safe_readRecovery : Safe u readRecovery fun _ _ => True := by
  refine safe_silent fun o s r t ho => ?_
  cases o <;> cases ho
  rfl

lemma safe_publish (h : Known u.trace state) (hsubject : Registered u.trace subject) :
    Safe u (publish subject agent state recovery) fun _ _ => True := by
  unfold publish
  split
  next => exact safe_sendStop
  next => exact safe_send fun _ heq => nomatch heq
  next hstarting =>
    have hstart (recovery : Option AgentRecoveryFields) {t : Server} (ht : u.trace <:+ t.trace) :
        Safe t (do
          let launchId ← launchIdFor agent state
          sendStart subject agent state launchId recovery none) fun _ _ => True := by
      refine (safe_launchIdFor (h.mono ht) hstarting).bind fun launchId v _ hv _ => ?_
      exact safe_sendStart (h.mono (ht.trans hv)) (fun _ => by rw [hstarting]; rfl)
        (hsubject.mono (ht.trans hv))
    refine safe_ite (fun _ => ?_) fun _ => ?_
    · exact safe_readRecovery.bind fun recovery t _ ht _ => hstart recovery ht
    · exact hstart recovery (List.suffix_refl _)
  next hcompleted =>
    refine safe_ite (fun _ => ?_) fun _ => safe_pure fun _ _ _ => trivial
    exact safe_sendStart h (fun _ => by rw [hcompleted]; rfl) hsubject
  next => exact safe_pure fun _ _ _ => trivial

end Start

end Coforge.ServerControl
