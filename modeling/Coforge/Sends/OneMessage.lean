import Coforge.Sends.Network
import Coforge.Sends.Sound

/-!
# One key, one message

The record of a key keeps a second message away as long as a persist callback that throws has
committed nothing. `sendAgentMessage` breaks this when it resolves the sender it reports after
its transaction: the message of an Agent whose name is no public handle is committed, the claim of
its key is given up with the error, and the next copy of the request commits another.

What a settlement sends, and what it reports of the server's answers, holds in every run.
-/

namespace Coforge.Sends

open Async Transition Option

/-! ### What a settlement promises -/

/-- The refusal a failure comes from. -/
def Failure.refusal? : Failure → Option AgentExplainedRefusalError
  | .refusal error     => some error
  | .verdict _ cause _ => cause.refusal?
  | _                  => none

/-- What a settlement of `send` may return or throw: a message only if it was committed under the
send's key, a hold only if the server answered the send with it, and a refusal likewise. -/
def World.Honest (w : World) (call : Nat) (send : AgentMessageRequest) :
    Except Failure AgentMessageTransportResponse → Prop
  | .ok response =>
    (response.accepted = true →
      ∃ id, response.messageId = some id ∧ w.server.Committed (.send call send) id) ∧
    (response.accepted = false → ∃ decided,
      (Request.send call send, Answer.decided decided) ∈ w.server.answers ∧
        decided.state = .held ∧ response = adaptAgentSendResponse decided)
  | .error failure => ∀ refusal, failure.refusal? = some refusal →
    (Request.send call send, Answer.refused refusal) ∈ w.server.answers

/-- The notes a settlement of the send ends up with, at most. -/
def AgentMessageRequest.notes (send : AgentMessageRequest) : List Note :=
  [.sent send, .absent send.reconciliation, .sent send]

/-- A settlement sends one request at most twice, the second time only after the server answered
that its key is absent, and its result is honest. -/
structure World.Settles (w : World) (call : Nat) (send : AgentMessageRequest) : Prop where
  sends : w.journal call <+: send.notes
  absent : ∀ request, .absent request ∈ w.journal call →
    (Request.reconcile call request, Answer.reconciled .notFound) ∈ w.server.answers
  honest : ∀ result, w.results call = some result → w.Honest call send result

variable {w u : World} {call : Nat} {send : AgentMessageRequest}

lemma World.Honest.grows {result : Except Failure AgentMessageTransportResponse}
    (h : w.Honest call send result) (hgrows : Server.Grows w.server u.server) :
    u.Honest call send result := by
  cases result with
  | ok response =>
    refine ⟨fun haccepted => ?_, fun hheld => ?_⟩
    · exact (h.1 haccepted).imp fun id hid => ⟨hid.1, hid.2.grows hgrows⟩
    · exact (h.2 hheld).imp fun decided hd => ⟨hgrows.answers hd.1, hd.2⟩
  | error failure => exact fun refusal hrefusal => hgrows.answers (h refusal hrefusal)

lemma World.Settles.grows (h : w.Settles call send) (hgrows : Server.Grows w.server u.server)
    (hjournal : u.journal call = w.journal call) (hresults : u.results call = w.results call) :
    u.Settles call send where
  sends := hjournal ▸ h.sends
  absent request hmem := hgrows.answers (h.absent request (hjournal ▸ hmem))
  honest result hresult := (h.honest result (hresults ▸ hresult)).grows hgrows

/-! ### The context of a settlement -/

/-- What the others may do while a settlement waits. -/
structure Apart (call : Nat) (w u : World) : Prop where
  journal : u.journal call = w.journal call
  results : u.results call = w.results call
  grows : Server.Grows w.server u.server
  sound : w.server.Sound → u.server.Sound

lemma Apart.refl (call : Nat) (w : World) : Apart call w w := ⟨rfl, rfl, .refl _, id⟩

lemma Apart.trans {v : World} (h : Apart call w u) (h' : Apart call u v) : Apart call w v :=
  ⟨h'.journal.trans h.journal, h'.results.trans h.results, h.grows.trans h'.grows,
    h'.sound ∘ h.sound⟩

/-- What a settlement may do: it leaves the server and the others alone. -/
structure Own (call : Nat) (w u : World) : Prop where
  server : u.server = w.server
  journal : ∀ other, other ≠ call → u.journal other = w.journal other
  results : ∀ other, other ≠ call → u.results other = w.results other
  settles : (∃ send, w.Settles call send) → ∃ send, u.Settles call send

lemma Own.refl (call : Nat) (w : World) : Own call w w :=
  ⟨rfl, fun _ _ => rfl, fun _ _ => rfl, id⟩

lemma Own.trans {v : World} (h : Own call w u) (h' : Own call u v) : Own call w v :=
  ⟨h'.server.trans h.server, fun o ho => (h'.journal o ho).trans (h.journal o ho),
    fun o ho => (h'.results o ho).trans (h.results o ho), h'.settles ∘ h.settles⟩

lemma Own.apart {other : Nat} (h : Own call w u) (hne : call ≠ other) : Apart other w u :=
  ⟨h.journal other hne.symm, h.results other hne.symm, h.server ▸ .refl _, h.server ▸ id⟩

def context (call : Nat) : Prog.Context World Effect.Reply where
  rely := Apart call
  answer e w r u := ∃ o, answer w e o = some (r, u)
  guar := Own call
  issue _ _ := True

lemma answer_same {e : Effect} {o : Outcome} {r : e.Reply} (h : answer w e o = some (r, u)) :
    u = w := by
  cases e <;> cases o <;> simp only [answer, map_eq_some_iff, reduceCtorEq] at h
  all_goals first
    | cases h
      rfl
    | obtain ⟨a, -, ha⟩ := h
      cases ha
      rfl

/-! ### One settlement -/

/-- The settlement of `send` has noted `notes` and has no result yet. -/
structure Stage (call : Nat) (notes : List Note) (w : World) : Prop where
  sound : w.server.Sound
  journal : w.journal call = notes
  results : w.results call = none
  absent : ∀ request, .absent request ∈ notes →
    (Request.reconcile call request, Answer.reconciled .notFound) ∈ w.server.answers

variable {notes : List Note}

lemma Stage.apart (h : Stage call notes w) (hrely : Apart call w u) : Stage call notes u :=
  ⟨hrely.sound h.sound, hrely.journal.trans h.journal, hrely.results.trans h.results,
    fun request hmem => hrely.grows.answers (h.absent request hmem)⟩

lemma Stage.settles (h : Stage call notes w) (hnotes : notes <+: send.notes) :
    w.Settles call send where
  sends := h.journal ▸ hnotes
  absent request hmem := h.absent request (h.journal ▸ hmem)
  honest result hresult := by
    rw [h.results] at hresult
    cases hresult

/-! ### What the answers say -/

lemma refusal?_explained {refusal refusal' : AgentExplainedRefusalError}
    (h : (explained refusal).refusal? = some refusal') : refusal = refusal' := by
  simp only [explained] at h
  split at h
  · exact some.inj h
  · cases h

lemma mem_of_answerTo {s : Server} {request : Request} {n : Nat} {a : Answer}
    (h : s.answerTo request n = some a) : (request, a) ∈ s.answers := by
  obtain ⟨⟨asked, a'⟩, hget, hasked⟩ := bind_eq_some_iff.mp h
  obtain ⟨rfl, rfl⟩ := by simpa using hasked
  exact List.mem_of_getElem? hget

lemma honest_readSend {a : Answer} (hsound : w.server.Sound)
    (hmem : (Request.send call send, a) ∈ w.server.answers) : w.Honest call send a.readSend := by
  have hbacked := hsound.answers _ hmem
  cases a with
  | decided response =>
    refine ⟨fun haccepted => hbacked.2 (of_decide_eq_true haccepted), fun hheld => ?_⟩
    have hsent : response.state ≠ .sent := of_decide_eq_false hheld
    cases hstate : response.state with
    | sent => exact absurd hstate hsent
    | held => exact ⟨response, hmem, hstate, rfl⟩
    | committed => exact absurd hstate hbacked.1
  | reconciled response => exact fun refusal h => nomatch h
  | refused refusal =>
    intro refusal' h
    obtain rfl := refusal?_explained h
    exact hmem
  | failed status => exact fun refusal h => nomatch h

lemma honest_answer {o : Outcome} {r : Except Failure AgentMessageTransportResponse}
    (hsound : w.server.Sound) (h : answer w (.send call send) o = some (r, u)) :
    w.Honest call send r := by
  cases o with
  | received n =>
    obtain ⟨a, ha, heq⟩ := map_eq_some_iff.mp h
    cases heq
    exact honest_readSend hsound (mem_of_answerTo ha)
  | lost error =>
    cases h
    exact fun refusal h => nomatch h
  | threw message =>
    cases h
    exact fun refusal h => nomatch h
  | draft holds => cases h

/-- What a reconciliation may be told: that the key committed a message, or that the server knows
nothing of it. -/
def World.Reconciles (w : World) (call : Nat) (send : AgentMessageRequest) :
    Except Failure AgentSendReconciliationResponse → Prop
  | .ok (.committed response) => w.server.Committed (.send call send) response.messageId
  | .ok .notFound =>
    (Request.reconcile call send.reconciliation, Answer.reconciled .notFound) ∈ w.server.answers
  | .error _ => True

lemma reconciles_answer {o : Outcome} {r : Except Failure AgentSendReconciliationResponse}
    (hsound : w.server.Sound) (h : answer w (.reconcile call send.reconciliation) o = some (r, u)) :
    w.Reconciles call send r := by
  cases o with
  | received n =>
    obtain ⟨a, ha, heq⟩ := map_eq_some_iff.mp h
    cases heq
    have hmem := mem_of_answerTo ha
    have hbacked := hsound.answers _ hmem
    cases a with
    | reconciled response =>
      cases response with
      | committed response => exact hbacked
      | notFound => exact hmem
    | decided response => trivial
    | refused refusal => trivial
    | failed status => trivial
  | lost error =>
    cases h
    trivial
  | threw message =>
    cases h
    trivial
  | draft holds => cases h

/-! ### The ports -/

section Ports

open Prog

lemma Stage.note (h : Stage call notes w) {entry : Note} (hserver : u.server = w.server)
    (hjournal : u.journal = (w.note call entry).journal) (hresults : u.results = w.results)
    (habsent : ∀ request, entry = .absent request →
      (Request.reconcile call request, Answer.reconciled .notFound) ∈ w.server.answers)
    (hnotes : notes ++ [entry] <+: send.notes) :
    Own call w u ∧ Stage call (notes ++ [entry]) u := by
  have hstage : Stage call (notes ++ [entry]) u := by
    refine ⟨hserver ▸ h.sound, ?_, hresults ▸ h.results, fun request hmem => ?_⟩
    · simp only [hjournal, World.note, Function.update_self, h.journal]
    · rw [hserver]
      rcases List.mem_append.mp hmem with hmem | hmem
      · exact h.absent request hmem
      · exact habsent request (List.mem_singleton.mp hmem).symm
  refine ⟨⟨hserver, fun o ho => ?_, fun o _ => by rw [hresults], fun _ => ⟨send, ?_⟩⟩, hstage⟩
  · rw [hjournal]
    exact Function.update_of_ne ho ..
  · exact hstage.settles hnotes

lemma wp_effect (e : Effect) {Q : Except Failure e.Reply → World → Prop}
    (h : ∀ t r o, Apart call w t → answer t e o = some (r, t) → Q (.ok r) t) :
    wp (context call) (Prog.request e) Q w := by
  refine ⟨trivial, fun t hrely r t' ⟨o, hans⟩ => ?_⟩
  obtain rfl := answer_same hans
  exact ⟨.refl .., h t' r o hrely hans⟩

lemma wp_portSend {Q : Except Failure AgentMessageTransportResponse → World → Prop}
    (hstage : Stage call notes w) (hnotes : notes ++ [.sent send] <+: send.notes)
    (h : ∀ r t, Stage call (notes ++ [.sent send]) t → t.Honest call send r → Q r t) :
    wp (context call) ((ports call).send send) Q w := by
  obtain ⟨hown, hstage'⟩ := @Stage.note _ ((w.put (.send call send)).note call (.sent send)) _ _ _ hstage (.sent send)
    rfl rfl rfl nofun hnotes
  refine wp_bind.mpr ⟨hown, wp_bind.mpr (wp_effect (.send call send) ?_)⟩
  intro t (r : Except Failure AgentMessageTransportResponse) o hrely hans
  have hlater := hstage'.apart hrely
  change wp (context call) (Prog.ofExcept r) Q t
  rw [wp_ofExcept]
  exact h r t hlater (honest_answer hlater.sound hans)

lemma wp_portReconcile {Q : Except Failure AgentSendReconciliationResponse → World → Prop}
    (hstage : Stage call notes w) (hnotes : notes ++ [.absent send.reconciliation] <+: send.notes)
    (hfound : ∀ response t, Stage call notes t →
      t.server.Committed (.send call send) response.messageId → Q (.ok (.committed response)) t)
    (habsent : ∀ t, Stage call (notes ++ [.absent send.reconciliation]) t → Q (.ok .notFound) t)
    (hfailed : ∀ error t, Apart call w t → Stage call notes t → Q (.error error) t) :
    wp (context call) ((ports call).reconcile send.reconciliation) Q w := by
  have hput : Own call w (w.put (.reconcile call send.reconciliation)) :=
    ⟨rfl, fun _ _ => rfl, fun _ _ => rfl, fun ⟨send, hs⟩ => ⟨send, hs.grows (.refl _) rfl rfl⟩⟩
  have hstage' : Stage call notes (w.put (.reconcile call send.reconciliation)) :=
    ⟨hstage.sound, hstage.journal, hstage.results, hstage.absent⟩
  refine wp_bind.mpr ⟨hput, wp_bind.mpr (wp_effect (.reconcile call send.reconciliation) ?_)⟩
  intro t (r : Except Failure AgentSendReconciliationResponse) o hrely hans
  have hlater := hstage'.apart hrely
  have hreconciles := reconciles_answer hlater.sound hans
  cases r with
  | error error =>
    exact hfailed error t ⟨hrely.journal, hrely.results, hrely.grows, hrely.sound⟩ hlater
  | ok response =>
    cases response with
    | committed response => exact hfound response t hlater hreconciles
    | notFound =>
      have hnote (request : AgentSendReconciliationRequest)
          (heq : Note.absent send.reconciliation = .absent request) :
          (Request.reconcile call request, Answer.reconciled .notFound) ∈ t.server.answers := by
        cases heq
        exact hreconciles
      obtain ⟨hown, hnoted⟩ := hlater.note (u := t.note call (.absent send.reconciliation))
        rfl rfl rfl hnote hnotes
      exact ⟨hown, habsent _ hnoted⟩

lemma wp_portDraft {target key : String} {Q : Except Failure Bool → World → Prop}
    (h : ∀ r t, Apart call w t → Q r t) :
    wp (context call) ((ports call).draftHoldsKey target key) Q w := by
  refine wp_bind.mpr (wp_effect (.draftHoldsKey target key) ?_)
  intro t (r : Except Failure Bool) o hrely hans
  change wp (context call) (Prog.ofExcept r) Q t
  rw [wp_ofExcept]
  exact h r t hrely

/-! ### The settlement -/

/-- The settlement is through: its notes are in order and its outcome is honest. -/
def Settled (call : Nat) (send : AgentMessageRequest)
    (r : Except Failure AgentMessageTransportResponse) (w : World) : Prop :=
  ∃ notes, notes <+: send.notes ∧ Stage call notes w ∧ w.Honest call send r

/-- A verdict on a failure comes from the same refusal, whatever was looked up meanwhile. -/
lemma settled_verdict {failure : Failure} (hnotes : notes <+: send.notes)
    (hstage : Stage call notes w) (hhonest : w.Honest call send (.error failure))
    (hrely : Apart call w u) (message : String) (verdict : AgentSendVerdict) :
    Settled call send (.error (.verdict message failure verdict)) u :=
  ⟨notes, hnotes, hstage.apart hrely,
    fun refusal h => World.Honest.grows (u := u) hhonest hrely.grows refusal h⟩

lemma wp_settle {reviewerIsolation : Bool} (hstage : Stage call [] w) :
    wp (context call) (settleAgentSend send (ports call) reviewerIsolation)
      (Settled call send) w := by
  have hfirst : [.sent send] <+: send.notes := ⟨_, rfl⟩
  have hsecond : [.sent send, .absent send.reconciliation] <+: send.notes := ⟨_, rfl⟩
  refine wp_settleAgentSend (wp_portSend hstage hfirst ?_)
  intro r t hstage hhonest
  cases r with
  | ok response => exact ⟨_, hfirst, hstage, hhonest⟩
  | error failure =>
    refine ⟨fun _ => ?_, fun _ => wp_reconcileSend ?_, ⟨_, hfirst, hstage, hhonest⟩⟩
    · exact wp_portDraft fun _ u hrely => settled_verdict hfirst hstage hhonest hrely
    · refine wp_portReconcile hstage hsecond ?_ ?_ ?_
      · intro response u hlater hcommitted
        exact ⟨_, hfirst, hlater, fun _ => ⟨_, rfl, hcommitted⟩, nofun⟩
      · intro u hlater
        refine wp_replaySend (wp_portSend hlater (List.prefix_refl _) ?_)
        intro r v hreplayed hhonest
        cases r with
        | ok response => exact ⟨_, List.prefix_refl _, hreplayed, hhonest⟩
        | error replayFailure =>
          exact wp_portDraft fun _ u hrely =>
            settled_verdict (List.prefix_refl _) hreplayed hhonest hrely
      · intro error u hrely hlater
        exact ⟨_, hfirst, hlater, hhonest.grows hrely.grows⟩

lemma wp_settlement {task : Task} (hstage : Stage call [] w) :
    wp (context call) (settlement call task) (fun _ _ => True) w := by
  refine wp_bind.mpr (wp_result.mpr (wp_mono ?_ (wp_settle hstage)))
  rintro r t ⟨notes, hnotes, hstage, hhonest⟩
  simp only [either_ok, wp_update]
  refine ⟨⟨rfl, fun _ _ => rfl, fun o ho => Function.update_of_ne ho .., fun _ => ⟨task.send, ?_⟩⟩,
    trivial⟩
  refine ⟨hstage.journal ▸ hnotes, fun request hmem => ?_, fun result hresult => ?_⟩
  · exact hstage.absent request (hstage.journal ▸ hmem)
  · have heq : r = result := by simpa [World.record] using hresult
    exact heq ▸ hhonest.grows (.refl _)

end Ports

/-! ### All runs -/

lemma event_spec {sender : Sender} {l : Event} (hsound : w.server.Sound)
    (h : event sender w l = some u) :
    u.server.Sound ∧ Server.Grows w.server u.server ∧ u.journal = w.journal ∧
      u.results = w.results := by
  cases l with
  | arrive n random =>
    obtain ⟨request, -, rfl⟩ := map_eq_some_iff.mp h
    exact ⟨hsound.arrive request random, ⟨fun _ _ => id, fun _ => id⟩, rfl, rfl⟩
  | serve i l =>
    obtain ⟨server, hserver, rfl⟩ := map_eq_some_iff.mp h
    obtain ⟨hsound', hgrows⟩ := Server.step_spec hsound hserver
    exact ⟨hsound', hgrows, rfl, rfl⟩

def networkSpec (sender : Sender) : Pool.Spec (network sender) where
  inv w := w.server.Sound ∧ ∀ call, ∃ send, w.Settles call send
  context := context
  fresh call w := w.journal call = [] ∧ w.results call = none
  away _ _ := True
  rely_refl call w _ := .refl call w
  rely_trans _ _ _ _ := .trans
  guar_refl := .refl
  guar_trans _ _ _ _ := .trans
  guar_inv call w u hw h := by
    refine ⟨h.server ▸ hw.1, fun other => ?_⟩
    by_cases hother : other = call
    · exact hother ▸ h.settles (hw.2 call)
    · obtain ⟨send, hsend⟩ := hw.2 other
      exact ⟨send, hsend.grows (h.server ▸ .refl _) (h.journal other hother)
        (h.results other hother)⟩
  guar_rely _ _ _ _ hne _ h := h.apart hne
  event_inv w l u hw h := by
    obtain ⟨hsound, hgrows, hjournal, hresults⟩ := event_spec hw.1 h
    refine ⟨hsound, fun call => (hw.2 call).imp fun send hsend => ?_⟩
    exact hsend.grows hgrows (congrFun hjournal call) (congrFun hresults call)
  event_rely call w l u hw h := by
    obtain ⟨hsound, hgrows, hjournal, hresults⟩ := event_spec hw.1 h
    exact ⟨congrFun hjournal call, congrFun hresults call, hgrows, fun _ => hsound⟩
  fresh_rely _ _ _ hw h := ⟨h.journal.trans hw.1, h.results.trans hw.2⟩
  away_rely _ _ _ _ _ := trivial
  answer_of _ _ o _ _ _ h := ⟨o, h⟩
  body_safe _ _ _ hw hfresh := wp_settlement ⟨hw.1, hfresh.1, hfresh.2, nofun⟩

/-! ### Orphans -/

/-- The callback does not throw once its row is committed. -/
def Transaction.Acknowledged (sender : Sender) : Transaction → Prop
  | .committed _      => sender.resolves = true
  | .unacknowledged _ => False
  | .rolledBack _     => True

/-- No persist callback throws once its row is committed. -/
def Acknowledged (sender : Sender) : Move Event Task Outcome → Prop
  | .event (.serve _ (.persist transaction)) => transaction.Acknowledged sender
  | _ => True

namespace Server

variable {s t : Server} {key : String} {i : Nat} {h : Handler} {sender : Sender}

lemma orphaned_redis {l : Idempotency.Label} (h : s.redis key l = some t) :
    t.orphaned = s.orphaned := by
  obtain ⟨record, -, rfl⟩ := map_eq_some_iff.mp h
  rfl

lemma orphaned_find : (s.find i h).orphaned = s.orphaned := by
  simp only [Server.find]
  split
  · rfl
  · rfl
  · rfl
  · split
    · rfl
    · split <;> rfl

lemma orphaned_persist {owner : String} {report : SendReport} {transaction : Transaction}
    (hok : transaction.Acknowledged sender)
    (hstep : s.persist sender i h owner report transaction = some t) : t.orphaned = s.orphaned := by
  simp only [Server.persist] at hstep
  split at hstep
  · next message hsent => exact (orphaned_redis hstep :)
  · next error hthrown =>
    obtain ⟨u, hu, rfl⟩ := map_eq_some_iff.mp hstep
    cases transaction with
    | committed row =>
      have hresolves : sender.resolves = true := hok
      simp [sendAgentMessage, hresolves] at hthrown
    | unacknowledged row => exact hok.elim
    | rolledBack error =>
      have horphan := orphaned_redis hu
      simpa [Server.setPhase, Transaction.row?, orphan, Server.commit] using horphan

lemma orphaned_settle {owner : String} {report : SendReport} {error : Option Thrown}
    (hstep : s.settle i h owner report error = some t) : t.orphaned = s.orphaned := by
  simp only [settle] at hstep
  split at hstep <;> cases hstep <;> rfl

/-- As long as no callback throws once its row is committed, there are no new orphans. -/
lemma orphaned_step {l : Serve} (hok : Acknowledged sender (.event (.serve i l)))
    (hstep : s.step sender i l = some t) : t.orphaned = s.orphaned := by
  obtain ⟨h, -, hserve⟩ := bind_eq_some_iff.mp hstep
  simp only [serve] at hserve
  split at hserve
  case h_1 =>
    cases hserve
    exact orphaned_find
  case h_7 owner report =>
    obtain ⟨u, hu, rfl⟩ := map_eq_some_iff.mp hserve
    exact (orphaned_redis hu :)
  case h_10 => exact orphaned_persist hok hserve
  case h_14 => exact orphaned_settle hserve
  case h_17 => cases hserve
  all_goals first
    | exact orphaned_redis hserve
    | cases hserve
      rfl

end Server

/-! ### The main result -/

/-- One key, one message, and every settlement tells the truth. -/
structure World.OneMessage (w : World) : Prop where
  once : ∀ key, (w.server.committed key).length ≤ 1
  settles : ∀ call, ∃ send, w.Settles call send

/-- The state of the daemon and the server before the first send. -/
def start : Roster World Task Effect.Reply Failure := ⟨.init, []⟩

lemma start_inv (sender : Sender) : (networkSpec sender).Inv start := by
  refine Pool.Spec.inv_init ⟨Server.sound_init, fun call => ?_⟩ fun _ => ⟨rfl, rfl⟩
  have hstage : Stage call [] World.init := ⟨Server.sound_init, rfl, rfl, nofun⟩
  exact ⟨⟨"", "", "", "", "", false, 0, false, false, none, [], none, [], []⟩,
    hstage.settles List.nil_prefix⟩

/-- While no persist callback throws after its transaction committed, however requests and answers
are lost, delayed, repeated and reordered: a key has at most one message, and every settlement
sends its request at most twice, the second time after the server answered that the key is absent,
and returns a message only if it was committed, a hold or a refusal only if the server decided it. -/
theorem one_message_of_acknowledged {sender : Sender} {moves : List (Move Event Task Outcome)}
    {s : Roster World Task Effect.Reply Failure} (hok : ∀ move ∈ moves, Acknowledged sender move)
    (hrun : run (network sender).step start moves = some s) : s.shared.OneMessage := by
  have hstep (s t : Roster World Task Effect.Reply Failure) (move : Move Event Task Outcome)
      (hs : (networkSpec sender).Inv s ∧ ∀ key, s.shared.server.orphaned key = [])
      (hok : Acknowledged sender move) (hmove : (network sender).step s move = some t) :
      (networkSpec sender).Inv t ∧ ∀ key, t.shared.server.orphaned key = [] := by
    refine ⟨Pool.Spec.safe_step hs.1 hmove, fun key => ?_⟩
    rcases hs.1.guar_step hmove with ⟨l, rfl, hevent⟩ | ⟨call, hguar⟩
    · cases l with
      | arrive n random =>
        obtain ⟨request, -, heq⟩ := map_eq_some_iff.mp hevent
        rw [← heq]
        exact hs.2 key
      | serve i l =>
        obtain ⟨server, hserver, heq⟩ := map_eq_some_iff.mp hevent
        rw [← heq]
        exact (congrFun (Server.orphaned_step hok hserver) key).trans (hs.2 key)
    · rw [hguar.server]
      exact hs.2 key
  obtain ⟨hinv, horphans⟩ := invariant (fun s l t hs hl => hstep s t l hs hl)
    ⟨start_inv sender, fun _ => rfl⟩ (permitted_of_mem hok start) hrun
  refine ⟨fun key => ?_, hinv.shared.2⟩
  have hsplit := hinv.shared.1.split key
  have hsingle := (hinv.shared.1.records key).single
  rw [horphans key] at hsplit
  simpa [hsplit] using hsingle

/-- A send of one message. -/
def helloSend : AgentMessageRequest where
  idempotencyKey := "key"
  agentId := "agent"
  workspaceId := "workspace"
  target := "@sam"
  content := "hello"
  continueAnyway := false
  draftReholdCount := 0
  draftReplacedExisting := false
  sendDraft := false
  seenUpToSeq := none
  seenExactSeqs := []
  freshnessContextMode := none
  attachmentIds := []
  mentions := []

/-- The steps of a handler that commits a message, up to the end of its persist callback. -/
def commitSteps (i : Nat) (owner id : String) : List (Move Event Task Outcome) :=
  [.event (.serve i .find), .event (.serve i (.forward owner .empty)), .event (.serve i .claim),
    .event (.serve i (.persist (.committed (Idempotency.sampleMessage id))))]

/-- The first answer is lost, and the request arrives only after a reconciliation found nothing;
the replay is answered from the record of the message that was committed meanwhile. -/
def delayedRun : List (Move Event Task Outcome) :=
  [.call ⟨helloSend, false⟩, .reply 0 (.lost ⟨.preResponseTransport, none⟩),
    .event (.arrive 1 ""), .event (.serve 0 .find), .reply 0 (.received 0),
    .event (.arrive 0 "")] ++ commitSteps 1 "owner" "message" ++
  [.event (.serve 1 .complete), .event (.serve 1 .settle), .event (.serve 1 .publish),
    .event (.arrive 2 ""), .event (.serve 2 .find), .event (.serve 2 (.report [] [])),
    .reply 0 (.received 2)]

theorem one_message_when_delayed :
    ∃ s, run (network ⟨"helper", ""⟩).step start delayedRun = some s ∧ s.shared.OneMessage := by
  obtain ⟨s, hrun⟩ := isSome_iff_exists.mp
    (show (run (network ⟨"helper", ""⟩).step start delayedRun).isSome by decide)
  have hresolves : (Sender.mk "helper" "").resolves = true := by decide
  refine ⟨s, hrun, one_message_of_acknowledged ?_ hrun⟩
  simp [delayedRun, commitSteps, Acknowledged, Transaction.Acknowledged, hresolves]

/-- The Agent is named like a UUID, which its grammar allows and that of a sender does not. The
request is delivered twice. -/
def repeatedRun : List (Move Event Task Outcome) :=
  [.call ⟨helloSend, false⟩, .event (.arrive 0 ""), .event (.arrive 0 "")] ++
    commitSteps 0 "first" "message-1" ++ [.event (.serve 0 .release)] ++
    commitSteps 1 "second" "message-2"

theorem two_messages_when_repeated : ¬ ∀ (sender : Sender) (moves : List (Move Event Task Outcome))
        (s : Roster World Task Effect.Reply Failure),
      run (network sender).step start moves = some s → s.shared.OneMessage := by
  intro h
  have hcount : (run (network ⟨"550e8400-e29b-41d4-a716-446655440000", ""⟩).step start
      repeatedRun).map (fun s => (s.shared.server.committed "key").length) = some 2 := by
    decide
  obtain ⟨s, hrun, htwo⟩ := map_eq_some_iff.mp hcount
  have hone := (h _ _ _ hrun).once "key"
  omega

end Coforge.Sends
