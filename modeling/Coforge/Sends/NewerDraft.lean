import Coforge.Sends.SendMessage

/-!
# A settling send and newer drafts

A send that completes leaves a draft alone that was saved for its target after it began, under
another key: so say the clear after an accepted send, which compares keys. The held refresh does
not. It writes the send's own draft over whatever the file holds by then. And the check of a failed
send looks the draft up, which discards one that has expired meanwhile.

There are no other ways: a run spares every newer draft exactly if it meets neither.
-/

namespace Coforge.Sends.Runtime

open Async Transition
open Prog (wp)

/-! ### What a send issues -/

/-- The send has reached its key, and these are its target and key. -/
def Has (call : Nat) (target key : String) (m : Memory) : Prop :=
  m.sends call = some (target, key)

/-- What a send does to the file once its own draft is saved is about its own target and key. -/
def Issued (call : Nat) : SendEffect → Memory → Prop
  | .lookup .check target, m => ∃ key, Has call target key m
  | .replace target draft _, m => Has call target draft.idempotencyKey m
  | .clearIfIdempotencyKeyMatches target key, m => Has call target key m
  | _, _ => True

/-- The send's own entry is as it was. -/
def Kept (call : Nat) (m t : Memory) : Prop := t.sends call = m.sends call

/-- The entries of the other sends are as they were. -/
def Others (call : Nat) (m t : Memory) : Prop := ∀ j, j ≠ call → t.sends j = m.sends j

def memoryContext (call : Nat) : Prog.Context Memory SendEffect.Reply where
  rely := Kept call
  answer _ m _ t := t = m
  guar := Others call
  issue := Issued call

section Send

variable {scope : AgentScope} {call : Nat} {task : SendTask} {m : Memory} {target key : String}
  {prepared : Prepared}

lemma Has.kept {t : Memory} (h : Has call target key m) (hkept : Kept call m t) :
    Has call target key t := Eq.trans hkept h

lemma wp_effect {e : SendEffect} {Q : Except Failure e.Reply → Memory → Prop}
    (hissue : Issued call e m) (h : ∀ r t, Kept call m t → Q (.ok r) t) :
    wp (memoryContext call) (Prog.request e) Q m := by
  refine ⟨hissue, fun t hkept r t' hanswer => ?_⟩
  obtain rfl := hanswer
  exact ⟨fun _ _ => rfl, h r t' hkept⟩

lemma wp_settleStore {α : Type} {reply : Except Failure α} {Q : Except Failure α → Memory → Prop}
    (h : ∀ t, Kept call m t → Q reply t) : wp (memoryContext call) (settleStore reply) Q m := by
  refine Prog.wp_bind.mpr (wp_effect (e := .turn) trivial fun _ t hkept => ?_)
  change wp (memoryContext call) (Prog.ofExcept reply) Q t
  rw [Prog.wp_ofExcept]
  exact h t hkept

lemma wp_lookup {purpose : LookupPurpose}
    {Q : Except Failure AgentMessageDraftLookup → Memory → Prop}
    (hissue : Issued call (.lookup purpose target) m) (h : ∀ r t, Kept call m t → Q r t) :
    wp (memoryContext call) (Inbox.lookup purpose target) Q m :=
  Prog.wp_bind.mpr (wp_effect (e := .lookup purpose target) hissue fun _ _ hkept =>
    wp_settleStore fun u hkept' => h _ u (Eq.trans hkept' hkept))

lemma wp_draft {purpose : LookupPurpose}
    {Q : Except Failure (Option AgentMessageDraft) → Memory → Prop}
    (hissue : Issued call (.lookup purpose target) m) (h : ∀ r t, Kept call m t → Q r t) :
    wp (memoryContext call) (Inbox.draft purpose target) Q m := by
  refine Prog.wp_bind.mpr (wp_lookup hissue fun r t hkept => ?_)
  rcases r with e | ⟨draft⟩ | _ | _ <;> exact h _ t hkept

variable {Q : Except Failure Unit → Memory → Prop}

lemma wp_save {draft : AgentMessageDraftContent} (h : ∀ r t, Kept call m t → Q r t) :
    wp (memoryContext call) (Inbox.save target draft) Q m :=
  Prog.wp_bind.mpr (wp_effect (e := .save target draft) trivial fun _ _ hkept =>
    wp_settleStore fun u hkept' => h _ u (Eq.trans hkept' hkept))

lemma wp_draftToResend {Q : Except Failure AgentMessageDraft → Memory → Prop}
    (h : ∀ r t, Kept call m t → Q r t) : wp (memoryContext call) (draftToResend task) Q m := by
  refine Prog.wp_bind.mpr (wp_lookup trivial fun r t hkept => ?_)
  rcases r with e | ⟨draft⟩ | _ | _
  · exact h _ t hkept
  · simp only [Prog.either_ok]
    split
    · exact h _ t hkept
    · exact h _ t hkept
  · exact h _ t hkept
  · exact h _ t hkept

lemma wp_checkMentions {content : String} {mentions : List AgentMention} (h : ∀ r, Q r m) :
    wp (memoryContext call) (checkMentions content mentions) Q m := by
  simp only [checkMentions]
  split
  · exact h _
  · exact h _

variable {draft : Option AgentMessageDraft}

lemma wp_prepareContent {priorDraft : Option AgentMessageDraft} {content : String}
    {Q : Except Failure Prepared → Memory → Prop} (hfailed : ∀ e t, Q (.error e) t)
    (h : ∀ prepared t, Kept call m t → prepared.draft.idempotencyKey = key → Q (.ok prepared) t) :
    wp (memoryContext call) (prepareContent task draft priorDraft key content) Q m := by
  refine Prog.wp_bind.mpr (Prog.wp_bind.mpr ⟨fun _ _ => rfl, ?_⟩)
  refine Prog.wp_bind.mpr (wp_checkMentions fun r => ?_)
  cases r with
  | ok _ => exact h _ _ rfl rfl
  | error e => exact hfailed e _

/-- The last step of `prepareFrom`, with the text that was found. -/
def prepareFound (task : SendTask) (draft priorDraft : Option AgentMessageDraft) (key : String) :
    Option String → SendOp Prepared
  | none         => throw bodyRequiredError
  | some content => prepareContent task draft priorDraft key content

lemma wp_prepareFound {priorDraft : Option AgentMessageDraft} {found : Option String}
    {Q : Except Failure Prepared → Memory → Prop} (hfailed : ∀ e t, Q (.error e) t)
    (h : ∀ prepared t, Has call task.target prepared.draft.idempotencyKey t →
      Q (.ok prepared) t) (hhas : Has call task.target key m) :
    wp (memoryContext call) (prepareFound task draft priorDraft key found) Q m := by
  cases found with
  | none => exact hfailed _ m
  | some content =>
    exact wp_prepareContent hfailed fun prepared u hkept hkey =>
      h prepared u (hkey ▸ hhas.kept hkept)

lemma wp_prepareFrom {Q : Except Failure Prepared → Memory → Prop} (hfailed : ∀ e t, Q (.error e) t)
    (h : ∀ prepared t, Has call task.target prepared.draft.idempotencyKey t → Q (.ok prepared) t) :
    wp (memoryContext call) (prepareFrom call task draft) Q m := by
  refine Prog.wp_bind.mpr ⟨fun j hj => Function.update_of_ne hj .., ?_⟩
  have hhas : Has call task.target ((draft.map (·.idempotencyKey)).getD task.request.idempotencyKey)
      (m.identify call task.target
        ((draft.map (·.idempotencyKey)).getD task.request.idempotencyKey)) :=
    Function.update_self ..
  refine Prog.wp_bind.mpr ?_
  split
  · exact @wp_prepareFound _ _ _ _ draft draft
      ((draft.map (·.content)).or task.request.content) _ hfailed h hhas
  · refine wp_draft trivial fun r t hkept => ?_
    cases r with
    | ok priorDraft =>
      exact @wp_prepareFound _ _ _ _ draft priorDraft
        ((draft.map (·.content)).or task.request.content) _ hfailed h (hhas.kept hkept)
    | error e => exact hfailed e t

lemma wp_prepare {Q : Except Failure Prepared → Memory → Prop} (hfailed : ∀ e t, Q (.error e) t)
    (h : ∀ prepared t, Has call task.target prepared.draft.idempotencyKey t → Q (.ok prepared) t) :
    wp (memoryContext call) (prepare call task) Q m := by
  refine Prog.wp_bind.mpr ?_
  split
  · refine Prog.wp_map.mpr (wp_draftToResend fun r t _ => ?_)
    cases r with
    | ok draft => exact wp_prepareFrom hfailed h
    | error e => exact hfailed e t
  · exact wp_prepareFrom hfailed h

lemma wp_saveDraft {draft : AgentMessageDraftContent} (h : ∀ r t, Kept call m t → Q r t) :
    wp (memoryContext call) (saveDraft task draft) Q m := by
  rw [saveDraft]
  split
  · exact h _ m rfl
  · refine Prog.wp_bind.mpr (Prog.wp_bind.mpr (wp_save fun r t hkept => ?_))
    cases r with
    | ok _ =>
      simp only [Prog.either_ok]
      split
      · exact h _ t hkept
      · exact h _ t hkept
    | error e => exact h _ t hkept

/-! ### The settlement -/

lemma wp_portSend {request : AgentMessageRequest}
    {Q : Except Failure AgentMessageTransportResponse → Memory → Prop}
    (h : ∀ r t, Kept call m t → Q r t) : wp (memoryContext call) (sendPorts.send request) Q m := by
  refine Prog.wp_bind.mpr (wp_effect (e := .send request) trivial ?_)
  intro (r : Except Failure AgentMessageTransportResponse) t hkept
  change wp (memoryContext call) (Prog.ofExcept r) Q t
  rw [Prog.wp_ofExcept]
  exact h r t hkept

lemma wp_portReconcile {request : AgentSendReconciliationRequest}
    {Q : Except Failure AgentSendReconciliationResponse → Memory → Prop}
    (h : ∀ r t, Kept call m t → Q r t) :
    wp (memoryContext call) (sendPorts.reconcile request) Q m := by
  refine Prog.wp_bind.mpr (wp_effect (e := .reconcile request) trivial ?_)
  intro (r : Except Failure AgentSendReconciliationResponse) t hkept
  change wp (memoryContext call) (Prog.ofExcept r) Q t
  rw [Prog.wp_ofExcept]
  exact h r t hkept

lemma wp_portDraft {checked : String} {Q : Except Failure Bool → Memory → Prop}
    (hhas : Has call target key m) (h : ∀ r t, Kept call m t → Q r t) :
    wp (memoryContext call) (sendPorts.draftHoldsKey target checked) Q m := by
  refine Prog.wp_bind.mpr (wp_draft ⟨key, hhas⟩ fun r t hkept => ?_)
  cases r <;> exact h _ t hkept

lemma wp_settle {send : AgentMessageRequest} {reviewerIsolation : Bool}
    {Q : Except Failure AgentMessageTransportResponse → Memory → Prop}
    (hhas : Has call send.target key m) (h : ∀ r t, Has call send.target key t → Q r t) :
    wp (memoryContext call) (settleAgentSend send sendPorts reviewerIsolation) Q m := by
  have hcheck (error : Failure) {t : Memory} (ht : Has call send.target key t) :
      wp (memoryContext call) (sendPorts.draftHoldsKey send.target send.idempotencyKey)
        (fun _ t => ∀ message verdict, Q (.error (.verdict message error verdict)) t) t :=
    wp_portDraft ht fun _ u hkept _ _ => h _ u (ht.kept hkept)
  refine wp_settleAgentSend (wp_portSend fun r t hkept => ?_)
  have ht := hhas.kept hkept
  cases r with
  | ok response => exact h _ t ht
  | error error =>
    refine ⟨fun _ => hcheck error ht, fun _ => ?_, h _ t ht⟩
    refine wp_reconcileSend (wp_portReconcile fun r u hkept => ?_)
    have hu := ht.kept hkept
    rcases r with e | ⟨response⟩ | _
    · exact h _ u hu
    · exact h _ u hu
    · refine wp_replaySend (wp_portSend fun r v hkept => ?_)
      have hv := hu.kept hkept
      cases r with
      | ok response => exact h _ v hv
      | error error => exact hcheck error hv

lemma wp_holdOrSettle {Q : Except Failure AgentMessageTransportResponse → Memory → Prop}
    (hhas : Has call task.target key m) (h : ∀ r t, Has call task.target key t → Q r t) :
    wp (memoryContext call) (holdOrSettle scope task prepared) Q m := by
  refine Prog.wp_bind.mpr ?_
  simp only [Prog.wp_gets, Prog.either_ok]
  split
  · exact h _ m hhas
  · exact @wp_settle _ _ _ (sendRequest scope task prepared) _ _ hhas h

lemma idempotencyKey_heldRefresh (result : AgentMessageTransportResponse) :
    (heldRefresh task prepared result).idempotencyKey = prepared.draft.idempotencyKey := by
  rw [heldRefresh]
  split <;> rfl

lemma wp_settleDraft {result : AgentMessageTransportResponse}
    (hhas : Has call task.target prepared.draft.idempotencyKey m) (h : ∀ r t, Q r t) :
    wp (memoryContext call) (settleDraft task prepared result) Q m := by
  rw [settleDraft]
  split
  · refine Prog.wp_bind.mpr (wp_effect (e := .replace ..) ?_ fun r t _ =>
      wp_settleStore fun u _ => h _ u)
    rw [Issued, idempotencyKey_heldRefresh]
    exact hhas
  · split
    · refine Prog.wp_bind.mpr (Prog.wp_bind.mpr (wp_effect
        (e := .clearIfIdempotencyKeyMatches ..) hhas fun r t _ =>
          wp_settleStore fun u _ => ?_))
      cases r <;> exact h _ u
    · exact h _ m

lemma wp_sendAgentMessage :
    wp (memoryContext call) (sendAgentMessage scope call task) (fun _ _ => True) m := by
  refine Prog.wp_bind.mpr ⟨fun _ _ => rfl, ?_⟩
  refine Prog.wp_bind.mpr (wp_prepare (fun _ _ => trivial) fun prepared t hhas => ?_)
  refine Prog.wp_bind.mpr (wp_saveDraft fun r u hkept => ?_)
  have hhas := hhas.kept hkept
  cases r with
  | error e => trivial
  | ok _ =>
    refine Prog.wp_bind.mpr (wp_holdOrSettle hhas fun r v hhas => ?_)
    cases r with
    | error e => trivial
    | ok result =>
      refine Prog.wp_bind.mpr (wp_settleDraft hhas fun r w => ?_)
      cases r with
      | error e => trivial
      | ok _ => exact ⟨fun _ _ => rfl, trivial⟩

end Send

/-! ### All sends -/

lemma fst_of_answerSend {s t : Shared} {e : SendEffect} {o : SendOutcome} {r : e.Reply}
    (h : answerSend s e o = some (r, t)) : t.1 = s.1 := by
  cases e <;> cases o <;> cases h <;> rfl

def sendContext (call : Nat) : Prog.Context Shared SendEffect.Reply where
  rely s t := Kept call s.1 t.1
  answer e s r t := ∃ o, answerSend s e o = some (r, t)
  guar s t := Others call s.1 t.1
  issue e s := Issued call e s.1

def sendsSpec (scope : AgentScope) : Pool.Spec (sends scope) where
  inv _ := True
  context := sendContext
  fresh _ _ := True
  away _ _ := True
  rely_refl _ _ _ := rfl
  rely_trans _ _ _ _ h h' := Eq.trans h' h
  guar_refl _ _ _ _ := rfl
  guar_trans _ _ _ _ h h' j hj := (h' j hj).trans (h j hj)
  guar_inv _ _ _ _ _ := trivial
  guar_rely _ j _ _ hij _ h := h j hij.symm
  event_inv _ _ _ _ _ := trivial
  event_rely call s l t _ h := by
    obtain rfl := Option.some.inj h
    cases l <;> rfl
  fresh_rely _ _ _ _ _ := trivial
  away_rely _ _ _ _ _ := trivial
  answer_of _ _ o _ _ _ h := ⟨o, h⟩
  body_safe call task s _ _ := by
    have hmemory : wp (memoryContext call) ((fun _ => ()) <$> sendAgentMessage scope call task)
        (fun _ _ => True) s.1 :=
      Prog.wp_map.mpr (Prog.wp_mono (fun r t _ => by cases r <;> trivial) wp_sendAgentMessage)
    refine Prog.wp_mono (fun _ _ _ => trivial)
      (Prog.wp_lift (I := fun _ => True) ?_ ?_ ?_ ?_ ?_ trivial hmemory)
    · exact fun e s t _ _ h => ⟨h, trivial⟩
    · exact fun e s _ h => h
    · exact fun e s r t _ ⟨o, h⟩ => fst_of_answerSend h
    · exact fun e s r t _ _ h => ⟨h, trivial⟩
    · exact fun s t _ h => ⟨h, trivial⟩

/-! ### Newer drafts -/

/-- A draft that was saved for the target after the send began, under another key than its own. -/
structure Newer (s : Shared) (call : Nat) (target key : String) (draft : AgentMessageDraft) :
    Prop where
  stored : s.2.targets target = some draft
  later : call < draft.writtenAt
  other : draft.idempotencyKey ≠ key

/-- The effects of a send once its own draft is saved: what it issues, and what it does to the
draft when it is accepted, held or failed. -/
def SendEffect.completes : SendEffect → Bool
  | .lookup .resend _ | .lookup .prior _ | .save _ _ => false
  | _ => true

/-- What would spoil the draft: a held refresh that is written, and a draft check that finds the
draft expired and discards it. -/
def Spoils (drafts : DraftStore) (draft : AgentMessageDraft) : SendEffect → SendOutcome → Prop
  | .replace _ _ _, .store ending => ending.effective = true
  | .lookup .check _, .store ending =>
    DraftStore.named draft = true ∧ drafts.expired draft = true ∧ ending.effective = true
  | _, _ => False

/-- The sends of an Agent, under way. -/
abbrev Sending : Type := Roster Shared SendTask SendEffect.Reply Failure

/-- A send that is completing, with a newer draft in the file. -/
structure Meets (s : Sending) (call : Nat) (p : Prog.Suspended Shared SendEffect.Reply Failure Unit)
    (target key : String) (draft : AgentMessageDraft) : Prop where
  live : ∃ task, s.at? call = some (task, p)
  completes : p.effect.completes = true
  identified : Has call target key s.shared.1
  newer : Newer s.shared call target key draft

/-- The step of a completing send leaves every newer draft of its target as it is. -/
def Spares (scope : AgentScope) (s : Sending) (move : Move SendEvent SendTask SendOutcome) : Prop :=
  ∀ call o, move = .reply call o → ∀ p target key draft, Meets s call p target key draft →
    ∀ t, (sends scope).step s move = some t → t.shared.2.targets target = some draft

/-- No completing send meets a newer draft that it would spoil. -/
def Gentle (s : Sending) (move : Move SendEvent SendTask SendOutcome) : Prop :=
  ∀ call o, move = .reply call o → ∀ p target key draft, Meets s call p target key draft →
    ¬Spoils s.shared.2 draft p.effect o

section Steps

variable {scope : AgentScope} {s : Sending}

variable {e : SendEffect}

lemma keeps_iff_of_answer {call : Nat} {u : Shared} {target key : String}
    {draft : AgentMessageDraft} {o : SendOutcome} {r : e.Reply}
    (hissued : Issued call e s.shared.1) (hcompletes : e.completes = true)
    (hhas : Has call target key s.shared.1) (hnewer : Newer s.shared call target key draft)
    (hanswer : answerSend s.shared e o = some (r, u)) :
    u.2.targets target = some draft ↔ ¬Spoils s.shared.2 draft e o := by
  have hsame {target' key' : String} (h : Has call target' key' s.shared.1) :
      target' = target ∧ key' = key := by
    simpa using Option.some.inj (Eq.trans (Eq.symm h) hhas)
  cases e with
  | lookup purpose target' =>
    cases purpose with
    | resend => cases hcompletes
    | prior => cases hcompletes
    | check =>
      obtain ⟨key', hissued⟩ := hissued
      obtain ⟨rfl, -⟩ := hsame hissued
      cases o <;> cases hanswer
      exact DraftStore.lookup_keeps_iff hnewer.stored
  | save target' draft' => cases hcompletes
  | replace target' draft' reholdCount =>
    obtain ⟨rfl, hkey⟩ := hsame hissued
    cases o <;> cases hanswer
    rw [Spoils, Bool.not_eq_true]
    exact DraftStore.writeDraft_keeps_iff hnewer.stored (hkey ▸ hnewer.other)
  | clearIfIdempotencyKeyMatches target' key' =>
    obtain ⟨rfl, rfl⟩ := hsame hissued
    cases o <;> cases hanswer
    exact iff_of_true (DraftStore.clear_keeps hnewer.stored hnewer.other) id
  | send request =>
    cases o <;> cases hanswer
    exact iff_of_true hnewer.stored id
  | reconcile request =>
    cases o <;> cases hanswer
    exact iff_of_true hnewer.stored id
  | turn =>
    cases o <;> cases hanswer
    exact iff_of_true hnewer.stored id

lemma answer_of_spoils {draft : AgentMessageDraft} {o : SendOutcome}
    (h : Spoils s.shared.2 draft e o) : ∃ r u, answerSend s.shared e o = some (r, u) := by
  cases e with
  | lookup purpose target => cases o <;> first | exact ⟨_, _, rfl⟩ | cases purpose <;> exact h.elim
  | replace target draft reholdCount => cases o <;> first | exact ⟨_, _, rfl⟩ | exact h.elim
  | _ => exact h.elim

lemma Issued.kept {call : Nat} {m t : Memory} (h : Issued call e m)
    (hkept : Kept call m t) : Issued call e t := by
  cases e with
  | lookup purpose target =>
    cases purpose with
    | check => exact h.imp fun key hhas => hhas.kept hkept
    | resend => trivial
    | prior => trivial
  | replace target draft reholdCount => exact Has.kept h hkept
  | clearIfIdempotencyKeyMatches target key => exact Has.kept h hkept
  | _ => trivial

/-- What holds at every point of a run: every send issues what it may, and changes the file by its
effects only. -/
structure Sound (scope : AgentScope) (s : Sending) : Prop where
  spec : (sendsSpec scope).Inv s
  keeping : Pool.Keeping (Prod.snd : Shared → DraftStore) s

lemma Sound.step {t : Sending} {move : Move SendEvent SendTask SendOutcome} (hs : Sound scope s)
    (hstep : (sends scope).step s move = some t) : Sound scope t :=
  ⟨Pool.Spec.safe_step hs.spec hstep, Pool.keeping_step (fun _ _ => Prog.keeps_lift _) hs.keeping
    hstep⟩

lemma Sound.spares_iff {move : Move SendEvent SendTask SendOutcome} (hs : Sound scope s) :
    Spares scope s move ↔ Gentle s move := by
  refine forall₃_congr fun call o hmove => ?_
  subst hmove
  refine forall₄_congr fun p target key draft => forall_congr' fun hmeets => ?_
  obtain ⟨task, hlive⟩ := hmeets.live
  obtain ⟨m, hissue, hrely⟩ := hs.spec.issued hlive
  have hissued : Issued call p.effect s.shared.1 := Issued.kept hissue hrely
  have hiff {r : p.effect.Reply} {u : Shared} (hanswer : answerSend s.shared p.effect o =
      some (r, u)) : u.2.targets target = some draft ↔ ¬Spoils s.shared.2 draft p.effect o :=
    keeps_iff_of_answer hissued hmeets.completes hmeets.identified hmeets.newer hanswer
  constructor
  · intro hspares hspoils
    obtain ⟨r, u, hanswer⟩ := answer_of_spoils hspoils
    rcases hnext : (p.resume r).advance u with ⟨halt, v⟩
    have hstep : (sends scope).step s (.reply call o) = some ⟨v, s.calls.set call (halt.live task)⟩ :=
      Pool.step_reply.mpr ⟨task, p, hlive, r, u, hanswer, halt, v, hnext, rfl⟩
    have hdrafts := ((hs.keeping call task p hlive r).advance u).1
    rw [hnext] at hdrafts
    have hkept : v.2.targets target = some draft := hspares _ hstep
    exact (hiff hanswer).mp (hdrafts ▸ hkept) hspoils
  · intro hgentle t hstep
    obtain ⟨r, u, hanswer, hdrafts⟩ := Pool.reply_keeps hs.keeping hlive hstep
    have hkept := (hiff hanswer).mpr hgentle
    exact hdrafts ▸ hkept

end Steps

/-! ### The main result -/

/-- An Agent none of whose sends has begun, with the drafts of an earlier daemon. -/
def idle (index : Attention.Index) (latestThread : String → Option String)
    (drafts : String → Option AgentMessageDraft) (now : Nat) : Sending where
  shared := (⟨index, latestThread, 0, fun _ => none⟩,
    ⟨fun target => (drafts target).map fun draft => { draft with writtenAt := 0 }, now⟩)
  calls := []

/-- In every run of any number of sends, the completions spare every newer draft exactly if none of
them writes a held draft back over a newer one, or checks a newer one that has expired. -/
theorem spares_iff_gentle (scope : AgentScope) (index : Attention.Index)
    (latestThread : String → Option String) (drafts : String → Option AgentMessageDraft)
    (now : Nat) (moves : List (Move SendEvent SendTask SendOutcome)) :
    Permitted (sends scope).step (Spares scope) (idle index latestThread drafts now) moves ↔
      Permitted (sends scope).step Gentle (idle index latestThread drafts now) moves := by
  have hidle : Sound scope (idle index latestThread drafts now) :=
    ⟨Pool.Spec.inv_init trivial fun _ => trivial, Pool.keeping_nil _ _⟩
  exact permitted_iff (fun s l t hs hstep => hs.step hstep) (fun s l hs => hs.spares_iff) hidle moves

/-- A fresh send of a body to one person. -/
def freshSend (idempotencyKey content : String) : SendTask where
  target := "@sam"
  request := ⟨idempotencyKey, some content, false, none, false, false, none, [], []⟩

/-- The replies that take a fresh send from its first lookup to its request. -/
def issueSteps (call : Nat) : List (Move SendEvent SendTask SendOutcome) :=
  [.reply call (.store .done), .reply call .turned, .reply call (.store .done), .reply call .turned]

/-- The server's answer to a send it holds. -/
def heldAnswer (idempotencyKey : String) : AgentMessageTransportResponse :=
  ⟨idempotencyKey, false, 0, none, [], .held, .empty⟩

/-- The first send is held by the server after a second one has saved its draft. -/
def lateHold : List (Move SendEvent SendTask SendOutcome) :=
  [.call (freshSend "first" "one")] ++ issueSteps 0 ++ [.call (freshSend "second" "two")] ++
    issueSteps 1 ++ [.reply 0 (.sent (.ok (heldAnswer "first")))]

/-- The first send is about to complete, and the draft it then deletes is a later one. -/
def heldLate (scope : AgentScope) (s : Sending) : Bool :=
  match s.at? 0, s.shared.2.targets "@sam" with
  | some (_, p), some draft =>
    p.effect.completes && decide (s.shared.1.sends 0 = some ("@sam", "first")) &&
      decide (0 < draft.writtenAt) && decide (draft.idempotencyKey ≠ "first") &&
      ((sends scope).step s (.reply 0 (.store .done))).any fun t =>
        decide (t.shared.2.targets "@sam" ≠ some draft)
  | _, _ => false

theorem spoils_when_held_late :
    ¬ ∀ (scope : AgentScope) (index : Attention.Index) (latestThread : String → Option String)
        (drafts : String → Option AgentMessageDraft) (now : Nat)
        (moves : List (Move SendEvent SendTask SendOutcome)),
      Permitted (sends scope).step (Spares scope) (idle index latestThread drafts now) moves := by
  intro h
  let start := idle (.init none) (fun _ => none) (fun _ => none) 0
  let scope : AgentScope := ⟨"agent", "workspace"⟩
  have hcheck : (run (sends scope).step start lateHold).any (fun s =>
      heldLate scope s) = true := by
    decide
  obtain ⟨s, hrun, hs⟩ := (Option.any_eq_true _ _).mp hcheck
  unfold heldLate at hs
  split at hs
  · next task p draft hlive hstored =>
    simp only [Bool.and_eq_true, decide_eq_true_eq] at hs
    obtain ⟨⟨⟨⟨hcompletes, hhas⟩, hlater⟩, hother⟩, hspoiled⟩ := hs
    obtain ⟨t, hstep, hlost⟩ := (Option.any_eq_true _ _).mp hspoiled
    have hlast := (permitted_append.mp (h scope (.init none) (fun _ => none) (fun _ => none) 0
      (lateHold ++ [.reply 0 (.store .done)]))).2 s hrun
    have hmeets : Meets s 0 p "@sam" "first" draft :=
      ⟨⟨task, hlive⟩, hcompletes, hhas, ⟨hstored, hlater, hother⟩⟩
    have hkept := hlast.1 0 _ rfl p "@sam" "first" draft hmeets t hstep
    exact of_decide_eq_true hlost hkept
  · cases hs

end Coforge.Sends.Runtime
