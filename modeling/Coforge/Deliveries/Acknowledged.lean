import Coforge.Attention.Backed
import Coforge.Attention.Coherence
import Coforge.Deliveries.Runtime

/-!
# The discipline of delivery acknowledgements

An ordinary delivery is acknowledged when the Agent had consumed it, when a session of the same
generation accepted a notice of it, or when the delivery queue took it. The index's part is carried
by what it noted about notices; the runtime's own acknowledgements follow the queue that takes the
delivery. An inbox purge is apart: it acknowledges what it drops.
-/

namespace Coforge.Deliveries

open Attention Transition Trace

/-- What an acknowledgement in a generation rests on. -/
def Justified (past : List Happening) (deliveryId : String) (generation : Option Nat) : Prop :=
  (∃ message : Delivery, message.deliveryId = deliveryId ∧ .consumed message ∈ past) ∨
    (∃ g ids, generation = some g ∧ deliveryId ∈ ids ∧ .accepted g ids ∈ past) ∨
    ∃ message : Delivery, message.deliveryId = deliveryId ∧ .enqueued message ∈ past

def AcksJustified (trace : List Happening) : Prop :=
  ∀ later past deliveryId generation,
    trace = later ++ .acknowledged deliveryId generation :: past →
      Justified past deliveryId generation

/-- What the sessions accepted and the index found consumed, by the trace. -/
def heardIn (trace : List Happening) : Heard where
  told generation ids := .accepted generation ids ∈ trace
  consumed deliveryId :=
    ∃ message : Delivery, message.deliveryId = deliveryId ∧ .consumed message ∈ trace

lemma heardIn_le (event : Happening) (trace : List Happening) :
    (heardIn trace).Le (heardIn (event :: trace)) :=
  ⟨fun _ _ h => List.mem_cons_of_mem _ h,
    fun _ ⟨message, hid, h⟩ => ⟨message, hid, List.mem_cons_of_mem _ h⟩⟩

lemma justified_of_covers {trace : List Happening} {g : Nat} {deliveryId : String}
    (h : (heardIn trace).Covers g deliveryId) : Justified trace deliveryId (some g) :=
  h.imp id fun ⟨ids, hid, hold⟩ => .inl ⟨g, ids, rfl, hid, hold⟩

/-- Every acknowledgement so far is justified, or a purge made it where there may be purges, and
the index's notes are so. -/
structure Sound (purges : Prop) (r : DaemonRuntime) : Prop where
  acks : Each (fun past x => ∀ deliveryId generation, x = .acknowledged deliveryId generation →
    Justified past deliveryId generation ∨
      purges ∧ ∃ message : Delivery, message.deliveryId = deliveryId ∧ .purged message ∈ past)
    r.trace
  backed : r.attention.Backed (heardIn r.trace)

namespace DaemonRuntime

variable {purges : Prop} {r : DaemonRuntime} {message : Delivery}

lemma sound_note {event : Happening} (h : Sound purges r)
    (hevent : ∀ deliveryId generation, event = .acknowledged deliveryId generation →
      Justified r.trace deliveryId generation ∨ purges ∧
        ∃ message : Delivery, message.deliveryId = deliveryId ∧ .purged message ∈ r.trace) :
    Sound purges (r.note event) :=
  ⟨⟨hevent, h.acks⟩, h.backed.mono (heardIn_le event r.trace)⟩

variable {r' : DaemonRuntime}

/-- The queues and the process change, and the index in what is no note about notices. -/
lemma sound_of_same (h : Sound purges r) (htrace : r'.trace = r.trace)
    (hbacked : r'.attention.Backed (heardIn r.trace)) : Sound purges r' :=
  ⟨htrace ▸ h.acks, htrace ▸ hbacked⟩

lemma sound_observe (h : Sound purges r) : Sound purges (r.observe message) := by
  unfold observe
  split_ifs
  · exact sound_note h nofun
  · exact h

@[simp] lemma attention_observe : (r.observe message).attention = r.attention := by
  unfold observe
  split_ifs
  · rfl
  · rfl

lemma consumed_observe (hseen : r.attention.hasSeen message.target message.sequence = true) :
    (heardIn (r.observe message).trace).consumed message.deliveryId := by
  unfold observe
  rw [if_pos hseen]
  exact ⟨message, rfl, List.mem_cons_self⟩

/-! ### The parts of a step -/

lemma sound_attend {before w : World} (h : Sound purges r) (hbefore : r.attention = before)
    (hbacked : w.Backed (heardIn r.trace)) (hemits : World.Emits (heardIn r.trace) before w) :
    Sound purges (r.attend w) := by
  subst hbefore
  have hstart : Sound purges { r with attention := w } := ⟨h.acks, hbacked⟩
  unfold attend
  cases hemits with
  | silent heq =>
    rw [heq, List.drop_length]
    exact hstart
  | covered deliveryId g hgen hcovers heq =>
    rw [heq, List.drop_left]
    refine sound_note hstart fun id generation hack => .inl ?_
    cases hack
    have hg : generation { r with attention := w } = some g.id := by simp [generation, hgen]
    rw [hg]
    exact justified_of_covers hcovers
  | held message heq =>
    rw [heq, List.drop_left]
    have hqueued : Sound purges
        ((({ r with attention := w } : DaemonRuntime).perform (.enqueued message))) :=
      sound_note (sound_of_same hstart rfl hstart.backed) nofun
    refine sound_note hqueued fun id generation hack => .inl (.inr (.inr ?_))
    cases hack
    exact ⟨message, rfl, List.mem_cons_self⟩

lemma sound_takeCustody (h : Sound purges r) : Sound purges (r.takeCustody message) := by
  have hqueued : Sound purges
      (({ r with held := r.held ++ [message] } : DaemonRuntime).note (.enqueued message)) :=
    sound_note (sound_of_same h rfl h.backed) nofun
  refine sound_note hqueued fun id generation hack => .inl (.inr (.inr ?_))
  cases hack
  exact ⟨message, rfl, List.mem_cons_self⟩

lemma sound_purge (hpurges : purges) (h : Sound purges r) : Sound purges (r.purge message) := by
  have hpurged : Sound purges (r.note (.purged message)) := sound_note h nofun
  refine sound_note hpurged fun id generation hack => .inr ⟨hpurges, ?_⟩
  cases hack
  exact ⟨message, rfl, List.mem_cons_self⟩

lemma sound_enqueueAgentInput (h : Sound purges r) :
    Sound purges (r.enqueueAgentInput message) := by
  unfold enqueueAgentInput
  split_ifs
  · exact h
  · exact sound_of_same h rfl h.backed

lemma sound_clearAgent (h : Sound purges r) : Sound purges r.clearAgent :=
  sound_attend h rfl (World.backed_clearAgent h.backed) (.silent rfl)

lemma sound_wakeAgent (h : Sound purges r) : Sound purges r.wakeAgent :=
  sound_of_same (sound_clearAgent h) rfl (sound_clearAgent h).backed

lemma sound_foldl {f : DaemonRuntime → Delivery → DaemonRuntime}
    (hf : ∀ {r : DaemonRuntime} {message : Delivery}, Sound purges r → Sound purges (f r message))
    (messages : List Delivery) (h : Sound purges r) : Sound purges (messages.foldl f r) := by
  induction messages generalizing r with
  | nil => exact h
  | cons message messages ih => exact ih (hf h)

/-! ### Deliveries -/

lemma sound_look (h : Sound purges r) : Sound purges (r.look message) := by
  have hobserved : Sound purges (r.observe message) := sound_observe h
  unfold look
  split_ifs
  · have hbacked := hobserved.backed
    rw [attention_observe] at hbacked
    exact ⟨hobserved.acks, hbacked.withIndex⟩
  · exact h

lemma consumed_look (hconsumed : r.hasConsumed message = true) :
    (heardIn (r.look message).trace).consumed message.deliveryId := by
  rw [hasConsumed, Bool.and_eq_true] at hconsumed
  unfold look
  rw [if_pos hconsumed.1]
  exact consumed_observe hconsumed.2

lemma sound_deliverToExitedAgent (h : Sound purges r) :
    Sound purges (r.deliverToExitedAgent message) := by
  have hlooked : Sound purges (r.look message) := sound_look h
  unfold deliverToExitedAgent
  by_cases hconsumed : r.hasConsumed message = true
  · rw [if_pos hconsumed]
    refine sound_note hlooked fun id generation hack => .inl (.inl ?_)
    cases hack
    exact consumed_look hconsumed
  · rw [if_neg hconsumed]
    split_ifs
    · exact sound_of_same hlooked rfl hlooked.backed
    · exact sound_of_same hlooked rfl hlooked.backed
    · exact sound_takeCustody hlooked
    · exact sound_wakeAgent (sound_takeCustody hlooked)
    · exact sound_wakeAgent (sound_enqueueAgentInput hlooked)

lemma sound_handleAgentMessage (h : Sound purges r) :
    Sound purges (r.handleAgentMessage message) := by
  unfold handleAgentMessage
  split_ifs
  · exact h
  · exact sound_deliverToExitedAgent h
  · exact sound_takeCustody h
  · exact sound_enqueueAgentInput h

variable {now : Nat}

/-- The index receives a delivery, and what it was found to have consumed is in the trace. -/
lemma sound_receive {hold session : Bool} (h : Sound purges r) :
    Sound purges ((r.observe message).attend
      ((r.observe message).attention.receive message hold session now)) := by
  have hobserved : Sound purges (r.observe message) := sound_observe h
  have hbacked := hobserved.backed
  rw [attention_observe] at hbacked
  have hlooked : r.attention.hasSeen message.target message.sequence = true →
      (heardIn (r.observe message).trace).consumed message.deliveryId := consumed_observe
  obtain ⟨hreceived, hemits⟩ := @World.backed_receive _ _ session message now hold hbacked hlooked
  rw [attention_observe]
  exact sound_attend hobserved attention_observe hreceived hemits

lemma sound_drainAgentInput (h : Sound purges r)
    (hstep : r.drainAgentInput now = some r') : Sound purges r' := by
  unfold drainAgentInput at hstep
  split at hstep
  · cases hstep
  next message rest hitems =>
    split_ifs at hstep
    cases hstep
    have htaken : Sound purges { r with inputs := { r.inputs with items := rest } } :=
      sound_of_same h rfl h.backed
    exact sound_receive htaken

/-! ### Held deliveries -/

lemma foldl_observe (messages : List Delivery) :
    (messages.foldl observe r).attention = r.attention ∧
      (∀ event ∈ r.trace, event ∈ (messages.foldl observe r).trace) ∧
        ∀ m ∈ messages, r.attention.hasSeen m.target m.sequence = true →
          (heardIn (messages.foldl observe r).trace).consumed m.deliveryId := by
  induction messages generalizing r with
  | nil => exact ⟨rfl, fun _ => id, fun _ hm => nomatch hm⟩
  | cons message messages ih =>
    obtain ⟨hattention, htrace, hconsumed⟩ := @ih (r.observe message)
    rw [attention_observe] at hattention hconsumed
    have hstart : ∀ event ∈ r.trace, event ∈ (r.observe message).trace := by
      intro event hevent
      unfold observe
      split_ifs
      · exact List.mem_cons_of_mem _ hevent
      · exact hevent
    refine ⟨hattention, fun event hevent => htrace event (hstart event hevent), fun m hm hseen => ?_⟩
    rcases List.mem_cons.mp hm with rfl | hm
    · obtain ⟨m', hid, hmem⟩ := @consumed_observe r m hseen
      exact ⟨m', hid, htrace _ hmem⟩
    · exact hconsumed m hm hseen

lemma sound_flush {held : List Delivery} {session : Bool} (h : Sound purges r)
    (hconsumed : ∀ m ∈ held, r.attention.hasSeen m.target m.sequence = true →
      (heardIn r.trace).consumed m.deliveryId) :
    Sound purges (r.attend (r.attention.flush held session now)) := by
  obtain ⟨hflushed, hemits⟩ := World.backed_flush h.backed hconsumed
  exact sound_attend h rfl hflushed hemits

lemma sound_flushHeld (h : Sound purges r) : Sound purges (r.flushHeld now) := by
  have hempty : Sound purges { r with held := [] } := sound_of_same h rfl h.backed
  have hobserved : Sound purges (r.held.foldl observe { r with held := [] }) :=
    sound_foldl sound_observe r.held hempty
  obtain ⟨hattention, -, hconsumed⟩ := @foldl_observe { r with held := [] } r.held
  refine sound_flush hobserved fun m hm hseen => hconsumed m hm ?_
  rw [hattention] at hseen
  exact hseen

lemma sound_handleAgentInboxPurge {conversationIds : List String} {targets : List Target}
    (hpurges : purges) (h : Sound purges r) :
    Sound purges (r.handleAgentInboxPurge conversationIds targets) := by
  have hkept : Sound purges { r with inputs := { r.inputs with
      items := r.inputs.items.filter fun m => m.conversationId ∉ conversationIds } } :=
    sound_of_same h rfl h.backed
  have hpurged := sound_foldl (f := purge) (sound_purge hpurges)
    (r.inputs.items.filter fun m => m.conversationId ∈ conversationIds) hkept
  exact sound_of_same hpurged rfl hpurged.backed.withIndex

/-! ### Stretches of the index -/

variable {l : Attention.Label}

lemma accepted_not_acknowledged {w : World} {deliveryId : String}
    {g : Option Nat} : accepted w l ≠ some (.acknowledged deliveryId g) := by
  intro h
  unfold accepted at h
  split at h
  · simp at h
  · simp at h
  · cases h

lemma attention_accepted : ((accepted r.attention l).elim r r.note).attention = r.attention := by
  cases accepted r.attention l with
  | none => rfl
  | some event => rfl

lemma sound_accepted (h : Sound purges r) :
    Sound purges ((accepted r.attention l).elim r r.note) := by
  cases haccepted : accepted r.attention l with
  | none => exact h
  | some event =>
    refine sound_note h fun id generation hack => ?_
    subst hack
    exact absurd haccepted accepted_not_acknowledged

lemma sound_attention (h : Sound purges r)
    (hstep : step r (.attention l) = some r') : Sound purges r' := by
  simp only [step] at hstep
  split_ifs at hstep with hinternal
  obtain ⟨w, hw, rfl⟩ := Option.map_eq_some_iff.mp hstep
  cases l with
  | receive | flush | clearAgent => cases hinternal
  | announce message session now =>
    cases hw
    obtain ⟨hbacked, hemits⟩ := World.backed_announce h.backed
    exact sound_attend h rfl hbacked hemits
  | recover messages unreadSummary session =>
    cases hw
    obtain ⟨hbacked, hemits⟩ := World.backed_recover h.backed
    exact sound_attend h rfl hbacked hemits
  | forget notice =>
    obtain ⟨hbacked, hemits⟩ := World.backed_forget h.backed hw
    exact sound_attend h rfl hbacked hemits
  | resume call =>
    obtain ⟨hbacked, hemits⟩ := World.backed_resume h.backed hw
    exact sound_attend h rfl hbacked hemits
  | bookkeeping b =>
    cases hw
    exact sound_attend h rfl h.backed.withIndex (.silent rfl)
  | answer notice isAccepted =>
    have hnoted := sound_accepted h (l := .answer notice isAccepted)
    have hsame := @attention_accepted r (.answer notice isAccepted)
    have hbacked := hnoted.backed
    rw [hsame] at hbacked
    have htold : ∀ n, r.attention.notices[notice]? = some n → isAccepted = true →
        .accepted n.generation n.announced ∈
          ((accepted r.attention (.answer notice isAccepted)).elim r r.note).trace := by
      intro n hn hacc
      subst hacc
      simp [accepted, hn, note]
    obtain ⟨hanswered, hemits⟩ := World.backed_answer hbacked htold hw
    exact sound_attend hnoted hsame hanswered hemits
  | answerRecovery recovery isAccepted =>
    have hnoted := sound_accepted h (l := .answerRecovery recovery isAccepted)
    have hsame := @attention_accepted r (.answerRecovery recovery isAccepted)
    have hbacked := hnoted.backed
    rw [hsame] at hbacked
    have htold : ∀ rec, r.attention.recoveries[recovery]?.join = some rec → isAccepted = true →
        .accepted rec.generation (rec.messages.map RecoveryMessage.deliveryId) ∈
          ((accepted r.attention (.answerRecovery recovery isAccepted)).elim r r.note).trace := by
      intro rec hrec hacc
      subst hacc
      simp [accepted, hrec, note]
    obtain ⟨hanswered, hemits⟩ := World.backed_answerRecovery hbacked htold hw
    exact sound_attend hnoted hsame hanswered hemits

/-- What an earlier generation started acknowledges nothing in the current one, and notes nothing
in it. -/
lemma stale_attention {g : Nat}
    (hstep : step r (.attention l) = some r') (hstarted : r.attention.startedUnder l = some g)
    (hstale : r.attention.isCurrent g = false) :
    r'.attention.generation = r.attention.generation ∧ r'.held = r.held ∧
      ∃ news, r'.trace = news ++ r.trace ∧
        ∀ deliveryId generation, .acknowledged deliveryId generation ∉ news := by
  simp only [step] at hstep
  split_ifs at hstep with hinternal
  obtain ⟨w, hw, rfl⟩ := Option.map_eq_some_iff.mp hstep
  obtain ⟨hgeneration, heffects⟩ := World.stale_step hw hstarted hstale
  have hquiet : ((accepted r.attention l).elim r r.note).attend w =
      { (accepted r.attention l).elim r r.note with attention := w } := by
    rw [attend, attention_accepted, heffects, List.drop_length]
    rfl
  rw [hquiet]
  cases haccepted : accepted r.attention l with
  | none => exact ⟨hgeneration, rfl, [], rfl, fun _ _ => List.not_mem_nil⟩
  | some event =>
    refine ⟨hgeneration, rfl, [event], rfl, fun id generation hmem => ?_⟩
    rw [List.mem_singleton] at hmem
    subst hmem
    exact accepted_not_acknowledged haccepted

end DaemonRuntime

/-! ### Runs -/

/-- Whether a step is an inbox purge. -/
def Label.purges : Label → Bool
  | .purge _ _ => true
  | _ => false

open DaemonRuntime in
/-- One step. -/
theorem sound_step {purges : Prop} {r r' : DaemonRuntime} {l : Label} (h : Sound purges r)
    (hpurges : l.purges = true → purges) (hstep : step r l = some r') : Sound purges r' := by
  cases l with
  | deliver message =>
    cases hstep
    exact sound_handleAgentMessage h
  | drainInput now => exact sound_drainAgentInput h hstep
  | flushHeld now =>
    cases hstep
    exact sound_flushHeld h
  | launch | exit | stop =>
    cases hstep
    exact sound_of_same (sound_clearAgent h) rfl (sound_clearAgent h).backed
  | launchFailed =>
    cases hstep
    have hempty : Sound purges { r with inputs := { r.inputs with items := [] } } :=
      sound_of_same h rfl h.backed
    have hkept := sound_foldl (f := takeCustody) sound_takeCustody r.inputs.items hempty
    exact sound_of_same hkept rfl hkept.backed
  | releaseStartBuffer =>
    have hempty : Sound purges { r with startBuffer := [] } := sound_of_same h rfl h.backed
    simp only [step] at hstep
    split_ifs at hstep
    · cases hstep
      exact sound_foldl (f := handleAgentMessage) sound_handleAgentMessage r.startBuffer hempty
    · cases hstep
      exact hempty
  | purge conversationIds targets =>
    cases hstep
    exact sound_handleAgentInboxPurge (hpurges rfl) h
  | attention l => exact sound_attention h hstep
  | drainEnds | discardPending | closeInputs | host host =>
    cases hstep
    exact sound_of_same h rfl h.backed

lemma sound_start (purges : Prop) (host : Host) (workspaceId : String)
    (durable : Option ConsumedSeqState) : Sound purges (.start host workspaceId durable) where
  acks := trivial
  backed :=
    { notices := fun _ hn => nomatch hn
      current := Generation.backed_new _ _ _
      calls := fun _ hcall => nomatch hcall }

/-- Without purges an acknowledgement is justified in every run, and what an earlier generation
started acknowledges nothing and notes nothing in a later one. -/
theorem acksJustified_run {host : Host} {workspaceId : String}
    {durable : Option ConsumedSeqState} {ls : List Label} {r : DaemonRuntime}
    (hpurges : ∀ l ∈ ls, l.purges = false)
    (hrun : run step (.start host workspaceId durable) ls = some r) :
    AcksJustified r.trace ∧ ∀ l r' g, step r (.attention l) = some r' →
      r.attention.startedUnder l = some g → r.attention.isCurrent g = false →
        r'.attention.generation = r.attention.generation ∧ r'.held = r.held ∧
          ∃ news, r'.trace = news ++ r.trace ∧
            ∀ deliveryId generation, .acknowledged deliveryId generation ∉ news := by
  have hsound : Sound False r :=
    invariant (fun s l t h hl hstep => sound_step h (fun htrue => absurd htrue (by simp [hl])) hstep)
      (sound_start False host workspaceId durable) (permitted_of_mem hpurges _) hrun
  constructor
  · intro later past id generation heq
    exact (each_iff.mp hsound.acks later _ past heq id generation rfl).resolve_right
      fun h => h.1
  · intro l r' g hstep hstarted hstale
    exact DaemonRuntime.stale_attention hstep hstarted hstale

/-- A delivery is announced to the session, which accepts the notice. -/
def announcedRun (message : Delivery) : List Label :=
  [.deliver message, .drainInput 0, .attention (.answer 0 true), .attention (.resume 0)]

def connectedHost : Host where
  stopping := false
  runnerHold := false
  session := true
  launching := false
  wakeLaunch := false
  restartConfig := true
  startPending := false
  wakeBlocked := false
  shouldHold := false

theorem acksJustified_run_announced :
    ∃ r, run step (.start connectedHost "w" none) (announcedRun Drained.message) = some r ∧
      r.trace = [.acknowledged "d1" (some 0), .accepted 0 ["d1"]] ∧ AcksJustified r.trace := by
  have htrace : (run step (.start connectedHost "w" none) (announcedRun Drained.message)).map
      DaemonRuntime.trace = some [.acknowledged "d1" (some 0), .accepted 0 ["d1"]] := by
    decide +kernel
  obtain ⟨r, hr, htrace⟩ := Option.map_eq_some_iff.mp htrace
  exact ⟨r, hr, htrace, (acksJustified_run (by decide) hr).1⟩

end Coforge.Deliveries
