import Coforge.Attention.Steps

/-!
# What an acknowledgement of the index rests on

A delivery counts as notified in a generation if a session of that generation accepted a notice of
it, or if the Agent had consumed it. `Backed` says that everything the index has noted about
notices is so: its notified deliveries, the attempts that others may join, and the calls that wait.
It is stated over what was told and consumed so far. What a stretch of the index does to the
outside is then read off the operation: an acknowledgement of a delivery that is covered, or a
delivery that the queue takes.
-/

namespace Coforge.Attention

open List

/-- What sessions accepted, by generation, and what was consumed so far. -/
structure Heard where
  told : Nat → List String → Prop
  consumed : String → Prop

namespace Heard

/-- A delivery that needs no further notice in a generation. -/
def Covers (h : Heard) (generation : Nat) (deliveryId : String) : Prop :=
  h.consumed deliveryId ∨ ∃ ids, deliveryId ∈ ids ∧ h.told generation ids

def Le (h h' : Heard) : Prop :=
  (∀ g ids, h.told g ids → h'.told g ids) ∧ ∀ id, h.consumed id → h'.consumed id

lemma Covers.mono {h h' : Heard} {g : Nat} {id : String} (hcovers : h.Covers g id)
    (hle : h.Le h') : h'.Covers g id :=
  hcovers.imp (hle.2 id) fun ⟨ids, hid, htold⟩ => ⟨ids, hid, hle.1 g ids htold⟩

end Heard

/-- A generation's own bookkeeping. -/
structure Generation.Backed (h : Heard) (notices : List Notice) (g : Generation) : Prop where
  notified : ∀ id ∈ g.notified, h.Covers g.id id
  attempts : ∀ a ∈ g.notificationAttempts, ∃ n, notices[a.2]? = some n ∧ n.generation = g.id ∧
    a.1 ∈ n.announced

/-- What a call does once its notice is accepted, the notice covers. -/
def Waiting.Within (h : Heard) (announced : List String) : Waiting → Prop
  | .receive message => message.deliveryId ∈ announced
  | .announce _      => True
  | .flush settled   => ∀ id ∈ settled, id ∈ announced ∨ h.consumed id

def Call.Backed (h : Heard) (notices : List Notice) (call : Call) : Prop :=
  ∃ n, notices[call.notice]? = some n ∧ n.generation = call.generation ∧
    call.waiting.Within h n.announced

/-- A notice announces the delivery it is registered under, and is told once it is accepted. -/
def Notice.Backed (h : Heard) (n : Notice) : Prop :=
  n.lead ∈ n.announced ∧ (n.accepted = some true → h.told n.generation n.announced)

/-- Everything the index noted about notices is so. -/
structure World.Backed (h : Heard) (w : World) : Prop where
  notices : ∀ n ∈ w.notices, n.Backed h
  current : w.current.Backed h w.notices
  calls : ∀ call, some call ∈ w.calls → call.Backed h w.notices

/-! ### Generations -/

namespace Generation

variable {h : Heard} {notices : List Notice} {g : Generation}

lemma backed_new (h : Heard) (notices : List Notice) (id : Nat) : (new id).Backed h notices :=
  ⟨fun _ hid => absurd hid not_mem_nil, fun _ ha => absurd ha not_mem_nil⟩

variable {id : String}

lemma mem_insertId {ids : List String} {id' : String} (h : id ∈ insertId ids id') :
    id ∈ ids ∨ id = id' := by
  rw [insertId] at h
  split_ifs at h
  · exact .inl h
  · exact (mem_append.mp h).imp_right mem_singleton.mp

lemma Backed.addNotified (hg : g.Backed h notices) (hid : h.Covers g.id id) :
    (g.addNotified id).Backed h notices where
  notified id' hid' := by
    rcases mem_insertId hid' with hbefore | rfl
    · exact hg.notified id' hbefore
    · exact hid
  attempts := hg.attempts

lemma Backed.forgetAttempt (hg : g.Backed h notices) : (g.forgetAttempt id).Backed h notices where
  notified := hg.notified
  attempts a ha := hg.attempts a (mem_filter.mp ha).1

lemma Backed.remember {messageId : Option String} (hg : g.Backed h notices) :
    (g.remember id messageId).Backed h notices ∧ (g.remember id messageId).id = g.id := by
  have hevict : g.evictDelivery.Backed h notices ∧ g.evictDelivery.id = g.id := by
    unfold evictDelivery
    split
    · exact ⟨hg, rfl⟩
    · split_ifs
      · exact ⟨⟨fun id hid => hg.notified id (mem_filter.mp hid).1,
          fun a ha => hg.attempts a (mem_filter.mp ha).1⟩, rfl⟩
      · exact ⟨hg, rfl⟩
  obtain ⟨hbacked, hid⟩ := hevict
  cases messageId with
  | none => exact ⟨⟨hbacked.notified, hbacked.attempts⟩, hid⟩
  | some messageId => exact ⟨⟨hbacked.notified, hbacked.attempts⟩, hid⟩

end Generation

/-! ### Growing -/

/-- Notices are added and answered, but announce what they did. -/
def Keeps (notices notices' : List Notice) : Prop :=
  ∀ (k : Nat) (n : Notice), notices[k]? = some n →
    ∃ n', notices'[k]? = some n' ∧ n'.generation = n.generation ∧ n'.announced = n.announced

lemma keeps_append (notices : List Notice) (n : Notice) : Keeps notices (notices ++ [n]) := by
  intro k n' hn
  obtain ⟨hlt, -⟩ := List.getElem?_eq_some_iff.mp hn
  exact ⟨n', by rw [getElem?_append_left hlt, hn], rfl, rfl⟩

lemma keeps_answer {notices : List Notice} {i : Nat} {notice : Notice} {accepted : Option Bool}
    (hi : notices[i]? = some notice) :
    Keeps notices (notices.set i { notice with accepted := accepted }) := by
  intro k n hn
  by_cases hk : i = k
  · subst hk
    cases hi.symm.trans hn
    obtain ⟨hlt, -⟩ := List.getElem?_eq_some_iff.mp hn
    exact ⟨_, getElem?_set_self hlt, rfl, rfl⟩
  · exact ⟨n, by rw [getElem?_set_ne hk, hn], rfl, rfl⟩

section Grow

variable {h h' : Heard} {notices notices' : List Notice}

lemma Generation.Backed.grow {g : Generation} (hg : g.Backed h notices) (hle : h.Le h')
    (hkeeps : Keeps notices notices') : g.Backed h' notices' where
  notified id hid := (hg.notified id hid).mono hle
  attempts a ha := by
    obtain ⟨n, hn, hgen, hid⟩ := hg.attempts a ha
    obtain ⟨n', hn', hgen', hids⟩ := hkeeps _ n hn
    exact ⟨n', hn', hgen'.trans hgen, hids ▸ hid⟩

lemma Call.Backed.grow {call : Call} (hcall : call.Backed h notices) (hle : h.Le h')
    (hkeeps : Keeps notices notices') : call.Backed h' notices' := by
  obtain ⟨n, hn, hgen, hwaiting⟩ := hcall
  obtain ⟨n', hn', hgen', hids⟩ := hkeeps _ n hn
  refine ⟨n', hn', hgen'.trans hgen, ?_⟩
  rw [hids]
  cases hw : call.waiting with
  | receive message =>
    rw [hw] at hwaiting
    exact hwaiting
  | announce message => trivial
  | flush settled =>
    rw [hw] at hwaiting
    exact fun id hid => (hwaiting id hid).imp_right (hle.2 id)

end Grow

lemma Heard.le_refl (h : Heard) : h.Le h := ⟨fun _ _ => id, fun _ => id⟩

namespace World

variable {h h' : Heard} {w : World}

lemma Backed.mono (hw : w.Backed h) (hle : h.Le h') : w.Backed h' where
  notices n hn := ⟨(hw.notices n hn).1, fun ha => hle.1 _ _ ((hw.notices n hn).2 ha)⟩
  current := hw.current.grow hle fun _ n hn => ⟨n, hn, rfl, rfl⟩
  calls call hcall := (hw.calls call hcall).grow hle fun _ n hn => ⟨n, hn, rfl, rfl⟩

lemma Backed.withGeneration {g : Generation} (hw : w.Backed h) (hg : g.Backed h w.notices) :
    (w.withGeneration g).Backed h :=
  ⟨hw.notices, hg, hw.calls⟩

/-! ### What a stretch does to the outside -/

/-- The new effects: none, an acknowledgement of what is covered in the current generation, or a
delivery that is taken and acknowledged. -/
inductive Emits (h : Heard) (w w' : World) : Prop where
  | silent (heq : w'.effects = w.effects)
  | covered (deliveryId : String) (g : Generation) (hgen : w'.generation = some g)
      (hcovers : h.Covers g.id deliveryId)
      (heq : w'.effects = w.effects ++ [.acknowledged deliveryId])
  | held (message : Delivery)
      (heq : w'.effects = w.effects ++ [.enqueued message, .acknowledged message.deliveryId])

variable {waiting : Waiting}

lemma backed_await {notice : Nat} (hw : w.Backed h)
    (hcall : (Call.mk waiting w.current.id notice).Backed h w.notices) :
    (w.await waiting notice).Backed h where
  notices := hw.notices
  current := hw.current
  calls call hmem := by
    rcases mem_append.mp hmem with hmem | hmem
    · exact hw.calls call hmem
    · cases mem_singleton.mp hmem
      exact hcall

variable {session : Bool}

lemma backed_notifyAndAwait {lead : String} {announced : List String} (hw : w.Backed h)
    (hlead : lead ∈ announced) (hwaiting : waiting.Within h announced) :
    (w.notifyAndAwait session lead announced waiting).Backed h := by
  unfold notifyAndAwait
  split_ifs
  · have hkeeps := keeps_append w.notices ⟨w.current.id, lead, announced, none⟩
    have hnew : (w.notices ++ [⟨w.current.id, lead, announced, none⟩])[w.notices.length]? =
        some ⟨w.current.id, lead, announced, none⟩ := by simp
    refine backed_await ⟨fun n hn => ?_, ⟨?_, fun a ha => ?_⟩, fun call hcall => ?_⟩
      ⟨_, hnew, rfl, hwaiting⟩
    · rcases mem_append.mp hn with hn | hn
      · exact hw.notices n hn
      · obtain rfl := mem_singleton.mp hn
        exact ⟨hlead, nofun⟩
    · exact hw.current.notified
    · rcases mem_append.mp ha with ha | ha
      · exact (hw.current.forgetAttempt.grow h.le_refl hkeeps).attempts a ha
      · obtain rfl := mem_singleton.mp ha
        exact ⟨_, hnew, rfl, hlead⟩
    · exact (hw.calls call hcall).grow h.le_refl hkeeps
  · exact hw

variable {message : Delivery}

lemma backed_announceAgain (hw : w.Backed h)
    (hwaiting : ∀ announced, message.deliveryId ∈ announced → waiting.Within h announced) :
    (w.announceAgain session message waiting).Backed h := by
  unfold announceAgain
  split
  next notice hattempt =>
    obtain ⟨a, hfound, rfl⟩ := Option.map_eq_some_iff.mp hattempt
    obtain ⟨n, hn, hgen, hid⟩ := hw.current.attempts a (mem_of_find?_eq_some hfound)
    have hkey : a.1 = message.deliveryId := by simpa using find?_some hfound
    exact backed_await hw ⟨n, hn, hgen, hwaiting _ (hkey ▸ hid)⟩
  next =>
    exact backed_notifyAndAwait hw (mem_singleton_self _)
      (hwaiting _ (mem_singleton_self _))

/-! ### The operations -/

lemma effects_notifyAndAwait (w : World) (session : Bool) (lead : String) (announced : List String)
    (waiting : Waiting) : (w.notifyAndAwait session lead announced waiting).effects = w.effects :=
    by
  unfold notifyAndAwait
  split_ifs
  · rfl
  · rfl

lemma effects_announceAgain (w : World) (session : Bool) (message : Delivery)
    (waiting : Waiting) : (w.announceAgain session message waiting).effects = w.effects := by
  unfold announceAgain
  split
  · rfl
  · exact effects_notifyAndAwait _ _ _ _ _

lemma Backed.rememberDelivery (hw : w.Backed h) : (w.rememberDelivery message).Backed h :=
  hw.withGeneration hw.current.remember.1

lemma Backed.emit {e : Effect} (hw : w.Backed h) : (w.emit e).Backed h :=
  ⟨hw.notices, hw.current, hw.calls⟩

lemma Backed.withIndex {s : Index} (hw : w.Backed h) : ({ w with index := s } : World).Backed h :=
  ⟨hw.notices, hw.current, hw.calls⟩

variable {now : Nat}

/-- `receive` acknowledges what is covered, or hands it to the queue. -/
theorem backed_receive {hold : Bool} (hw : w.Backed h)
    (hseen : w.hasSeen message.target message.sequence = true → h.consumed message.deliveryId) :
    (w.receive message hold session now).Backed h ∧
      Emits h w (w.receive message hold session now) := by
  have hcur : (w.withGeneration w.current).Backed h := hw.withGeneration hw.current
  have hremembered : ((w.withGeneration w.current).rememberDelivery message).Backed h :=
    hcur.rememberDelivery
  unfold receive
  by_cases hscope : (message.workspaceId ≠ w.workspaceId || !hasDeliveryScope message) = true
  · rw [if_pos hscope]
    exact ⟨hw, .silent rfl⟩
  rw [if_neg hscope]
  simp only
  by_cases hknown : message.deliveryId ∈ (w.withGeneration w.current).current.seenDeliveryIds
  · rw [if_pos hknown]
    split_ifs with hnotified
    · exact ⟨hcur.emit, .covered _ _ rfl (hw.current.notified _ hnotified) rfl⟩
    · exact ⟨hcur.emit.emit, .held message (by simp [holdDelivery, acknowledge, emit,
        World.withGeneration])⟩
    · exact ⟨backed_announceAgain hcur fun announced hid => hid,
        .silent (effects_announceAgain _ _ _ _)⟩
  · rw [if_neg hknown]
    by_cases hconsumed : (((w.withGeneration w.current).rememberDelivery message).hydrate.hasSeen
        message.target message.sequence) = true
    · rw [if_pos hconsumed]
      rw [hasSeen_hydrate] at hconsumed
      exact ⟨hremembered.withIndex.emit, .covered _ _ rfl (.inl (hseen hconsumed)) rfl⟩
    · rw [if_neg hconsumed]
      split_ifs
      · exact ⟨hremembered.withIndex.withIndex.emit.emit, .held message (by simp [holdDelivery,
          acknowledge, emit, World.rememberDelivery, World.hydrate, World.recordAttention,
          World.withGeneration])⟩
      · exact ⟨backed_notifyAndAwait hremembered.withIndex.withIndex (mem_singleton_self _)
          (mem_singleton_self _), .silent (effects_notifyAndAwait _ _ _ _ _)⟩

theorem backed_announce (hw : w.Backed h) :
    (w.announce message session now).Backed h ∧ Emits h w (w.announce message session now) := by
  have hcur : (w.withGeneration w.current).Backed h := hw.withGeneration hw.current
  unfold announce
  split_ifs
  · exact ⟨hw, .silent rfl⟩
  simp only
  split_ifs
  · exact ⟨hcur, .silent rfl⟩
  · exact ⟨backed_announceAgain hcur fun _ _ => trivial, .silent (effects_announceAgain _ _ _ _)⟩
  · have hremembered : ((w.withGeneration w.current).rememberDelivery message).Backed h :=
      hcur.rememberDelivery
    exact ⟨backed_notifyAndAwait hremembered.withIndex (mem_singleton_self _) trivial,
      .silent (effects_notifyAndAwait _ _ _ _ _)⟩

lemma hasSeen_recordAttention (w : World) (message : Delivery) (now : Nat) (t : Target)
    (n : Nat) : (w.recordAttention message now).hasSeen t n = w.hasSeen t n := by
  rw [hasSeen, hasSeen, Bool.eq_iff_iff, Index.hasSeen_iff, Index.hasSeen_iff,
    index_recordAttention, Index.effective_recordAttention]

lemma backed_flushOne {announced : List String} (hw : w.Backed h)
    (hseen : w.hasSeen message.target message.sequence = true → h.consumed message.deliveryId) :
    let r := flushOne now (w, announced) message
    r.1.Backed h ∧ r.1.effects = w.effects ∧ announced ⊆ r.2 ∧
      (message.deliveryId ∈ r.2 ∨ h.consumed message.deliveryId) ∧
      ∀ t n, r.1.hasSeen t n = w.hasSeen t n := by
  simp only [flushOne]
  split_ifs with hknown hconsumed
  · exact ⟨hw, rfl, subset_append_left _ _, .inl (by simp), fun _ _ => rfl⟩
  · rw [hasSeen_hydrate] at hconsumed
    exact ⟨hw.rememberDelivery.withIndex, rfl, Subset.refl _, .inr (hseen hconsumed),
      fun t n => hasSeen_hydrate _ t n⟩
  · refine ⟨hw.rememberDelivery.withIndex.withIndex, rfl, subset_append_left _ _,
      .inl (by simp), fun t n => ?_⟩
    rw [hasSeen_recordAttention, hasSeen_hydrate]
    rfl

lemma backed_foldl_flushOne : ∀ (messages : List Delivery) {w : World}
    {announced : List String}, w.Backed h →
    (∀ m ∈ messages, w.hasSeen m.target m.sequence = true → h.consumed m.deliveryId) →
    let r := messages.foldl (flushOne now) (w, announced)
    r.1.Backed h ∧ r.1.effects = w.effects ∧ announced ⊆ r.2 ∧
      ∀ m ∈ messages, m.deliveryId ∈ r.2 ∨ h.consumed m.deliveryId
  | [], _, announced, hw, _ => ⟨hw, rfl, Subset.refl announced, fun _ hm => nomatch hm⟩
  | message :: messages, w, announced, hw, hseen => by
    obtain ⟨hfirst, heffects, hkept, hcovered, hsame⟩ := @backed_flushOne h w message now announced
      hw (hseen message mem_cons_self)
    obtain ⟨hrest, heffects', hkept', hcovered'⟩ :=
      @backed_foldl_flushOne messages (flushOne now (w, announced) message).1
        (flushOne now (w, announced) message).2 hfirst
        fun m hm hconsumed => hseen m (mem_cons_of_mem _ hm) (hsame _ _ ▸ hconsumed)
    refine ⟨hrest, heffects'.trans heffects, Subset.trans hkept hkept', fun m hm => ?_⟩
    rcases mem_cons.mp hm with rfl | hm
    · exact hcovered.imp_left fun hid => hkept' hid
    · exact hcovered' m hm

lemma Generation.backed_foldl_addNotified {notices : List Notice} :
    ∀ (ids : List String) {g : Generation}, g.Backed h notices →
      (∀ id ∈ ids, h.Covers g.id id) → (ids.foldl Generation.addNotified g).Backed h notices
  | [], _, hg, _ => hg
  | id :: ids, _, hg, hcovers =>
    Generation.backed_foldl_addNotified ids (hg.addNotified (hcovers id List.mem_cons_self))
      fun id' hid' => hcovers id' (List.mem_cons_of_mem _ hid')

lemma backed_settleFlush {settled : List String} (hw : w.Backed h)
    (hcovers : ∀ id ∈ settled, h.Covers w.current.id id) : (w.settleFlush settled).Backed h :=
  hw.withGeneration (Generation.backed_foldl_addNotified settled hw.current hcovers)

theorem backed_flush {held : List Delivery} (hw : w.Backed h)
    (hseen : ∀ m ∈ held, w.hasSeen m.target m.sequence = true → h.consumed m.deliveryId) :
    (w.flush held session now).Backed h ∧ Emits h w (w.flush held session now) := by
  unfold flush
  split_ifs with hempty
  · exact ⟨hw, .silent rfl⟩
  have hcur : (w.withGeneration w.current).Backed h := hw.withGeneration hw.current
  obtain ⟨hfold, heffects, -, hcovered⟩ := @backed_foldl_flushOne h now
    (held.filter hasDeliveryScope) _ [] hcur fun m hm => hseen m (mem_filter.mp hm).1
  simp only
  split
  next hnone =>
    have hall : ∀ id ∈ (held.filter hasDeliveryScope).map Delivery.deliveryId, h.consumed id := by
      intro id hid
      obtain ⟨m, hm, rfl⟩ := mem_map.mp hid
      refine (hcovered m hm).resolve_left fun hmem => ?_
      rw [getLast?_eq_none_iff.mp hnone] at hmem
      exact not_mem_nil hmem
    exact ⟨backed_settleFlush hfold fun id hid => .inl (hall id hid), .silent heffects⟩
  next lead hlead =>
    refine ⟨backed_notifyAndAwait hfold (mem_of_getLast? hlead) fun id hid => ?_,
      .silent ((effects_notifyAndAwait _ _ _ _ _).trans heffects)⟩
    obtain ⟨m, hm, rfl⟩ := mem_map.mp hid
    exact hcovered m hm

/-! ### Answers -/

lemma Backed.withCalls {calls : List (Option Call)} (hw : w.Backed h)
    (hcalls : ∀ call, some call ∈ calls → some call ∈ w.calls) :
    ({ w with calls := calls } : World).Backed h :=
  ⟨hw.notices, hw.current, fun call hcall => hw.calls call (hcalls call hcall)⟩

variable {i : Nat} {accepted : Bool}

lemma Backed.answered {notice : Notice} (hw : w.Backed h) (hi : w.notices[i]? = some notice)
    (htold : accepted = true → h.told notice.generation notice.announced) :
    ({ w with notices := w.notices.set i { notice with accepted := some accepted } } :
      World).Backed h := by
  have hkeeps := @keeps_answer w.notices i notice (some accepted) hi
  refine ⟨fun n hn => ?_, hw.current.grow h.le_refl hkeeps,
    fun call hcall => (hw.calls call hcall).grow h.le_refl hkeeps⟩
  rcases mem_or_eq_of_mem_set hn with hn | rfl
  · exact hw.notices n hn
  · exact ⟨(hw.notices notice (mem_of_getElem? hi)).1,
      fun haccepted => htold (Option.some.inj haccepted)⟩

lemma current_of_isCurrent {g : Nat} (hcur : w.isCurrent g = true) : w.current.id = g := by
  cases hgen : w.generation with
  | none => simp [isCurrent, hgen] at hcur
  | some gen => simpa [isCurrent, current, hgen] using hcur

variable {w' : World}

/-- The session answers: an accepted notice was told. -/
theorem backed_answer (hw : w.Backed h)
    (htold : ∀ n, w.notices[i]? = some n → accepted = true → h.told n.generation n.announced)
    (hstep : w.answer i accepted = some w') : w'.Backed h ∧ Emits h w w' := by
  unfold answer at hstep
  split at hstep
  · cases hstep
  next notice hnotice =>
    have hbacked := @Backed.answered h w i accepted notice hw hnotice (htold notice hnotice)
    split_ifs at hstep with hanswered hcond
    · cases hstep
      rw [Bool.and_eq_true] at hcond
      have hid : w.current.id = notice.generation := current_of_isCurrent hcond.2
      have hlead : h.Covers notice.generation notice.lead :=
        .inr ⟨_, (hw.notices notice (mem_of_getElem? hnotice)).1, htold notice hnotice hcond.1⟩
      exact ⟨hbacked.withGeneration (hbacked.current.addNotified (hid.symm ▸ hlead)), .silent rfl⟩
    · cases hstep
      exact ⟨hbacked, .silent rfl⟩

theorem backed_forget (hw : w.Backed h) (hstep : w.forget i = some w') :
    w'.Backed h ∧ Emits h w w' := by
  unfold forget at hstep
  split at hstep
  · cases hstep
  · split_ifs at hstep
    · cases hstep
      exact ⟨hw.withGeneration hw.current.forgetAttempt, .silent rfl⟩
    · cases hstep
      exact ⟨hw, .silent rfl⟩

/-- A call goes on after its notice was accepted, within the generation it started in. -/
theorem backed_resume (hw : w.Backed h) (hstep : w.resume i = some w') :
    w'.Backed h ∧ Emits h w w' := by
  unfold resume at hstep
  split at hstep
  · cases hstep
  next call hcall =>
    have hmem : some call ∈ w.calls := by
      rw [Option.join_eq_some_iff] at hcall
      exact mem_of_getElem? hcall
    obtain ⟨n, hn, hgen, hwithin⟩ := hw.calls call hmem
    split at hstep
    · cases hstep
    next accepted haccepted =>
      cases hstep
      have hresumed : ({ w with calls := w.calls.set i none } : World).Backed h :=
        hw.withCalls fun c hc => (mem_or_eq_of_mem_set hc).resolve_right nofun
      split_ifs with hcond
      · rw [Bool.and_eq_true] at hcond
        have hid : w.current.id = call.generation := current_of_isCurrent hcond.2
        have htold : h.told call.generation n.announced := by
          rw [hn, Option.bind_some, hcond.1] at haccepted
          exact hgen ▸ (hw.notices n (mem_of_getElem? hn)).2 haccepted
        cases hwaiting : call.waiting with
        | receive message =>
          rw [hwaiting] at hwithin
          obtain ⟨g, hg⟩ : ∃ g, w.generation = some g := by
            cases hg : w.generation with
            | none => simp [isCurrent, hg] at hcond
            | some g => exact ⟨g, rfl⟩
          have hgid : g.id = call.generation := by simpa [current, hg] using hid
          exact ⟨hresumed.emit, .covered message.deliveryId g hg
            (.inr ⟨_, hwithin, hgid.symm ▸ htold⟩) rfl⟩
        | announce message => exact ⟨hresumed, .silent rfl⟩
        | flush settled =>
          rw [hwaiting] at hwithin
          refine ⟨backed_settleFlush hresumed fun id hidmem => ?_, .silent rfl⟩
          refine (hwithin id hidmem).elim (fun hann => .inr ⟨_, hann, ?_⟩) .inl
          exact (show w.current.id = call.generation from hid) ▸ htold
      · exact ⟨hresumed, .silent rfl⟩

/-! ### Recoveries -/

theorem backed_recover {messages : List RecoveryMessage} {unreadSummary : List (Target × Nat)}
    (hw : w.Backed h) : (w.recover messages unreadSummary session).Backed h ∧
      Emits h w (w.recover messages unreadSummary session) := by
  have hcur : (w.withGeneration w.current).Backed h := hw.withGeneration hw.current
  unfold recover
  simp only
  split_ifs
  · exact ⟨hcur, .silent rfl⟩
  · exact ⟨hcur, .silent rfl⟩
  · exact ⟨⟨hcur.notices, hcur.current, hcur.calls⟩, .silent rfl⟩

lemma backed_foldl_recordRecovered : ∀ (messages : List RecoveryMessage) {w : World},
    w.Backed h → (∀ m ∈ messages, h.Covers w.current.id m.deliveryId) →
      (messages.foldl recordRecovered w).Backed h ∧
        (messages.foldl recordRecovered w).effects = w.effects
  | [], _, hw, _ => ⟨hw, rfl⟩
  | message :: messages, w, hw, hcovers => by
    obtain ⟨hremembered, hid⟩ := @Generation.Backed.remember h w.notices w.current
      message.deliveryId (some message.messageId) hw.current
    have hnotified := hremembered.addNotified (hid.symm ▸ hcovers message mem_cons_self)
    have hone : (recordRecovered w message).Backed h :=
      (hw.withGeneration hnotified).withIndex
    have hsame : (recordRecovered w message).current.id = w.current.id := hid
    obtain ⟨hrest, heffects⟩ := @backed_foldl_recordRecovered messages (recordRecovered w message)
      hone fun m hm => hsame.symm ▸ hcovers m (mem_cons_of_mem _ hm)
    exact ⟨hrest, heffects⟩

/-- The session answers a recovery: what it brings was told. -/
theorem backed_answerRecovery (hw : w.Backed h)
    (htold : ∀ r, w.recoveries[i]?.join = some r → accepted = true →
      h.told r.generation (r.messages.map RecoveryMessage.deliveryId))
    (hstep : w.answerRecovery i accepted = some w') : w'.Backed h ∧ Emits h w w' := by
  unfold answerRecovery at hstep
  split at hstep
  · cases hstep
  next r hr =>
    cases hstep
    split_ifs with hcond
    · rw [Bool.and_eq_true] at hcond
      have hid : w.current.id = r.generation := current_of_isCurrent hcond.2
      have hstart : (({ w with recoveries := w.recoveries.set i none } : World).withAttention
          r.byTarget).Backed h := ⟨hw.notices, hw.current, hw.calls⟩
      obtain ⟨hbacked, heffects⟩ := backed_foldl_recordRecovered r.messages hstart fun m hm =>
        .inr ⟨_, mem_map_of_mem hm,
          (show w.current.id = r.generation from hid) ▸ htold r hr hcond.1⟩
      exact ⟨hbacked, .silent heffects⟩
    · exact ⟨⟨hw.notices, hw.current, hw.calls⟩, .silent rfl⟩

lemma backed_clearAgent (hw : w.Backed h) :
    ({ w with index := w.index.clearAgent, generation := none } : World).Backed h :=
  ⟨hw.notices, Generation.backed_new _ _ _, hw.calls⟩

/-! ### What an earlier generation started -/

/-- The generation in which something was started that now goes on. -/
def startedUnder (w : World) : Label → Option Nat
  | .answer notice _           => w.notices[notice]?.map Notice.generation
  | .forget notice             => w.notices[notice]?.map Notice.generation
  | .resume call               => w.calls[call]?.join.map Call.generation
  | .answerRecovery recovery _ => w.recoveries[recovery]?.join.map Recovery.generation
  | _                          => none

/-- What was started in another generation notes nothing in the current one, and acknowledges
nothing. -/
theorem stale_step {l : Label} {g : Nat} (hstep : step w l = some w')
    (hstarted : w.startedUnder l = some g) (hstale : w.isCurrent g = false) :
    w'.generation = w.generation ∧ w'.effects = w.effects := by
  cases l with
  | answer notice accepted =>
    simp only [step, answer] at hstep
    split at hstep
    · cases hstep
    next n hn =>
      obtain rfl : n.generation = g := by simpa [startedUnder, hn] using hstarted
      split_ifs at hstep with hanswered hcond
      · simp [hstale] at hcond
      · cases hstep
        exact ⟨rfl, rfl⟩
  | forget notice =>
    simp only [step, forget] at hstep
    split at hstep
    · cases hstep
    next n hn =>
      obtain rfl : n.generation = g := by simpa [startedUnder, hn] using hstarted
      split_ifs at hstep with hanswered hcurrent
      · exact absurd (hstale.symm.trans hcurrent) Bool.false_ne_true
      · cases hstep
        exact ⟨rfl, rfl⟩
  | resume call =>
    simp only [step, resume] at hstep
    split at hstep
    · cases hstep
    next c hc =>
      obtain rfl : c.generation = g := by simpa [startedUnder, hc] using hstarted
      split at hstep
      · cases hstep
      next accepted haccepted =>
        have hother : ({ w with calls := w.calls.set call none } : World).isCurrent
            c.generation = false := hstale
        rw [hother, Bool.and_false] at hstep
        cases hstep
        exact ⟨rfl, rfl⟩
  | answerRecovery recovery accepted =>
    simp only [step, answerRecovery] at hstep
    split at hstep
    · cases hstep
    next r hr =>
      obtain rfl : r.generation = g := by simpa [startedUnder, hr] using hstarted
      have hother : ({ w with recoveries := w.recoveries.set recovery none } : World).isCurrent
          r.generation = false := hstale
      rw [hother, Bool.and_false] at hstep
      cases hstep
      exact ⟨rfl, rfl⟩
  | receive | announce | flush | recover | bookkeeping | clearAgent => cases hstarted

end World

end Coforge.Attention
