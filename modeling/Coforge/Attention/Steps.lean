import Coforge.Attention.Kept
import Coforge.Attention.System

/-!
# What the steps of the index keep

The operations of the index keep its fields in agreement, but not every step of a run uses them as
they are meant. `announce` and a recovery record messages without looking whether the Agent has
seen them, and a recovery writes back the attention it copied before its await. A step is
undisturbed when what it records is unseen and what it writes back is still what there was.

Along such steps the index stays as `Index.Kept` says, with the order of the deliveries and a bound
on them as further conditions.
-/

namespace Coforge.Attention

open Transition

namespace World

open Index

variable {w : World}

/-! ### What leaves the index alone -/

@[simp] lemma index_hydrate (w : World) : w.hydrate.index = w.index.hydrate := rfl

@[simp] lemma index_recordAttention (w : World) (message : Delivery) (now : Nat) :
    (w.recordAttention message now).index = w.index.recordAttention message now := rfl

@[simp] lemma index_notifyAndAwait (w : World) (session : Bool) (lead : String)
    (announced : List String) (waiting : Waiting) :
    (w.notifyAndAwait session lead announced waiting).index = w.index := by
  simp only [notifyAndAwait]
  split_ifs <;> rfl

@[simp] lemma index_announceAgain (w : World) (session : Bool) (message : Delivery)
    (waiting : Waiting) : (w.announceAgain session message waiting).index = w.index := by
  simp only [announceAgain]
  split
  · rfl
  · exact index_notifyAndAwait _ _ _ _ _

variable {w' : World} {i : Nat} {accepted : Bool}

lemma index_answer (h : w.answer i accepted = some w') : w'.index = w.index := by
  simp only [answer] at h
  split at h
  · exact nomatch h
  · split_ifs at h
    all_goals
      cases h
      rfl

lemma index_forget (h : w.forget i = some w') : w'.index = w.index := by
  simp only [forget] at h
  split at h
  · exact nomatch h
  · split_ifs at h
    all_goals
      cases h
      rfl

lemma index_resume (h : w.resume i = some w') : w'.index = w.index := by
  simp only [resume] at h
  split at h
  · exact nomatch h
  · split at h
    · exact nomatch h
    · split_ifs at h
      · split at h
        all_goals
          cases h
          rfl
      · cases h
        rfl

lemma index_recover (w : World) (messages : List RecoveryMessage)
    (unreadSummary : List (Target × Nat)) (session : Bool) :
    (w.recover messages unreadSummary session).index = w.index := by
  simp only [recover]
  split_ifs <;> rfl

/-! ### Conditions on a step -/

/-- Each delivery that the rest of a flush records meets `P` when its turn comes. -/
def FlushRecords (P : World → Delivery → Prop) (now : Nat) :
    World × List String → List Delivery → Prop
  | _, []                  => True
  | r, message :: messages =>
    (message.deliveryId ∉ r.1.current.seenDeliveryIds →
      r.1.hasSeen message.target message.sequence = false → P r.1 message) ∧
      FlushRecords P now (flushOne now r message) messages

/-- Each delivery that a step records meets `P`. -/
def Records (P : World → Delivery → Prop) (w : World) : Label → Prop
  | .receive message _ _ _ => message.deliveryId ∉ w.current.seenDeliveryIds →
      w.hasSeen message.target message.sequence = false → P w message
  | .announce message _ _ => message.deliveryId ∉ w.current.seenDeliveryIds → P w message
  | .flush held _ now =>
      FlushRecords P now (w.withGeneration w.current, []) (held.filter hasDeliveryScope)
  | _ => True

/-- A recovery that a step writes back meets `P`. -/
def Writes (P : World → Recovery → Prop) (w : World) : Label → Prop
  | .answerRecovery i accepted => ∀ r, w.recoveries[i]?.join = some r → accepted = true →
      w.isCurrent r.generation → P w r
  | _ => True

/-- A delivery the Agent has not seen. -/
def Unseen (w : World) (message : Delivery) : Prop :=
  w.hasSeen message.target message.sequence = false

/-- A delivery that does not come below the first pending sequence of its target. -/
def InOrder (w : World) (message : Delivery) : Prop :=
  ∀ a, w.index.attention message.target = some a → a.firstPendingSequence ≤ message.sequence

/-- A recovery that finds the attention as it was before its await, and its messages unseen. -/
structure Current (w : World) (r : Recovery) : Prop where
  attention : w.index.attention = r.currentAttention
  unseen : ∀ message ∈ r.messages, w.hasSeen message.target message.sequence = false

/-- What a step records is unseen, and what it writes back is current. -/
structure Undisturbed (w : World) (l : Label) : Prop where
  unseen : Records Unseen w l
  current : Writes Current w l

/-- What a step adds to the pending sequences stays within a bound. -/
structure StaysWithin (b : Target → Nat → Prop) (w : World) (l : Label) : Prop where
  records : Records (fun _ message => b message.target message.sequence) w l
  writes : Writes (fun _ r => ∀ message ∈ r.messages, b message.target message.sequence) w l

section Recorded

variable {P Q : World → Delivery → Prop}

lemma FlushRecords.mono (hle : ∀ w message, P w message → Q w message) {now : Nat}
    {messages : List Delivery} : ∀ {r : World × List String},
      FlushRecords P now r messages → FlushRecords Q now r messages := by
  induction messages with
  | nil => exact fun _ => trivial
  | cons message messages ih =>
    exact fun h => ⟨fun hid hseen => hle _ _ (h.1 hid hseen), ih h.2⟩

lemma Records.mono (hle : ∀ w message, P w message → Q w message) {l : Label}
    (h : Records P w l) : Records Q w l := by
  cases l with
  | receive message hold session now => exact fun hid hseen => hle _ _ (h hid hseen)
  | announce message session now => exact fun hid => hle _ _ (h hid)
  | flush held session now => exact FlushRecords.mono hle h
  | _ => trivial

lemma records_of_forall (h : ∀ w message, P w message) (w : World) (l : Label) : Records P w l := by
  have hflush : ∀ now messages r, FlushRecords P now r messages := by
    intro now messages
    induction messages with
    | nil => exact fun _ => trivial
    | cons message messages ih => exact fun r => ⟨fun _ _ => h _ _, ih _⟩
  cases l with
  | receive message hold session now => exact fun _ _ => h _ _
  | announce message session now => exact fun _ => h _ _
  | flush held session now => exact hflush _ _ _
  | _ => trivial

end Recorded

lemma staysWithin_true (w : World) (l : Label) : StaysWithin (fun _ _ => True) w l where
  records := records_of_forall (fun _ _ => trivial) w l
  writes := by
    cases l with
    | answerRecovery recovery accepted => exact fun _ _ _ _ _ _ => trivial
    | _ => trivial

variable {l : Label}

lemma StaysWithin.mono {b b' : Target → Nat → Prop} (hle : ∀ t n, b t n → b' t n)
    (h : StaysWithin b w l) : StaysWithin b' w l where
  records := h.records.mono fun _ message => hle message.target message.sequence
  writes := by
    cases l with
    | answerRecovery recovery accepted =>
      exact fun r hr ha hc message hm => hle _ _ (h.writes r hr ha hc message hm)
    | _ => trivial

/-! ### Deliveries -/

variable {o : Prop} {b : Target → Nat → Prop}

/-- What `Kept` needs of a delivery that is recorded. -/
structure Fits (o : Prop) (b : Target → Nat → Prop) (w : World) (message : Delivery) : Prop where
  unseen : Unseen w message
  order : o → InOrder w message
  within : b message.target message.sequence

variable {message : Delivery}

lemma kept_recordAttention (h : w.index.Kept o b) (now : Nat)
    (hfits : Fits o b w message) : (w.recordAttention message now).index.Kept o b :=
  h.recordAttention now hfits.unseen hfits.within hfits.order

lemma hasSeen_hydrate (w : World) (t : Target) (n : Nat) : w.hydrate.hasSeen t n = w.hasSeen t n :=
    by
  rw [hasSeen, hasSeen, Bool.eq_iff_iff, hasSeen_iff, hasSeen_iff, index_hydrate, effective_hydrate]

lemma Fits.hydrate (h : Fits o b w message) : Fits o b w.hydrate message where
  unseen := (hasSeen_hydrate w _ _).trans h.unseen
  order := by
    intro ho a ha
    rw [index_hydrate, attention, hydrate_unreviewed] at ha
    exact h.order ho a ha
  within := h.within

lemma kept_hydrate (h : w.index.Kept o b) : w.hydrate.index.Kept o b := Index.kept_hydrate.mpr h

variable {session : Bool} {now : Nat}

lemma kept_receive (h : w.index.Kept o b) {hold : Bool}
    (hok : Records (Fits o b) w (.receive message hold session now)) :
    (w.receive message hold session now).index.Kept o b := by
  simp only [receive]
  split_ifs with hscope hseen hnotified hhold hconsumed hhold
  · exact h
  · exact h
  · exact h
  · rw [index_announceAgain]
    exact h
  · exact kept_hydrate (w := w) h
  all_goals
    have hnew : w.hasSeen message.target message.sequence = false := by
      rw [← hasSeen_hydrate]
      exact eq_false_of_ne_true hconsumed
    have hkept := kept_recordAttention (kept_hydrate h) now (hok hseen hnew).hydrate
  · exact hkept
  · rw [index_notifyAndAwait]
    exact hkept

lemma kept_announce (h : w.index.Kept o b)
    (hok : Records (Fits o b) w (.announce message session now)) :
    (w.announce message session now).index.Kept o b := by
  simp only [announce]
  split_ifs with hscope hseen hnotified
  · exact h
  · exact h
  · rw [index_announceAgain]
    exact h
  · rw [index_notifyAndAwait]
    exact kept_recordAttention h now (hok hseen)

lemma kept_flushOne {r : World × List String} (h : r.1.index.Kept o b)
    (hok : message.deliveryId ∉ r.1.current.seenDeliveryIds →
      r.1.hasSeen message.target message.sequence = false → Fits o b r.1 message) :
    (flushOne now r message).1.index.Kept o b := by
  simp only [flushOne]
  split_ifs with hseen hconsumed
  · exact h
  · exact kept_hydrate (w := r.1) h
  · have hnew : r.1.hasSeen message.target message.sequence = false := by
      rw [← hasSeen_hydrate]
      exact eq_false_of_ne_true hconsumed
    exact kept_recordAttention (kept_hydrate h) now (hok hseen hnew).hydrate

lemma kept_foldl_flushOne {messages : List Delivery} :
    ∀ {r : World × List String}, r.1.index.Kept o b → FlushRecords (Fits o b) now r messages →
      (messages.foldl (flushOne now) r).1.index.Kept o b := by
  induction messages with
  | nil => exact fun h _ => h
  | cons message messages ih => exact fun h hok => ih (kept_flushOne h hok.1) hok.2

lemma kept_flush (h : w.index.Kept o b) {held : List Delivery}
    (hok : Records (Fits o b) w (.flush held session now)) :
    (w.flush held session now).index.Kept o b := by
  simp only [flush]
  split_ifs
  · exact h
  · have hkept := @kept_foldl_flushOne _ _ now _ (w.withGeneration w.current, []) h hok
    split
    · exact hkept
    · rw [index_notifyAndAwait]
      exact hkept

/-! ### The write of a recovery -/

lemma kept_recoverAttention {p : Nat → Prop} {c : ConsumedSeqEntry} {u : Unreviewed}
    (h : u.Kept o p c) {att : Target → Option MessageAttention} {message : RecoveryMessage}
    (hatt : u.attention = att message.target) (hnew : ¬ c.Seen message.sequence)
    (hwithin : p message.sequence) : Unreviewed.Kept o p c { u with
      attention := recoverAttention att message message.target
      pendingSequences := some (insert message.sequence u.pending) } where
  record := by simp [recoverAttention, Unreviewed.pending]
  unseen := by
    intro n hn
    rcases Finset.mem_insert.mp hn with rfl | hn
    · exact hnew
    · exact h.unseen n hn
  window := fun e he => Finset.mem_insert_of_mem (h.window e he)
  covers := by
    intro a ha
    have hcard := Finset.card_insert_le message.sequence u.pending
    simp only [recoverAttention, if_true, Option.some.injEq] at ha
    rcases hb : att message.target with _ | d
    · have hempty : u.pending = ∅ := by
        rw [← Finset.not_nonempty_iff_eq_empty, ← h.record, hatt, hb]
        simp
      simp only [hb, Option.map_none, Option.getD_none, min_self] at ha
      subst ha
      change MessageAttention.Covers o _ (insert message.sequence u.pending)
      rw [hempty]
      exact ⟨by simp, by simp⟩
    · obtain ⟨hleast, hcount⟩ := h.covers d (hatt.trans hb)
      simp only [hb, Option.map_some, Option.getD_some] at ha
      subst ha
      refine ⟨fun ho => ⟨?_, ?_⟩, le_trans hcard (Nat.succ_le_succ hcount)⟩
      · rcases min_choice d.firstPendingSequence message.sequence with hmin | hmin
        · simp only [hmin]
          exact Finset.mem_coe.mpr (Finset.mem_insert_of_mem (hleast ho).1)
        · simp only [hmin]
          exact Finset.mem_coe.mpr (Finset.mem_insert_self _ _)
      · intro n hn
        rcases Finset.mem_insert.mp (Finset.mem_coe.mp hn) with rfl | hn
        · exact min_le_right _ _
        · exact (min_le_left _ _).trans ((hleast ho).2 hn)
  within := by
    intro n hn
    rcases Finset.mem_insert.mp hn with rfl | hn
    · exact hwithin
    · exact h.within n hn

lemma effective_recordRecovered (w : World) (message : RecoveryMessage) :
    (w.recordRecovered message).index.effective = w.index.effective := by
  refine Eq.trans ?_ (effective_recordConversation w.index message.target
    message.conversationId)
  exact effective_congr rfl rfl rfl

lemma attention_recordRecovered (w : World) (message : RecoveryMessage) :
    (w.recordRecovered message).index.attention = w.index.attention := by
  funext t
  simp only [recordRecovered, attention, withUnreviewed, recordConversation]
  by_cases ht : t = message.target
  · subst ht
    split_ifs <;> simp
  · split_ifs <;> simp [ht]

lemma window_recordRecovered (w : World) (message : RecoveryMessage) (t : Target) :
    ((w.recordRecovered message).index.unreviewed t).pendingWindow =
      (w.index.unreviewed t).pendingWindow := by
  simp only [recordRecovered, withUnreviewed, recordConversation]
  by_cases ht : t = message.target
  · subst ht
    split_ifs <;> simp
  · split_ifs <;> simp [ht]

lemma pending_recordRecovered (w : World) (message : RecoveryMessage) (t : Target) :
    ((w.recordRecovered message).index.unreviewed t).pending =
      if t = message.target then insert message.sequence (w.index.unreviewed t).pending
      else (w.index.unreviewed t).pending := by
  simp only [recordRecovered, withUnreviewed, recordConversation]
  by_cases ht : t = message.target
  · subst ht
    split_ifs <;> simp [Unreviewed.pending]
  · split_ifs <;> simp [Unreviewed.pending, ht]

section Fold

variable {messages : List RecoveryMessage}

lemma effective_foldl_recordRecovered :
    ∀ {w : World}, (messages.foldl recordRecovered w).index.effective = w.index.effective := by
  induction messages with
  | nil => exact rfl
  | cons message messages ih => exact fun {w} => ih.trans (effective_recordRecovered w message)

lemma attention_foldl_recordRecovered :
    ∀ {w : World}, (messages.foldl recordRecovered w).index.attention = w.index.attention := by
  induction messages with
  | nil => exact rfl
  | cons message messages ih => exact fun {w} => ih.trans (attention_recordRecovered w message)

lemma window_foldl_recordRecovered (t : Target) :
    ∀ {w : World}, ((messages.foldl recordRecovered w).index.unreviewed t).pendingWindow =
      (w.index.unreviewed t).pendingWindow := by
  induction messages with
  | nil => exact rfl
  | cons message messages ih => exact fun {w} => ih.trans (window_recordRecovered w message t)

lemma mem_pending_foldl_recordRecovered (t : Target) (n : Nat) :
    ∀ {w : World}, n ∈ ((messages.foldl recordRecovered w).index.unreviewed t).pending ↔
      n ∈ (w.index.unreviewed t).pending ∨
        ∃ message ∈ messages, message.target = t ∧ message.sequence = n := by
  induction messages with
  | nil => simp
  | cons message messages ih =>
    intro w
    rw [List.foldl_cons, ih, pending_recordRecovered]
    simp only [List.exists_mem_cons_iff]
    by_cases ht : t = message.target
    · subst ht
      rw [if_pos rfl, Finset.mem_insert]
      constructor
      · rintro ((rfl | hn) | hm)
        · exact Or.inr (Or.inl ⟨rfl, rfl⟩)
        · exact Or.inl hn
        · exact Or.inr (Or.inr hm)
      · rintro (hn | ⟨-, rfl⟩ | hm)
        · exact Or.inl (Or.inr hn)
        · exact Or.inl (Or.inl rfl)
        · exact Or.inr hm
    · rw [if_neg ht]
      constructor
      · exact fun h => h.imp_right Or.inr
      · rintro (hn | ⟨rfl, -⟩ | hm)
        · exact Or.inl hn
        · exact absurd rfl ht
        · exact Or.inr hm

/-- The entries a recovery leaves, with the records it writes. The induction is on the messages
still to come; the records already contain them when the first one becomes pending. -/
lemma kept_foldl_recordRecovered : ∀ {w : World} {att : Target → Option MessageAttention},
      (∀ t, Unreviewed.Kept o (b t) (w.index.effective t)
        { w.index.unreviewed t with attention := att t }) →
      (∀ message ∈ messages, ¬ (w.index.effective message.target).Seen message.sequence) →
      (∀ message ∈ messages, b message.target message.sequence) →
      ∀ t, Unreviewed.Kept o (b t) (w.index.effective t)
        { (messages.foldl recordRecovered w).index.unreviewed t with
          attention := messages.foldl recoverAttention att t } := by
  induction messages with
  | nil => exact fun h _ _ => h
  | cons message messages ih =>
    intro w att h hnew hwithin
    have heff := effective_recordRecovered w message
    rw [← heff] at h hnew ⊢
    refine @ih (w.recordRecovered message) (recoverAttention att message) ?_
      (fun m hm => hnew m (List.mem_cons_of_mem _ hm))
      fun m hm => hwithin m (List.mem_cons_of_mem _ hm)
    intro t
    have hpending := pending_recordRecovered w message t
    have hwindow := window_recordRecovered w message t
    by_cases ht : t = message.target
    · subst ht
      rw [if_pos rfl] at hpending
      have hone := @kept_recoverAttention _ _ _ _ (h message.target) att _ rfl
        (hnew message List.mem_cons_self) (hwithin message List.mem_cons_self)
      refine ⟨?_, ?_, ?_, ?_, ?_⟩
      · exact hpending ▸ hone.record
      · exact hpending ▸ hone.unseen
      · exact hpending ▸ hwindow ▸ hone.window
      · exact hpending ▸ hone.covers
      · exact hpending ▸ hone.within
    · rw [if_neg ht] at hpending
      have hatt : recoverAttention att message t = att t := if_neg ht
      have hold := h t
      refine ⟨?_, ?_, ?_, ?_, ?_⟩
      · rw [hatt]
        exact hpending ▸ hold.record
      · exact hpending ▸ hold.unseen
      · exact hpending ▸ hwindow ▸ hold.window
      · rw [hatt]
        exact hpending ▸ hold.covers
      · exact hpending ▸ hold.within

end Fold

/-- The world after a recovery was accepted: its write, on the world without the call. -/
lemma answerRecovery_eq (h : w.answerRecovery i accepted = some w') :
    ∃ r, w.recoveries[i]?.join = some r ∧ w' = (if accepted && w.isCurrent r.generation then
        r.messages.foldl recordRecovered
          ({ w with recoveries := w.recoveries.set i none }.withAttention r.byTarget)
      else { w with recoveries := w.recoveries.set i none }) := by
  simp only [answerRecovery] at h
  split at h
  · exact nomatch h
  · next r hr => exact ⟨r, hr, (Option.some.inj h).symm⟩

lemma kept_answerRecovery (h : w.index.Kept o b)
    (hcurrent : Writes Current w (.answerRecovery i accepted))
    (hwithin : Writes (fun _ r => ∀ message ∈ r.messages, b message.target message.sequence) w
      (.answerRecovery i accepted))
    (hstep : w.answerRecovery i accepted = some w') : w'.index.Kept o b := by
  obtain ⟨r, hr, rfl⟩ := answerRecovery_eq hstep
  split_ifs with hwrite
  · rw [Bool.and_eq_true] at hwrite
    obtain ⟨hsame, hnew⟩ := hcurrent r hr hwrite.1 hwrite.2
    let v : World := World.withAttention { w with recoveries := w.recoveries.set i none } r.byTarget
    have heff : v.index.effective = w.index.effective := effective_congr rfl rfl rfl
    have hfold := @kept_foldl_recordRecovered o b r.messages v
      r.currentAttention ?_ ?_ (hwithin r hr hwrite.1 hwrite.2)
    · intro t
      have hkept := hfold t
      -- the records it wrote are those its messages make of the attention it started from
      have hatt : r.messages.foldl recoverAttention r.currentAttention t =
          ((r.messages.foldl recordRecovered v).index.unreviewed t).attention :=
        (congrFun (@attention_foldl_recordRecovered r.messages v) t).symm
      rw [hatt] at hkept
      rw [effective_foldl_recordRecovered]
      exact hkept
    · intro t
      rw [heff, ← hsame]
      exact h t
    · intro message hm
      rw [heff, ← hasSeen_iff]
      exact ne_true_of_eq_false (hnew message hm)
  · exact h

/-! ### Runs -/

lemma kept_apply {s : Index} (h : s.Kept o b) (k : Bookkeeping) : (k.apply s).Kept o b := by
  cases k with
  | look => exact Index.kept_hydrate.mpr h
  | recordModelSeen target sequence => exact h.recordModelSeen target sequence
  | recordReadContext target sequence => exact h.recordReadContext target sequence
  | recordExactSeen shown => exact h.recordExactSeen shown
  | recordHistoryRead read => exact h.recordHistoryRead read
  | recordSendContext target through review => exact h.recordSendContext target through review
  | recordTargetAlias spelling canonical => exact h.recordTargetAlias spelling canonical
  | clear target => exact h.clearAll _
  | clearThrough target sequence => exact h.clearThrough target sequence
  | clearTargets targets => exact h.clearAll _
  | disk fails => exact kept_congr (s := s) rfl rfl rfl h

lemma records_fits (hunseen : Records Unseen w l) (horder : o → Records InOrder w l)
    (hwithin : Records (fun _ message => b message.target message.sequence) w l) :
    Records (Fits o b) w l := by
  have hflush : ∀ now messages r, FlushRecords Unseen now r messages →
      (o → FlushRecords InOrder now r messages) →
      FlushRecords (fun _ message => b message.target message.sequence) now r messages →
      FlushRecords (Fits o b) now r messages := by
    intro now messages
    induction messages with
    | nil => exact fun _ _ _ _ => trivial
    | cons message messages ih =>
      intro r hu ho hw
      exact ⟨fun hid hseen => ⟨hu.1 hid hseen, fun h => (ho h).1 hid hseen, hw.1 hid hseen⟩,
        ih _ hu.2 (fun h => (ho h).2) hw.2⟩
  cases l with
  | receive message hold session now =>
    exact fun hid hseen => ⟨hunseen hid hseen, fun h => horder h hid hseen, hwithin hid hseen⟩
  | announce message session now =>
    exact fun hid => ⟨hunseen hid, fun h => horder h hid, hwithin hid⟩
  | flush held session now => exact hflush _ _ _ hunseen horder hwithin
  | _ => trivial

theorem kept_step (h : w.index.Kept o b) (hok : Undisturbed w l)
    (horder : o → Records InOrder w l) (hwithin : StaysWithin b w l)
    (hstep : step w l = some w') : w'.index.Kept o b := by
  have hfits := records_fits hok.unseen horder hwithin.records
  cases l with
  | receive message hold session now =>
    cases hstep
    exact kept_receive h hfits
  | announce message session now =>
    cases hstep
    exact kept_announce h hfits
  | flush held session now =>
    cases hstep
    exact kept_flush h hfits
  | recover messages unreadSummary session =>
    cases hstep
    rw [index_recover]
    exact h
  | answer notice accepted =>
    rw [index_answer hstep]
    exact h
  | forget notice =>
    rw [index_forget hstep]
    exact h
  | resume call =>
    rw [index_resume hstep]
    exact h
  | answerRecovery recovery accepted =>
    exact kept_answerRecovery h hok.current hwithin.writes hstep
  | bookkeeping k =>
    cases hstep
    exact kept_apply h k
  | clearAgent =>
    cases hstep
    exact kept_clearAgent _

end World

end Coforge.Attention
