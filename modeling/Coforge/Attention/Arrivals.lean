import Coforge.Attention.Steps

/-!
# What arrives and what is settled

Two kinds of change reach what the index holds of messages the Agent has not been shown. A message
arrives, with a delivery or with a recovery, and is recorded at its target. Or targets are settled
or cleared, by the bookkeeping of reads and sends. `World.recorded` lists the messages that a step
records, and `Index.Settles` is any sequence of settlings, so that an invariant of the pending
messages is proved of these alone.
-/

namespace Coforge.Attention

open Index

/-- A message as the index records it. -/
structure Arrival where
  target : Target
  sequence : Nat
  conversationId : String
deriving DecidableEq

def Delivery.arrival (message : Delivery) : Arrival :=
  ⟨message.target, message.sequence, message.conversationId⟩

def RecoveryMessage.arrival (message : RecoveryMessage) : Arrival :=
  ⟨message.target, message.sequence, message.conversationId⟩

namespace Index

variable {s s' s'' : Index}

/-! ### Settling -/

/-- The same messages are held, in the same conversations. -/
structure SamePending (s s' : Index) : Prop where
  unreviewed : s'.unreviewed = s.unreviewed
  conversations : s'.conversationTargets = s.conversationTargets

lemma samePending_refl (s : Index) : SamePending s s := ⟨rfl, rfl⟩

lemma SamePending.trans (h : SamePending s s') (h' : SamePending s' s'') : SamePending s s'' :=
  ⟨h'.unreviewed.trans h.unreviewed, h'.conversations.trans h.conversations⟩

lemma samePending_hydrate (s : Index) : SamePending s s.hydrate := by
  refine ⟨hydrate_unreviewed s, ?_⟩
  rw [hydrate]
  split
  · rfl
  · split_ifs <;> rfl

lemma samePending_persist (s : Index) : SamePending s s.persist := by
  rw [persist]
  split_ifs
  · exact samePending_refl s
  · exact ⟨rfl, rfl⟩

lemma samePending_persist_if (s : Index) (changed : Bool) :
    SamePending s (if changed then s.persist else s) := by
  split_ifs
  · exact samePending_persist s
  · exact samePending_refl s

lemma samePending_addExact (s : Index) (t : Target) (sequences : List Nat) :
    SamePending s (s.addExact t sequences).1 := by
  simp only [addExact]
  split_ifs <;> exact ⟨rfl, rfl⟩

lemma samePending_takeReadOrder (s : Index) (t : Target) (sequence : Nat) :
    SamePending s (s.takeReadOrder t sequence) := ⟨rfl, rfl⟩

lemma samePending_setAlias (s : Index) (spelling canonical : Target) :
    SamePending s (s.setAlias spelling canonical).1 := by
  simp only [setAlias]
  split_ifs <;> exact ⟨rfl, rfl⟩

/-- Targets were settled and cleared, any number of times. -/
inductive Settles (s : Index) : Index → Prop where
  | none : Settles s s
  | same {s' s'' : Index} : Settles s s' → SamePending s' s'' → Settles s s''
  | settle {s' : Index} (targets : Target → Bool) (settled : Nat → Bool) :
      Settles s s' → Settles s (s'.settleTargets targets settled)
  | clear {s' : Index} (targets : Target → Bool) : Settles s s' → Settles s (s'.clearAll targets)

lemma Settles.keeps {P : Index → Prop} (hsame : ∀ s s', SamePending s s' → P s → P s')
    (hsettle : ∀ s targets settled, P s → P (s.settleTargets targets settled))
    (hclear : ∀ s targets, P s → P (s.clearAll targets)) (h : Settles s s') (hs : P s) : P s' := by
  induction h with
  | none => exact hs
  | same _ hsame' ih => exact hsame _ _ hsame' ih
  | settle targets settled _ ih => exact hsettle _ targets settled ih
  | clear targets _ ih => exact hclear _ targets ih

lemma Settles.advanceFrontier (h : Settles s s') (t : Target) (sequence : Nat) :
    Settles s (s'.advanceFrontier t sequence).1 := by
  simp only [Index.advanceFrontier]
  split_ifs
  · exact h
  · refine Settles.settle _ _ (Settles.same h ?_)
    exact ⟨rfl, rfl⟩

lemma Settles.settleSeen (h : Settles s s') (t : Target) : Settles s (s'.settleSeen t) :=
  h.settle _ _

lemma Settles.settleScope (h : Settles s s') (scope : ConsumptionScope) (shown : List Nat)
    (settled : Target) : Settles s (s'.settleScope scope shown settled) := by
  simp only [Index.settleScope]
  split_ifs
  · exact h
  · exact h.settle _ _

lemma Settles.foldl_recordExactTarget {r : Index × Bool} (h : Settles s r.1)
    (shown : List (Target × List Nat)) : Settles s (shown.foldl recordExactTarget r).1 := by
  induction shown generalizing r with
  | nil => exact h
  | cons target shown ih =>
    refine ih ?_
    have hadded := h.same (samePending_addExact r.1 target.1 target.2)
    simp only [recordExactTarget]
    split_ifs
    · exact h
    · exact hadded.settleSeen _
    · exact hadded

lemma Settles.takeReadOrder_if (h : Settles s s') (t : Target) (review : Option Nat) :
    Settles s (match review with
      | .none          => s'
      | .some sequence => s'.takeReadOrder t sequence) := by
  cases review with
  | none => exact h
  | some sequence => exact h.same (samePending_takeReadOrder _ _ _)

lemma settles_apply (b : Bookkeeping) (s : Index) : Settles s (b.apply s) := by
  have hydrated : Settles s s.hydrate := Settles.none.same (samePending_hydrate s)
  cases b with
  | look => exact hydrated
  | recordModelSeen target sequence =>
    simp only [Bookkeeping.apply, recordModelSeen]
    split_ifs
    · exact .none
    · exact (hydrated.advanceFrontier _ _).same (samePending_persist _)
    · exact hydrated.advanceFrontier _ _
  | recordReadContext target sequence =>
    exact (hydrated.same (samePending_takeReadOrder _ _ _)).same (samePending_persist _)
  | recordExactSeen shown =>
    have hshown := @Settles.foldl_recordExactTarget s (s.hydrate, false) hydrated shown
    exact hshown.same (samePending_persist_if _ _)
  | recordHistoryRead read =>
    have haliased := hydrated.same (samePending_setAlias s.hydrate read.spelling read.target)
    have hmoved : Settles s (if 0 < read.through
        then (s.hydrate.setAlias read.spelling read.target).1.advanceFrontier read.target
          read.through
        else ((s.hydrate.setAlias read.spelling read.target).1, false)).1 := by
      split_ifs
      · exact haliased.advanceFrontier _ _
      · exact haliased
    have hread := ((hmoved.same (samePending_addExact _ read.target read.shown)).settleSeen
      read.target).takeReadOrder_if read.target read.review
    simp only [Bookkeeping.apply, recordHistoryRead]
    refine Settles.same ?_ (samePending_persist_if _ _)
    rcases read.scope with _ | scope
    · exact hread
    · exact hread.settleScope _ _ _
  | recordSendContext target through review =>
    simp only [Bookkeeping.apply, recordSendContext]
    split_ifs
    · exact .none
    all_goals have hsent := (hydrated.advanceFrontier target through).takeReadOrder_if target review
    · exact hsent.same (samePending_persist _)
    · exact hsent
  | recordTargetAlias spelling canonical =>
    exact (hydrated.same (samePending_setAlias _ _ _)).same (samePending_persist_if _ _)
  | clear target => exact Settles.none.clear _
  | clearThrough target sequence =>
    simp only [Bookkeeping.apply, clearThrough]
    split
    · exact Settles.none.clear _
    · split_ifs
      · exact Settles.none.clear _
      · exact .none
  | clearTargets targets => exact Settles.none.clear _
  | disk fails => exact Settles.none.same ⟨rfl, rfl⟩

end Index

/-! ### Recording -/

namespace World

/-- The deliveries that the rest of a flush records. -/
def flushRecorded (now : Nat) : World × List String → List Delivery → List Delivery
  | _, []                  => []
  | r, message :: messages =>
    let rest := flushRecorded now (flushOne now r message) messages
    if message.deliveryId ∈ r.1.current.seenDeliveryIds ||
      r.1.hasSeen message.target message.sequence then rest else message :: rest

/-- The deliveries a step records, in order. -/
def recordedDeliveries (w : World) : Label → List Delivery
  | .receive message _ _ _ =>
    if message.workspaceId ≠ w.workspaceId || !hasDeliveryScope message then []
    else if message.deliveryId ∈ w.current.seenDeliveryIds then []
    else if w.hasSeen message.target message.sequence then []
    else [message]
  | .announce message _ _ =>
    if message.workspaceId ≠ w.workspaceId || !hasDeliveryScope message then []
    else if message.deliveryId ∈ w.current.seenDeliveryIds then []
    else [message]
  | .flush held _ now =>
    flushRecorded now (w.withGeneration w.current, []) (held.filter hasDeliveryScope)
  | _ => []

/-- The recovery that a step writes back. -/
def writtenRecovery (w : World) : Label → Option Recovery
  | .answerRecovery i accepted =>
    (w.recoveries[i]?.join).filter fun r => accepted && w.isCurrent r.generation
  | _ => none

/-- The messages a step records, in order. -/
def recorded (w : World) (l : Label) : List Arrival :=
  match w.writtenRecovery l with
  | some r => r.messages.map RecoveryMessage.arrival
  | none   => (w.recordedDeliveries l).map Delivery.arrival

end World

namespace Index

variable {s s' : Index}

lemma SamePending.recordConversation (h : SamePending s s') (t : Target) (conversationId : String) :
    SamePending (s.recordConversation t conversationId) (s'.recordConversation t conversationId) := by
  simp only [Index.recordConversation, h.unreviewed, h.conversations]
  split_ifs
  · exact h
  · exact ⟨by simp [withUnreviewed, h.unreviewed], rfl⟩

lemma SamePending.recordAttention (h : SamePending s s') (message : Delivery) (now : Nat) :
    SamePending (s.recordAttention message now) (s'.recordAttention message now) := by
  simp only [Index.recordAttention, h.unreviewed]
  refine SamePending.recordConversation ?_ _ _
  exact ⟨by simp [withUnreviewed, h.unreviewed], h.conversations⟩

/-- Several deliveries recorded in turn. -/
def recordAll (s : Index) (messages : List Delivery) (now : Nat) : Index :=
  messages.foldl (fun s message => s.recordAttention message now) s

lemma SamePending.recordAll (messages : List Delivery) (now : Nat) :
    ∀ {s s' : Index}, SamePending s s' →
      SamePending (s.recordAll messages now) (s'.recordAll messages now) := by
  induction messages with
  | nil => exact id
  | cons message messages ih => exact fun h => ih (h.recordAttention message now)

/-- What a recovered message adds. -/
def recordRecovered (s : Index) (message : RecoveryMessage) : Index :=
  let s := s.recordConversation message.target message.conversationId
  let u := s.unreviewed message.target
  s.withUnreviewed message.target
    { u with pendingSequences := some (insert message.sequence u.pending) }

def withAttention (s : Index) (byTarget : Target → Option MessageAttention) : Index :=
  { s with unreviewed := fun t => { s.unreviewed t with attention := byTarget t } }

/-- The attention of a recovery, and then its messages. -/
def writeRecovery (s : Index) (r : Recovery) : Index :=
  r.messages.foldl recordRecovered (s.withAttention r.byTarget)

/-! ### What recording changes -/

@[simp] lemma attention_recordConversation (t t' : Target) (conversationId : String) :
    ((s.recordConversation t conversationId).unreviewed t').attention =
      (s.unreviewed t').attention := by
  simp only [recordConversation, withUnreviewed]
  by_cases ht : t' = t
  · subst ht
    split_ifs <;> simp
  · split_ifs <;> simp [ht]

@[simp] lemma pending_recordConversation (t t' : Target) (conversationId : String) :
    ((s.recordConversation t conversationId).unreviewed t').pending =
      (s.unreviewed t').pending := by
  simp only [recordConversation, withUnreviewed]
  by_cases ht : t' = t
  · subst ht
    split_ifs <;> simp [Unreviewed.pending]
  · split_ifs <;> simp [ht]

lemma attention_recordAttention (message : Delivery) (now : Nat) (t : Target) :
    ((s.recordAttention message now).unreviewed t).attention =
      if t = message.target then some (nextAttention message (s.unreviewed t).attention)
      else (s.unreviewed t).attention := by
  by_cases ht : t = message.target
  · subst ht
    simp [recordAttention, withUnreviewed]
  · simp [recordAttention, withUnreviewed, ht]

lemma pending_recordAttention (message : Delivery) (now : Nat) (t : Target) :
    ((s.recordAttention message now).unreviewed t).pending =
      if t = message.target then insert message.sequence (s.unreviewed t).pending
      else (s.unreviewed t).pending := by
  by_cases ht : t = message.target
  · subst ht
    simp only [recordAttention, pending_recordConversation, withUnreviewed, if_true]
    rfl
  · simp [recordAttention, withUnreviewed, ht]

lemma attention_recordRecovered (message : RecoveryMessage) (t : Target) :
    ((s.recordRecovered message).unreviewed t).attention = (s.unreviewed t).attention := by
  by_cases ht : t = message.target
  · subst ht
    simp [recordRecovered, withUnreviewed]
  · simp [recordRecovered, withUnreviewed, ht]

lemma pending_recordRecovered (message : RecoveryMessage) (t : Target) :
    ((s.recordRecovered message).unreviewed t).pending =
      if t = message.target then insert message.sequence (s.unreviewed t).pending
      else (s.unreviewed t).pending := by
  by_cases ht : t = message.target
  · subst ht
    simp only [recordRecovered, pending_recordConversation, withUnreviewed, if_true]
    rfl
  · simp [recordRecovered, withUnreviewed, ht]

end Index

/-! ### What a step does to what is pending -/

/-- A step records deliveries, writes back a recovery, settles targets, or forgets the Agent. -/
inductive Pends (w w' : World) (l : Label) : Prop where
  | delivered (now : Nat) (hnone : w.writtenRecovery l = none)
    (h : (w.index.recordAll (w.recordedDeliveries l) now).SamePending w'.index)
  | recovered (r : Recovery) (hsome : w.writtenRecovery l = some r)
    (h : w'.index = w.index.writeRecovery r)
  | settled (hnothing : w.recorded l = []) (h : w.index.Settles w'.index)
  | cleared (hnothing : w.recorded l = []) (h : w'.index = w.index.clearAgent)

namespace World

variable {w w' : World}

lemma seen_withGeneration (id : String) :
    id ∈ (w.withGeneration w.current).current.seenDeliveryIds ↔ id ∈ w.current.seenDeliveryIds :=
  Iff.rfl

lemma pends_receive (message : Delivery) (hold session : Bool) (now : Nat) :
    (w.index.recordAll (w.recordedDeliveries (.receive message hold session now)) now).SamePending
      (w.receive message hold session now).index := by
  have hsame := samePending_hydrate w.index
  have hseen : (((w.withGeneration w.current).rememberDelivery message).hydrate).hasSeen
      message.target message.sequence = w.hasSeen message.target message.sequence :=
    hasSeen_hydrate _ _ _
  simp only [recordedDeliveries, receive, hseen]
  by_cases hscope : (message.workspaceId ≠ w.workspaceId || !hasDeliveryScope message) = true
  · rw [if_pos hscope, if_pos hscope]
    exact samePending_refl _
  rw [if_neg hscope, if_neg hscope]
  by_cases hknown : message.deliveryId ∈ w.current.seenDeliveryIds
  · rw [if_pos hknown, if_pos ((seen_withGeneration _).mpr hknown)]
    split_ifs
    · exact samePending_refl _
    · exact samePending_refl _
    · rw [index_announceAgain]
      exact samePending_refl _
  rw [if_neg hknown, if_neg (mt (seen_withGeneration _).mp hknown)]
  by_cases hconsumed : w.hasSeen message.target message.sequence = true
  · rw [if_pos hconsumed, if_pos hconsumed]
    exact hsame
  · rw [if_neg hconsumed, if_neg hconsumed]
    have hrecorded := hsame.recordAttention message now
    split_ifs
    · exact hrecorded
    · rw [index_notifyAndAwait]
      exact hrecorded

lemma pends_announce (message : Delivery) (session : Bool) (now : Nat) :
    (w.index.recordAll (w.recordedDeliveries (.announce message session now)) now).SamePending
      (w.announce message session now).index := by
  simp only [recordedDeliveries, announce]
  by_cases hscope : (message.workspaceId ≠ w.workspaceId || !hasDeliveryScope message) = true
  · rw [if_pos hscope, if_pos hscope]
    exact samePending_refl _
  rw [if_neg hscope, if_neg hscope]
  by_cases hknown : message.deliveryId ∈ w.current.seenDeliveryIds
  · rw [if_pos hknown, if_pos ((seen_withGeneration _).mpr hknown)]
    split_ifs
    · exact samePending_refl _
    · rw [index_announceAgain]
      exact samePending_refl _
  · rw [if_neg hknown, if_neg (mt (seen_withGeneration _).mp hknown), index_notifyAndAwait]
    exact samePending_refl _

lemma pends_foldl_flushOne (now : Nat) (messages : List Delivery) :
    ∀ r : World × List String, (r.1.index.recordAll (flushRecorded now r messages) now).SamePending
      (messages.foldl (flushOne now) r).1.index := by
  induction messages with
  | nil => exact fun r => samePending_refl _
  | cons message messages ih =>
    intro r
    rw [List.foldl_cons, flushRecorded]
    have hrest := ih (flushOne now r message)
    have hseen : ((r.1.rememberDelivery message).hydrate).hasSeen message.target message.sequence =
        r.1.hasSeen message.target message.sequence := hasSeen_hydrate _ _ _
    have hsame := samePending_hydrate r.1.index
    by_cases hknown : message.deliveryId ∈ r.1.current.seenDeliveryIds
    · have hone : (flushOne now r message).1 = r.1 := by
        simp only [flushOne, if_pos hknown]
      rw [if_pos (by simp [hknown])]
      rw [hone] at hrest
      exact hrest
    by_cases hconsumed : r.1.hasSeen message.target message.sequence = true
    · have hone : (flushOne now r message).1.index = r.1.index.hydrate := by
        simp only [flushOne, if_neg hknown, hseen, if_pos hconsumed]
        rfl
      rw [if_pos (by simp [hconsumed])]
      rw [hone] at hrest
      exact (Index.SamePending.recordAll _ now hsame).trans hrest
    · have hone : (flushOne now r message).1.index =
          r.1.index.hydrate.recordAttention message now := by
        simp only [flushOne, if_neg hknown, hseen, if_neg hconsumed]
        rfl
      rw [if_neg (by simp [hknown, hconsumed])]
      rw [hone] at hrest
      exact (Index.SamePending.recordAll _ now (hsame.recordAttention message now)).trans hrest

lemma pends_flush (held : List Delivery) (session : Bool) (now : Nat) :
    (w.index.recordAll (w.recordedDeliveries (.flush held session now)) now).SamePending
      (w.flush held session now).index := by
  simp only [recordedDeliveries, flush]
  by_cases hnil : held = []
  · rw [if_pos hnil, hnil]
    exact samePending_refl _
  · rw [if_neg hnil]
    have hfold := pends_foldl_flushOne now (held.filter hasDeliveryScope)
      (w.withGeneration w.current, [])
    split
    · exact hfold
    · rw [index_notifyAndAwait]
      exact hfold

lemma index_foldl_recordRecovered (messages : List RecoveryMessage) :
    ∀ w : World, (messages.foldl recordRecovered w).index =
      messages.foldl Index.recordRecovered w.index := by
  induction messages with
  | nil => exact fun _ => rfl
  | cons message messages ih => exact fun w => ih (w.recordRecovered message)

/-- Every step is one of the kinds. -/
theorem pends_step {l : Label} (hstep : step w l = some w') : Pends w w' l := by
  have hidle (hindex : w'.index = w.index) (hnothing : w.recorded l = []) : Pends w w' l :=
    .settled hnothing (hindex ▸ Index.Settles.none)
  cases l with
  | receive message hold session now =>
    cases hstep
    exact .delivered now rfl (pends_receive message hold session now)
  | announce message session now =>
    cases hstep
    exact .delivered now rfl (pends_announce message session now)
  | flush held session now =>
    cases hstep
    exact .delivered now rfl (pends_flush held session now)
  | recover messages unreadSummary session =>
    cases hstep
    exact hidle (index_recover w messages unreadSummary session) rfl
  | answer notice accepted => exact hidle (index_answer hstep) rfl
  | forget notice => exact hidle (index_forget hstep) rfl
  | resume call => exact hidle (index_resume hstep) rfl
  | answerRecovery recovery accepted =>
    obtain ⟨r, hr, rfl⟩ := answerRecovery_eq hstep
    by_cases hwrite : (accepted && w.isCurrent r.generation) = true
    · refine .recovered r ?_ ?_
      · rw [writtenRecovery, hr, Option.filter_some, if_pos hwrite]
      · rw [if_pos hwrite, index_foldl_recordRecovered]
        rfl
    · rw [if_neg hwrite] at hidle ⊢
      refine hidle rfl ?_
      have hnone : w.writtenRecovery (.answerRecovery recovery accepted) = none := by
        rw [writtenRecovery, hr, Option.filter_some, if_neg hwrite]
      rw [recorded, hnone]
      rfl
  | bookkeeping b =>
    cases hstep
    exact .settled rfl (settles_apply b w.index)
  | clearAgent =>
    cases hstep
    exact .cleared rfl rfl

end World

end Coforge.Attention
