import Coforge.Mentions.System

/-!
# The two maps of the tracker

The records by delivery and the pending lists by Agent agree as long as no consumed message drains
a record that is pending for another Agent: the pending list that is changed is the one of the
message. A mention is told as pending in the turn its notice was written in; if that turn has ended
before its announce does, the mention waits for the end of a turn that may never start.
-/

namespace Coforge.Mentions

open Keyed List
open Transition (Permitted run)

namespace Tracker

/-- The delivery is tracked as pending for this Agent. -/
def Pends (T : Tracker) (agentId deliveryId : String) : Prop :=
  ∃ t, T.get? deliveryId = some t ∧ t.message.agentId = agentId ∧ t.state = .pending

/-- The pending lists name what is tracked as pending, and not too much is tracked. -/
structure Booked (T : Tracker) : Prop where
  nodup : ∀ agentId, (T.pending agentId).Nodup
  listed : ∀ agentId id, id ∈ T.pending agentId ↔ T.Pends agentId id
  few : T.tracked.length ≤ rememberedMentions

variable {T : Tracker} {message : TrackedMentionDelivery} {state : TrackedState}
  {deliveryId agentId id : String}

lemma booked_empty : empty.Booked where
  nodup _ := .nil
  listed _ _ := iff_of_false not_mem_nil fun ⟨_, hget, _⟩ => by cases hget
  few := Nat.zero_le _

lemma Booked.congr {U : Tracker} (h : T.Booked) (hpending : U.pending = T.pending)
    (hpends : ∀ agentId id, U.Pends agentId id ↔ T.Pends agentId id)
    (hlength : U.tracked.length ≤ rememberedMentions) : U.Booked where
  nodup a := hpending ▸ h.nodup a
  listed a id := by
    rw [hpending, hpends]
    exact h.listed a id
  few := hlength

/-! ### Forgetting -/

lemma pends_forget :
    (T.forget deliveryId).Pends agentId id ↔ id ≠ deliveryId ∧ T.Pends agentId id := by
  simp only [Pends, get?_forget]
  by_cases hid : id = deliveryId <;> simp [hid]

lemma pending_forget (h : T.Booked) :
    (T.forget deliveryId).pending agentId = (T.pending agentId).erase deliveryId := by
  have habsent (hno : ¬ T.Pends agentId deliveryId) :
      (T.pending agentId).erase deliveryId = T.pending agentId :=
    erase_of_not_mem fun hmem => hno ((h.listed _ _).mp hmem)
  unfold forget
  cases hget : T.get? deliveryId with
  | none =>
    refine (habsent ?_).symm
    rintro ⟨t, ht, -⟩
    rw [hget] at ht
    cases ht
  | some t =>
    by_cases ha : agentId = t.message.agentId
    · subst ha
      exact Function.update_self _ _ _
    · refine (Function.update_of_ne ha _ _).trans (habsent ?_).symm
      rintro ⟨t', ht', ha', -⟩
      rw [hget] at ht'
      cases ht'
      exact ha ha'.symm

lemma length_forget_le : (T.forget deliveryId).tracked.length ≤ T.tracked.length := by
  unfold forget
  split
  · exact le_rfl
  · exact length_filter_le _ _

lemma length_forget_lt {t : Tracked} (h : T.get? deliveryId = some t) :
    (T.forget deliveryId).tracked.length < T.tracked.length := by
  unfold forget
  rw [h]
  exact length_drop_lt h

lemma Booked.forget (h : T.Booked) (deliveryId : String) : (T.forget deliveryId).Booked where
  nodup a := by
    rw [pending_forget h]
    exact (h.nodup a).erase deliveryId
  listed a id := by
    rw [pending_forget h, pends_forget, (h.nodup a).mem_erase_iff, h.listed]
  few := length_forget_le.trans h.few

lemma Booked.evict (h : T.Booked) (deliveryId : String) : (T.evict deliveryId).Booked := by
  unfold Tracker.evict
  split
  · split_ifs
    · exact h.forget _
    · exact h
  · exact h

/-! ### Setting -/

lemma get?_evict_self : (T.evict deliveryId).get? deliveryId = T.get? deliveryId := by
  unfold evict
  split
  · next oldest rest hnone hlist =>
    split_ifs
    · rw [get?_forget, hnone]
      exact ite_self _
    · rfl
  · rfl

lemma length_evict (h : T.Booked) :
    (drop Tracked.deliveryId deliveryId (T.evict deliveryId).tracked).length <
      rememberedMentions := by
  cases hget : T.get? deliveryId with
  | some t =>
    have hevict : T.evict deliveryId = T := by
      unfold evict
      rw [hget]
    rw [hevict]
    exact (length_drop_lt hget).trans_le h.few
  | none =>
    refine (length_filter_le _ _).trans_lt ?_
    unfold evict
    rw [hget]
    cases hlist : T.tracked with
    | nil => simp [hlist, rememberedMentions]
    | cons oldest rest =>
      dsimp only
      split_ifs with hfull
      · have holdest : ∃ t, T.get? oldest.deliveryId = some t := by
          rw [get?, hlist, find_cons, if_pos rfl]
          exact ⟨oldest, rfl⟩
        obtain ⟨t, ht⟩ := holdest
        exact (length_forget_lt ht).trans_le h.few
      · rw [hlist]
        exact not_le.mp hfull

lemma get?_set : (T.set message state).get? id = if id = message.deliveryId then
      some ⟨message, state, T.undelivered message.deliveryId && state != .drained⟩
    else (T.evict message.deliveryId).get? id := by
  set record : Tracked := ⟨message, state, T.undelivered message.deliveryId && state != .drained⟩
  set before := (T.evict message.deliveryId).tracked with hbefore
  have hget : (T.set message state).get? id = find Tracked.deliveryId id
      (drop Tracked.deliveryId message.deliveryId before ++ [record]) := by
    unfold set
    split_ifs <;> rfl
  have hdrop := @find_drop Tracked String _ Tracked.deliveryId before message.deliveryId id
  rw [hget, find, find?_append]
  rw [find] at hdrop
  rw [hdrop]
  by_cases hid : id = message.deliveryId
  · simp [Tracked.deliveryId, record, hid]
  · have hrecord : [record].find? (fun x => x.deliveryId = id) = none := by
      simp [Tracked.deliveryId, record, Ne.symm hid]
    rw [if_neg hid, if_neg hid, hrecord, Option.or_none]
    rfl

lemma pends_set : (T.set message state).Pends agentId id ↔
    (id = message.deliveryId ∧ message.agentId = agentId ∧ state = .pending) ∨
      (id ≠ message.deliveryId ∧ (T.evict message.deliveryId).Pends agentId id) := by
  simp only [Pends, get?_set]
  by_cases hid : id = message.deliveryId <;> simp [hid]

lemma pending_set : (T.set message state).pending =
    if state = .pending then ((T.evict message.deliveryId).pend message.agentId
      message.deliveryId).pending
    else ((T.evict message.deliveryId).unpend message.agentId message.deliveryId).pending := by
  unfold set
  split_ifs <;> rfl

/-- A record of the delivery that is pending is one of the message's Agent. -/
def Owns (T : Tracker) (message : TrackedMentionDelivery) : Prop :=
  ∀ agentId, T.Pends agentId message.deliveryId → agentId = message.agentId

lemma mem_pend : id ∈ (T.pend message.agentId deliveryId).pending agentId ↔
    id ∈ T.pending agentId ∨ agentId = message.agentId ∧ id = deliveryId := by
  by_cases ha : agentId = message.agentId
  · subst ha
    simp only [pend, Function.update_self]
    split_ifs with hmem
    · simp only [true_and]
      exact (or_iff_left_of_imp fun heq => heq ▸ hmem).symm
    · simp
  · simp [pend, ha]

lemma nodup_pend (h : (T.pending agentId).Nodup) :
    ((T.pend message.agentId deliveryId).pending agentId).Nodup := by
  by_cases ha : agentId = message.agentId
  · subst ha
    simp only [pend, Function.update_self]
    split_ifs with hmem
    · exact h
    · rw [← concat_eq_append]
      exact h.concat hmem
  · simpa [pend, Function.update_of_ne ha] using h

lemma mem_unpend (h : (T.pending agentId).Nodup) :
    id ∈ (T.unpend message.agentId deliveryId).pending agentId ↔
      id ∈ T.pending agentId ∧ ¬(agentId = message.agentId ∧ id = deliveryId) := by
  by_cases ha : agentId = message.agentId
  · subst ha
    simp only [unpend, Function.update_self, true_and]
    rw [h.mem_erase_iff, and_comm]
  · simp [unpend, ha]

lemma nodup_unpend (h : (T.pending agentId).Nodup) :
    ((T.unpend message.agentId deliveryId).pending agentId).Nodup := by
  by_cases ha : agentId = message.agentId
  · subst ha
    simpa only [unpend, Function.update_self] using h.erase deliveryId
  · simpa [unpend, Function.update_of_ne ha] using h

lemma length_set (h : T.Booked) : (T.set message state).tracked.length ≤ rememberedMentions := by
  have hlength : (T.set message state).tracked.length =
      (drop Tracked.deliveryId message.deliveryId (T.evict message.deliveryId).tracked).length +
        1 := by
    unfold set
    split_ifs <;> exact length_append
  rw [hlength]
  exact length_evict h

lemma Booked.set (h : T.Booked) (howns : T.Owns message) : (T.set message state).Booked := by
  have hu := h.evict message.deliveryId
  have hown (a : String) (hpends : (T.evict message.deliveryId).Pends a message.deliveryId) :
      a = message.agentId := by
    obtain ⟨t, ht, hta⟩ := hpends
    rw [get?_evict_self] at ht
    exact howns a ⟨t, ht, hta⟩
  refine ⟨fun a => ?_, fun a id => ?_, length_set h⟩
  · rw [pending_set]
    split_ifs
    · exact nodup_pend (hu.nodup a)
    · exact nodup_unpend (hu.nodup a)
  · rw [pending_set, pends_set]
    split_ifs with hstate
    · rw [mem_pend, hu.listed]
      by_cases hid : id = message.deliveryId
      · subst hid
        simp only [ne_eq, not_true_eq_false, false_and, or_false, true_and, and_true, hstate]
        constructor
        · rintro (hpends | ha)
          · exact (hown a hpends).symm
          · exact ha.symm
        · exact fun ha => .inr ha.symm
      · simp [hid]
    · rw [mem_unpend (hu.nodup a), hu.listed]
      by_cases hid : id = message.deliveryId
      · subst hid
        simp only [ne_eq, not_true_eq_false, false_and, or_false, and_true, hstate, and_false]
        exact iff_of_false (fun hpends => hpends.2 (hown a hpends.1)) not_false
      · simp [hid]

/-! ### Amending and flagging -/

lemma Booked.amend {existing : Tracked} (h : T.Booked)
    (hget : T.get? message.deliveryId = some existing)
    (hagent : existing.message.agentId = message.agentId) : (T.amend existing message).Booked := by
  refine h.congr rfl (fun a id => ?_) ?_
  · simp only [Pends, get?_amend]
    by_cases hid : message.deliveryId = id
    · subst hid
      simp [hget, hagent]
    · simp [hid]
  · rw [Tracker.amend]
    exact (@length_put_of_find _ _ _ Tracked.deliveryId _ { existing with message := message } existing
      hget).trans_le h.few

lemma get?_markUndelivered : (T.markUndelivered agentId deliveryId).get? id =
    if id = deliveryId ∧ T.flags agentId deliveryId = true then
      (T.get? id).map fun t => { t with undelivered := true }
    else T.get? id := by
  unfold markUndelivered
  cases hget : T.get? deliveryId with
  | none => simp [flags, hget]
  | some tracked =>
    have hput := @find_put Tracked String _ Tracked.deliveryId
      { tracked with undelivered := true } T.tracked id
    have hkey : Tracked.deliveryId { tracked with undelivered := true } = deliveryId :=
      show tracked.deliveryId = deliveryId from deliveryId_of_get? hget
    dsimp only
    split_ifs with hflags hboth hid
    · rw [get?, hput, hkey, if_pos hboth.1.symm, hboth.1, hget]
      rfl
    · have hother : deliveryId ≠ id := fun heq => hboth ⟨heq.symm, hflags⟩
      rw [get?, hput, hkey, if_neg hother]
      rfl
    · exact absurd hid.2 hflags
    · rfl

lemma Booked.markUndelivered (h : T.Booked) : (T.markUndelivered agentId deliveryId).Booked := by
  refine h.congr ?_ (fun a id => ?_) ?_
  · unfold Tracker.markUndelivered
    split
    · rfl
    · split_ifs <;> rfl
  · simp only [Pends, get?_markUndelivered]
    split_ifs
    · cases T.get? id <;> simp
    · rfl
  · unfold Tracker.markUndelivered
    split
    · exact h.few
    · next t hget =>
      split_ifs
      · refine (length_put_of_find (y := t) ?_).trans_le h.few
        have hkey : t.deliveryId = deliveryId := deliveryId_of_get? hget
        exact hkey.symm ▸ hget
      · exact h.few

/-! ### What waits for the end of a turn -/

/-- The delivery is pending for this Agent, and its notice was not reported lost. -/
def Awaits (T : Tracker) (agentId deliveryId : String) : Prop :=
  ∃ t, T.get? deliveryId = some t ∧ t.message.agentId = agentId ∧ t.state = .pending ∧
    t.undelivered = false

lemma awaits_of_forget (h : (T.forget deliveryId).Awaits agentId id) :
    id ≠ deliveryId ∧ T.Awaits agentId id := by
  obtain ⟨t, hget, ht⟩ := h
  obtain ⟨hid, hget⟩ := get?_of_forget hget
  exact ⟨hid, t, hget, ht⟩

lemma awaits_of_set (h : (T.set message state).Awaits agentId id) :
    (id = message.deliveryId ∧ message.agentId = agentId ∧ state = .pending) ∨
      (id ≠ message.deliveryId ∧ T.Awaits agentId id) := by
  obtain ⟨t, hget, ha, hstate, hlost⟩ := h
  rcases get?_of_set hget with ⟨hid, rfl⟩ | ⟨hid, hget⟩
  · exact .inl ⟨hid, ha, hstate⟩
  · exact .inr ⟨hid, t, hget, ha, hstate, hlost⟩

lemma awaits_of_amend {existing : Tracked} (hget : T.get? message.deliveryId = some existing)
    (hagent : existing.message.agentId = message.agentId)
    (h : (T.amend existing message).Awaits agentId id) : T.Awaits agentId id := by
  obtain ⟨t, ht, ha, hstate⟩ := h
  rw [get?_amend] at ht
  split_ifs at ht with hid
  · cases ht
    exact ⟨existing, hid ▸ hget, hagent.trans ha, hstate⟩
  · exact ⟨t, ht, ha, hstate⟩

lemma awaits_of_markUndelivered {other : String}
    (h : (T.markUndelivered other deliveryId).Awaits agentId id) : T.Awaits agentId id := by
  obtain ⟨t, ht, ha, hstate, hlost⟩ := h
  rw [get?_markUndelivered] at ht
  split_ifs at ht
  · obtain ⟨t', -, rfl⟩ := Option.map_eq_some_iff.mp ht
    cases hlost
  · exact ⟨t, ht, ha, hstate, hlost⟩

/-! ### Edits -/

/-- What the operations do to the tracker, with the Agents that are busy meanwhile. -/
inductive Edit (busy : String → Bool) (T : Tracker) : Tracker → Prop
  | forget (deliveryId : String) : Edit busy T (T.forget deliveryId)
  | set (message : TrackedMentionDelivery) (state : TrackedState) (howns : T.Owns message)
      (hbusy : state = .pending → busy message.agentId = true) : Edit busy T (T.set message state)
  | amend (existing : Tracked) (message : TrackedMentionDelivery)
      (hget : T.get? message.deliveryId = some existing)
      (hagent : existing.message.agentId = message.agentId) : Edit busy T (T.amend existing message)
  | markUndelivered (agentId deliveryId : String) :
      Edit busy T (T.markUndelivered agentId deliveryId)

abbrev Edits (busy : String → Bool) : Tracker → Tracker → Prop := Relation.ReflTransGen (Edit busy)

variable {busy : String → Bool} {U : Tracker}

lemma Edits.booked (h : Edits busy T U) (hT : T.Booked) : U.Booked := by
  induction h with
  | refl => exact hT
  | tail _ hedit ih =>
    cases hedit with
    | forget deliveryId => exact ih.forget deliveryId
    | set message state howns _ => exact ih.set howns
    | amend existing message hget hagent => exact ih.amend hget hagent
    | markUndelivered agentId deliveryId => exact ih.markUndelivered

lemma Edits.awaits (h : Edits busy T U) (hidle : busy agentId = false)
    (hU : U.Awaits agentId id) : T.Awaits agentId id := by
  induction h with
  | refl => exact hU
  | tail _ hedit ih =>
    refine ih ?_
    cases hedit with
    | forget deliveryId => exact (awaits_of_forget hU).2
    | set message state _ hbusy =>
      rcases awaits_of_set hU with ⟨-, rfl, hstate⟩ | ⟨-, hawaits⟩
      · exact absurd (hbusy hstate) (by simp [hidle])
      · exact hawaits
    | amend existing message hget hagent => exact awaits_of_amend hget hagent hU
    | markUndelivered other deliveryId => exact awaits_of_markUndelivered hU

end Tracker

/-! ### The operations -/

/-- What an operation leaves of the world: an edited tracker, the turns as they are, and the calls
that wait. -/
structure World.Works (w w' : World) : Prop where
  edits : Tracker.Edits (fun agentId => (w.agents agentId).busy) w.tracker w'.tracker
  busy : ∀ agentId, (w'.agents agentId).busy = (w.agents agentId).busy
  calls : ∀ c ∈ w.calls, c ∈ w'.calls

open World

namespace World

variable {w w' w'' : World} {message : TrackedMentionDelivery} {agentId : String}

lemma Works.refl (w : World) : Works w w := ⟨.refl, fun _ => rfl, fun _ => id⟩

lemma Works.trans (h : Works w w') (h' : Works w' w'') : Works w w'' where
  edits := by
    have hsame : (fun agentId => (w'.agents agentId).busy) = fun agentId => (w.agents agentId).busy :=
      funext h.busy
    exact h.edits.trans (hsame ▸ h'.edits)
  busy a := (h'.busy a).trans (h.busy a)
  calls c hc := h'.calls c (h.calls c hc)

lemma Works.note (h : Works w w') (event : Happening) : Works w (w'.note event) :=
  ⟨h.edits, h.busy, h.calls⟩

lemma Works.await (h : Works w w') (call : Waiting) : Works w (w'.await call) :=
  ⟨h.edits, h.busy, fun c hc => mem_append_left _ (h.calls c hc)⟩

lemma works_refuse (message : TrackedMentionDelivery) (code : MentionDeliveryTerminalCode) :
    Works w (w.refuse message code) :=
  ⟨.single (.forget _), fun _ => rfl, fun _ => id⟩

lemma works_set {state : TrackedState} (howns : w.tracker.Owns message)
    (hbusy : state = .pending → (w.agents message.agentId).busy = true) :
    Works w (w.set message state) :=
  ⟨.single (.set message state howns hbusy), fun _ => rfl, fun _ => id⟩

lemma works_markPending (howns : w.tracker.Owns message)
    (hbusy : (w.agents message.agentId).busy = true) : Works w (w.markPending message) :=
  (works_set howns fun _ => hbusy).note _

lemma works_drain (howns : w.tracker.Owns message) : Works w (w.drain message) := by
  simp only [drain]
  split_ifs
  · exact (Works.refl w).note _
  · exact ((works_set howns fun h => by cases h).note _).note _

variable {tracked : Tracked}

lemma owns_of_get? {T : Tracker} (hget : T.get? message.deliveryId = some tracked)
    (hagent : tracked.message.agentId = message.agentId) : T.Owns message := by
  rintro a ⟨t, ht, ha, -⟩
  rw [hget] at ht
  cases ht
  exact ha.symm.trans hagent

lemma owns_of_receiving {T : Tracker} (h : T.receiving message = true) : T.Owns message := by
  rintro a ⟨t, ht, -, hstate⟩
  simp [Tracker.receiving, ht, hstate] at h

lemma works_tell (howns : w.tracker.Owns message) : Works w (w.tell message) := by
  have hreceived : Works w ((w.set message .received).transition message .daemonReceived .accepted) :=
    (works_set howns fun h => by cases h).note _
  have howns' : (w.set message .received).tracker.Owns message :=
    owns_of_get? (by rw [set, Tracker.get?_set, if_pos rfl]) rfl
  simp only [tell]
  split_ifs
  · refine hreceived.trans ?_
    simp only [settleTold]
    split_ifs with hbusy
    · exact works_markPending howns' hbusy
    · exact works_drain howns'
  · split
    · exact hreceived.trans (works_refuse _ _)
    · exact hreceived.await _

lemma works_deliver (howns : w.consumed message = true → w.tracker.Owns message) :
    Works w (w.deliver message) := by
  simp only [deliver]
  split_ifs with hconsumed
  · exact works_drain (howns hconsumed)
  · cases (w.agents message.agentId).running with
    | none => exact works_refuse _ _
    | some running =>
      dsimp only
      split_ifs
      · exact works_refuse _ _
      · cases hget : w.tracker.get? message.deliveryId with
        | none =>
          refine works_tell ?_
          rintro a ⟨t, ht, -⟩
          rw [hget] at ht
          cases ht
        | some existing =>
          dsimp only
          split_ifs with hother
          · exact works_refuse _ _
          · rw [not_or, not_not] at hother
            exact ⟨.single (.amend existing message hget hother.1), fun _ => rfl, fun _ => id⟩
          · rw [not_or, not_not] at hother
            exact ⟨.single (.amend existing message hget hother.1), fun _ => rfl, fun _ => id⟩
          · rw [not_or, not_not] at hother
            exact works_tell (owns_of_get? hget hother.1)

lemma works_dropMention {code : MentionDeliveryTerminalCode}
    (howns : w.consumed message = true → w.tracker.Owns message) :
    Works w (w.dropMention message code) := by
  simp only [dropMention]
  split_ifs with hconsumed
  · exact works_drain (howns hconsumed)
  · exact works_refuse _ _

lemma works_announced {busy : Bool} {outcome : Announced}
    (hbusy : outcome = .told → busy = true → w.tracker.receiving message = true →
      (w.agents message.agentId).busy = true) : Works w (w.announced message busy outcome) := by
  cases outcome with
  | rejected => exact works_refuse _ _
  | gone =>
    simp only [announced]
    split_ifs
    · exact .refl w
    · split <;> exact works_refuse _ _
  | told =>
    simp only [announced]
    split_ifs with hreceiving hwas
    · exact .refl w
    · have hin : w.tracker.receiving message = true := by simpa using hreceiving
      exact works_markPending (owns_of_receiving hin) (hbusy rfl hwas hin)
    · exact works_drain (owns_of_receiving (by simpa using hreceiving))

/-! ### The loops -/

lemma owns_tracked {T : Tracker} {id : String}
    (hget : T.get? id = some tracked) : T.Owns tracked.message := by
  have hid : tracked.message.deliveryId = id := Tracker.deliveryId_of_get? hget
  exact owns_of_get? (hid.symm ▸ hget) rfl

variable {ids : List String}

lemma get?_of_nextRedelivered {T : Tracker} {rest : List String}
    (h : nextRedelivered T agentId ids = some (tracked, rest)) :
    ∃ id, T.get? id = some tracked := by
  induction ids with
  | nil => cases h
  | cons id ids ih =>
    simp only [nextRedelivered] at h
    split at h
    · exact ih h
    · next t hget =>
      split_ifs at h
      · exact ih h
      · cases h
        exact ⟨id, hget⟩

lemma works_settleRedelivery {deliveryIds : List String} {accepted : Bool} :
    Works w (w.settleRedelivery agentId deliveryIds accepted) := by
  simp only [settleRedelivery]
  split
  · exact .refl w
  · next tracked rest hnext =>
    obtain ⟨id, hget⟩ := get?_of_nextRedelivered hnext
    split_ifs
    · exact (works_drain (owns_tracked hget)).await _
    · exact (works_refuse _ _).await _

lemma nextSettled_cons {T : Tracker} {id : String}
    (hid : ∀ t, T.get? id = some t → t.undelivered = true) :
    nextSettled T (id :: ids) = nextSettled T ids := by
  simp only [nextSettled]
  split
  · rfl
  · next t hget => rw [if_pos (hid t hget)]

lemma undelivered_of_nextSettled {T : Tracker} (h : nextSettled T ids = none) :
    ∀ id ∈ ids, ∀ t, T.get? id = some t → t.undelivered = true := by
  induction ids with
  | nil => exact fun _ hid => absurd hid not_mem_nil
  | cons id ids ih =>
    have hid (t : Tracked) (hget : T.get? id = some t) : t.undelivered = true := by
      by_contra hlost
      simp [nextSettled, hget, hlost] at h
    rw [nextSettled_cons hid] at h
    exact forall_mem_cons.mpr ⟨hid, ih h⟩

lemma nextSettled_eq_some {T : Tracker} {rest : List String}
    (h : nextSettled T ids = some (tracked, rest)) :
    ∃ before id, ids = before ++ id :: rest ∧ T.get? id = some tracked ∧
      ∀ i ∈ before, ∀ t, T.get? i = some t → t.undelivered = true := by
  induction ids with
  | nil => cases h
  | cons id ids ih =>
    by_cases hid : ∀ t, T.get? id = some t → t.undelivered = true
    · rw [nextSettled_cons hid] at h
      obtain ⟨before, i, rfl, hget, hbefore⟩ := ih h
      exact ⟨id :: before, i, rfl, hget, forall_mem_cons.mpr ⟨hid, hbefore⟩⟩
    · obtain ⟨t, hnot⟩ := not_forall.mp hid
      obtain ⟨hget, hlost⟩ := Classical.not_imp.mp hnot
      simp only [nextSettled, hget] at h
      rw [if_neg hlost] at h
      cases h
      exact ⟨[], id, rfl, hget, fun _ hi => absurd hi not_mem_nil⟩

lemma works_settleTurnEnd : Works w (w.settleTurnEnd ids) := by
  simp only [settleTurnEnd]
  split
  · exact .refl w
  · next tracked rest hnext =>
    obtain ⟨before, id, -, hget, -⟩ := nextSettled_eq_some hnext
    split_ifs
    · exact (works_drain (owns_tracked hget)).await _
    · exact (works_refuse _ _).await _

lemma not_awaits_refuse {code : MentionDeliveryTerminalCode} :
    ¬(w.refuse message code).tracker.Awaits agentId message.deliveryId :=
  fun h => (Tracker.awaits_of_forget h).1 rfl

lemma not_awaits_drain : ¬(w.drain message).tracker.Awaits agentId message.deliveryId := by
  intro h
  simp only [drain] at h
  split_ifs at h with hdrained
  · obtain ⟨t, hget, -, hstate, -⟩ := h
    rw [show (w.note (.acknowledged message)).tracker = w.tracker from rfl] at hget
    simp [hget, hstate] at hdrained
  · rcases Tracker.awaits_of_set h with ⟨-, -, hstate⟩ | ⟨hid, -⟩
    · cases hstate
    · exact hid rfl

/-- Of the mentions the loop is given, those that still wait are left for it to come back to. -/
lemma awaits_settleTurnEnd {id : String} (hidle : (w.agents agentId).busy = false) (hid : id ∈ ids)
    (h : (w.settleTurnEnd ids).tracker.Awaits agentId id) :
    ∃ rest, .settleTurnEnd rest ∈ (w.settleTurnEnd ids).calls ∧ id ∈ rest := by
  obtain ⟨t, hget, ha, hstate, hkept⟩ := works_settleTurnEnd.edits.awaits hidle h
  simp only [settleTurnEnd] at h ⊢
  split at h
  · next hnext =>
    exact absurd (undelivered_of_nextSettled hnext id hid t hget) (by simp [hkept])
  · next tracked rest hnext =>
    obtain ⟨before, i, rfl, hi, hbefore⟩ := nextSettled_eq_some hnext
    have hdelivery : tracked.message.deliveryId = i := Tracker.deliveryId_of_get? hi
    refine ⟨rest, mem_append_right _ mem_cons_self, ?_⟩
    rcases mem_append.mp hid with hin | hin
    · exact absurd (hbefore id hin t hget) (by simp [hkept])
    · rcases mem_cons.mp hin with rfl | hin
      · subst hdelivery
        split_ifs at h
        · exact absurd h not_awaits_drain
        · exact absurd h (@not_awaits_refuse w _ agentId .deliveryRejected)
      · exact hin

end World

/-! ### The steps -/

/-- A message that the Agent consumed drains no mention pending for another Agent, and a mention
is told as pending only while a turn of its Agent runs. -/
def Orderly (w : World) : Label → Prop
  | .deliver message | .drop message _ =>
    w.consumed message = true →
      (w.tracker.get? message.deliveryId).all fun t =>
        t.state = .pending → t.message.agentId = message.agentId
  | .announced call .told =>
    match w.calls[call]? with
    | some (.deliver message busy _) =>
      busy = true → w.tracker.receiving message = true → (w.agents message.agentId).busy = true
    | _ => True
  | _ => True

instance (w : World) : ∀ l, Decidable (Orderly w l)
  | .deliver message | .drop message _ =>
    inferInstanceAs (Decidable (w.consumed message = true → _ = true))
  | .announced call .told =>
    match h : w.calls[call]? with
    | some (.deliver message busy _) =>
      decidable_of_iff (busy = true → w.tracker.receiving message = true →
        (w.agents message.agentId).busy = true) (by simp [Orderly, h])
    | some (.settleTurnEnd _) | some (.settleRedelivery _ _ _) | none =>
      isTrue (by simp [Orderly, h])
  | .announced _ .gone | .announced _ .rejected | .admission _ | .accept _ | .reported _
  | .turnEnd _ | .markUndelivered _ _ | .redelivery _ _ _ | .launch _ | .identify _ _
  | .turnStart _ | .block _ _ | .notify _ _ | .consume _ _ => inferInstanceAs (Decidable True)

lemma owns_of_orderly {T : Tracker} {message : TrackedMentionDelivery}
    (h : (T.get? message.deliveryId).all fun t =>
      t.state = .pending → t.message.agentId = message.agentId) : T.Owns message := by
  rintro a ⟨t, hget, ha, hstate⟩
  simp only [hget, Option.all_some, decide_eq_true_eq] at h
  exact ha.symm.trans (h hstate)

/-- What a step does: something beside the tracker first, and then an operation. A loop that goes on
takes its own call. -/
structure Turns (w : World) (l : Label) (w₁ w' : World) : Prop where
  tracker : w₁.tracker = w.tracker
  busy : ∀ a, l ≠ .turnStart a → (w.agents a).busy = false → (w₁.agents a).busy = false
  loops : ∀ rest, .settleTurnEnd rest ∈ w.calls →
    .settleTurnEnd rest ∈ w₁.calls ∨ w' = w₁.settleTurnEnd rest
  works : w₁.Works w'

lemma mem_eraseIdx_of_ne {calls : List Waiting} {call : Nat} {waiting c : Waiting}
    (hcall : calls[call]? = some waiting) (hc : c ∈ calls) (hne : c ≠ waiting) :
    c ∈ calls.eraseIdx call := by
  obtain ⟨i, hi⟩ := mem_iff_getElem?.mp hc
  refine mem_eraseIdx_iff_getElem?.mpr ⟨i, ?_, hi⟩
  rintro rfl
  rw [hcall] at hi
  exact hne (Option.some.inj hi).symm

variable {l : Label}

lemma turns_of_works {w w₁ w' : World} (hworks : w₁.Works w')
    (htracker : w₁.tracker = w.tracker) (hcalls : w₁.calls = w.calls)
    (hbusy : ∀ a, (w.agents a).busy = false → (w₁.agents a).busy = false) : Turns w l w₁ w' :=
  ⟨htracker, fun a _ => hbusy a, fun _ hrest => .inl (hcalls ▸ hrest), hworks⟩

lemma busy_updateAgent {w : World} {agentId : String} {f : Session → Session}
    (hf : ∀ session, session.busy = false → (f session).busy = false) (a : String)
    (h : (w.agents a).busy = false) : ((w.updateAgent agentId f).agents a).busy = false := by
  by_cases ha : a = agentId
  · subst ha
    simpa [updateAgent] using hf _ h
  · simpa [updateAgent, Function.update_of_ne ha] using h

lemma busy_accept {w : World} (agentId deliveryId : String) (turn : Option Nat) (a : String)
    (h : (w.agents a).busy = false) : ((w.accept agentId deliveryId turn).agents a).busy = false :=
  @busy_updateAgent w agentId (fun session =>
    { session with told := ⟨deliveryId, turn, false⟩ :: session.told }) (fun _ => id) a h

lemma busy_endTurn {w : World} (agentId : String) (a : String) (h : (w.agents a).busy = false) :
    ((w.endTurn agentId).agents a).busy = false :=
  @busy_updateAgent w agentId (fun session => { session with busy := false }) (fun _ _ => rfl) a h

lemma works_markUndelivered {w : World} (agentId : String) (ids : List String) :
    w.Works (ids.foldl (fun w id => w.markUndelivered agentId id) w) := by
  induction ids generalizing w with
  | nil => exact .refl w
  | cons id ids ih =>
    refine World.Works.trans ?_ ih
    simp only [markUndelivered]
    split_ifs
    · refine ⟨.single (.markUndelivered agentId id), fun a => ?_, fun _ => fun h => h⟩
      by_cases ha : a = agentId
      · subst ha
        simp [updateAgent, note, lose]
      · simp [updateAgent, note, Function.update_of_ne ha]
    · exact .refl w

lemma step_turns {w w' : World} (hok : Orderly w l) (hstep : step w l = some w') :
    ∃ w₁, Turns w l w₁ w' := by
  cases l with
  | deliver message =>
    cases hstep
    exact ⟨w.note (.issued message.deliveryId), turns_of_works
      (works_deliver fun hconsumed => owns_of_orderly (hok hconsumed)) rfl rfl fun _ => id⟩
  | drop message code =>
    cases hstep
    exact ⟨w.note (.issued message.deliveryId), turns_of_works
      (works_dropMention fun hconsumed => owns_of_orderly (hok hconsumed)) rfl rfl fun _ => id⟩
  | admission message =>
    obtain ⟨code, -, rfl⟩ := Option.map_eq_some_iff.mp hstep
    exact ⟨w.note (.issued message.deliveryId),
      turns_of_works (works_refuse _ _) rfl rfl fun _ => id⟩
  | accept call =>
    simp only [step] at hstep
    split at hstep
    · split_ifs at hstep
      cases hstep
      exact ⟨_, turns_of_works (.refl _) rfl rfl (busy_accept _ _ _)⟩
    · cases hstep
  | announced call outcome =>
    simp only [step] at hstep
    split at hstep
    · next message busy notice hcall =>
      split_ifs at hstep with htold
      cases hstep
      refine ⟨{ w with calls := w.calls.eraseIdx call }, rfl, fun _ _ => id, fun rest hrest => ?_,
        works_announced ?_⟩
      · exact .inl (mem_eraseIdx_of_ne hcall hrest (by simp))
      · rintro rfl hbusy hreceiving
        simp only [Orderly, hcall] at hok
        exact hok hbusy hreceiving
    · cases hstep
  | reported call =>
    simp only [step] at hstep
    split at hstep
    · next rest hcall =>
      cases hstep
      refine ⟨{ w with calls := w.calls.eraseIdx call }, rfl, fun _ _ => id, fun other hother => ?_,
        works_settleTurnEnd⟩
      by_cases hsame : other = rest
      · exact .inr (hsame ▸ rfl)
      · exact .inl (mem_eraseIdx_of_ne hcall hother (by simp [hsame]))
    · next agentId rest accepted hcall =>
      cases hstep
      refine ⟨{ w with calls := w.calls.eraseIdx call }, rfl, fun _ _ => id, fun other hother => ?_,
        works_settleRedelivery⟩
      exact .inl (mem_eraseIdx_of_ne hcall hother (by simp))
    · cases hstep
  | turnEnd agentId =>
    cases hstep
    exact ⟨w.endTurn agentId, turns_of_works works_settleTurnEnd rfl rfl (busy_endTurn agentId)⟩
  | markUndelivered agentId ids =>
    cases hstep
    exact ⟨w, turns_of_works (works_markUndelivered agentId ids) rfl rfl fun _ => id⟩
  | redelivery agentId ids accepted =>
    cases hstep
    exact ⟨{ w with trace := _ }, turns_of_works works_settleRedelivery rfl rfl fun _ => id⟩
  | launch agentId =>
    cases hstep
    exact ⟨_, turns_of_works (.refl _) rfl rfl (busy_updateAgent fun _ _ => rfl)⟩
  | identify agentId running =>
    cases hstep
    exact ⟨_, turns_of_works (.refl _) rfl rfl (busy_updateAgent fun _ => id)⟩
  | block agentId blocked =>
    cases hstep
    exact ⟨_, turns_of_works (.refl _) rfl rfl (busy_updateAgent fun _ => id)⟩
  | turnStart agentId =>
    obtain ⟨-, hw⟩ := Option.ite_none_left_eq_some.mp hstep
    cases hw
    refine ⟨w.updateAgent agentId _, rfl, fun a hne hidle => ?_, fun _ => .inl, .refl _⟩
    have ha : a ≠ agentId := fun heq => hne (heq ▸ rfl)
    simpa [updateAgent, Function.update_of_ne ha] using hidle
  | notify agentId deliveryId =>
    cases hstep
    exact ⟨_, turns_of_works (.refl _) rfl rfl (busy_accept _ _ _)⟩
  | consume agentId messageId =>
    cases hstep
    exact ⟨_, turns_of_works (.refl _) rfl rfl fun _ => id⟩

/-! ### Runs -/

lemma booked_step {w w' : World} (h : w.tracker.Booked) (hok : Orderly w l)
    (hstep : step w l = some w') : w'.tracker.Booked := by
  obtain ⟨w₁, hturns⟩ := step_turns hok hstep
  refine hturns.works.edits.booked ?_
  rw [hturns.tracker]
  exact h

lemma booked_run {computerId : String} {cursor : List (String × String)} {labels : List Label}
    {w : World} (hok : Permitted step Orderly (World.start computerId cursor) labels)
    (hrun : run step (World.start computerId cursor) labels = some w) : w.tracker.Booked :=
  @Transition.invariant _ _ step Orderly (fun w => w.tracker.Booked)
    (fun _ _ _ h hok hstep => booked_step h hok hstep) _ _ _ Tracker.booked_empty hok hrun

/-- An idle Agent's mentions that are not flagged wait for a settlement that goes on. -/
structure Settles (agentId : String) (w : World) : Prop where
  idle : (w.agents agentId).busy = false
  waiting : ∀ id, w.tracker.Awaits agentId id → ∃ rest, .settleTurnEnd rest ∈ w.calls ∧ id ∈ rest

lemma settles_step {agentId : String} {w w' : World} (h : Settles agentId w)
    (hok : Orderly w l) (hl : l ≠ .turnStart agentId) (hstep : step w l = some w') :
    Settles agentId w' := by
  obtain ⟨w₁, hturns⟩ := step_turns hok hstep
  have hidle := hturns.busy agentId hl h.idle
  refine ⟨(hturns.works.busy agentId).trans hidle, fun id hawaits => ?_⟩
  have hbefore := hturns.works.edits.awaits hidle hawaits
  rw [hturns.tracker] at hbefore
  obtain ⟨rest, hrest, hid⟩ := h.waiting id hbefore
  rcases hturns.loops rest hrest with hrest | rfl
  · exact ⟨rest, hturns.works.calls _ hrest, hid⟩
  · exact awaits_settleTurnEnd hidle hid hawaits

lemma settles_turnEnd {agentId : String} {w : World} (h : w.tracker.Booked) :
    Settles agentId ((w.endTurn agentId).settleTurnEnd (w.tracker.pending agentId)) := by
  have hidle : ((w.endTurn agentId).agents agentId).busy = false := by
    simp [endTurn, updateAgent, note]
  refine ⟨(works_settleTurnEnd.busy agentId).trans hidle, fun id hawaits => ?_⟩
  obtain ⟨t, hget, ha, hstate, -⟩ := works_settleTurnEnd.edits.awaits hidle hawaits
  have hid : id ∈ w.tracker.pending agentId := (h.listed agentId id).mpr ⟨t, hget, ha, hstate⟩
  exact awaits_settleTurnEnd hidle hid hawaits

lemma settles_run {agentId : String} {w w' : World} {labels : List Label} (h : Settles agentId w)
    (hok : Permitted step Orderly w labels) (hl : .turnStart agentId ∉ labels)
    (hrun : run step w labels = some w') : Settles agentId w' := by
  induction labels generalizing w with
  | nil => exact Option.some.inj hrun ▸ h
  | cons l labels ih =>
    obtain ⟨v, hv, hrest⟩ := Transition.run_cons_eq_some.mp hrun
    obtain ⟨hne, hlater⟩ := not_or.mp (mt mem_cons.mpr hl)
    exact ih (settles_step h hok.1 (Ne.symm hne) hv) (hok.2 v hv) hlater hrest

/-- In every run of orderly steps the pending lists name exactly what is tracked as pending, and
what is left of a list once the end of the Agent's turn is settled is flagged. -/
theorem bookkeeping {computerId : String} {cursor : List (String × String)} {labels : List Label}
    {w : World} (hok : Permitted step Orderly (World.start computerId cursor) labels)
    (hrun : run step (World.start computerId cursor) labels = some w) :
    (∀ agentId id, id ∈ w.tracker.pending agentId ↔ ∃ t, w.tracker.get? id = some t ∧
      t.message.agentId = agentId ∧ t.state = .pending) ∧
      w.tracker.tracked.length ≤ rememberedMentions ∧
      ∀ before agentId after, labels = before ++ .turnEnd agentId :: after →
        .turnStart agentId ∉ after → ∀ id ∈ w.tracker.pending agentId,
          w.tracker.undelivered id = true ∨ ∃ rest, .settleTurnEnd rest ∈ w.calls ∧ id ∈ rest := by
  have hbooked : w.tracker.Booked := booked_run hok hrun
  refine ⟨hbooked.listed, hbooked.few, ?_⟩
  rintro before agentId after rfl hafter id hid
  obtain ⟨u, hu, hrest⟩ := Transition.run_append_eq_some.mp hrun
  obtain ⟨hok₁, hok₂⟩ := Transition.permitted_append.mp hok
  have hbooked₁ : u.tracker.Booked := booked_run hok₁ hu
  obtain ⟨v, hv, hlast⟩ := Transition.run_cons_eq_some.mp hrest
  obtain ⟨-, hok₃⟩ := hok₂ u hu
  cases hv
  have hsettles := settles_run (settles_turnEnd hbooked₁) (hok₃ _ rfl) hafter hlast
  cases hlost : w.tracker.undelivered id with
  | true => exact .inl rfl
  | false =>
    obtain ⟨t, hget, ha, hstate⟩ := (hbooked.listed agentId id).mp hid
    refine .inr (hsettles.waiting id ⟨t, hget, ha, hstate, ?_⟩)
    simpa [Tracker.undelivered, hget] using hlost

/-! ### An announce that outlives its turn -/

def sampleMention : TrackedMentionDelivery where
  protocolMajor := 1
  workspaceId := "workspace"
  agentId := "agent"
  deliveryId := "delivery"
  messageId := "message"
  mentionDelivery := ⟨"message", "launch", "session", "computer"⟩

/-- A mention is written to a running turn, and the session accepts it. -/
def steered : List Label :=
  [.identify "agent" (some ⟨"launch", "session"⟩), .turnStart "agent", .deliver sampleMention,
    .accept 0]

/-- The turn ends before the announce does. -/
def outlived : List Label := steered ++ [.turnEnd "agent", .announced 0 .told]

theorem pending_after_turnEnd :
    ¬ ∀ (computerId : String) (cursor : List (String × String)) (labels : List Label) (w : World),
      run step (World.start computerId cursor) labels = some w →
      ∀ before agentId after, labels = before ++ .turnEnd agentId :: after →
        .turnStart agentId ∉ after → ∀ id ∈ w.tracker.pending agentId,
          w.tracker.undelivered id = true ∨ ∃ rest, .settleTurnEnd rest ∈ w.calls ∧ id ∈ rest := by
  intro h
  have hcheck : (run step (start "computer" []) outlived).any (fun w =>
      "delivery" ∈ w.tracker.pending "agent" && w.calls.isEmpty &&
        !w.tracker.undelivered "delivery") = true := by decide
  obtain ⟨w, hrun, hw⟩ := (Option.any_eq_true _ _).mp hcheck
  simp only [Bool.and_eq_true, decide_eq_true_eq, List.isEmpty_iff, Bool.not_eq_true'] at hw
  obtain ⟨⟨hpending, hcalls⟩, hlost⟩ := hw
  rcases h _ _ _ w hrun steered "agent" [.announced 0 .told] rfl (by decide) "delivery" hpending
    with hflag | ⟨rest, hrest, -⟩
  · rw [hlost] at hflag
    cases hflag
  · rw [hcalls] at hrest
    cases hrest

/-- The announce ends within its turn, and the mention is settled with the turn. -/
theorem bookkeeping_within :
    ∃ w, run step (World.start "computer" []) (steered ++ [.announced 0 .told, .turnEnd "agent"]) =
        some w ∧ (∀ agentId id, id ∈ w.tracker.pending agentId ↔ ∃ t, w.tracker.get? id = some t ∧
        t.message.agentId = agentId ∧ t.state = .pending) ∧
      w.tracker.tracked.length ≤ rememberedMentions ∧ ∀ before agentId after,
        steered ++ [.announced 0 .told, .turnEnd "agent"] = before ++ .turnEnd agentId :: after →
        .turnStart agentId ∉ after → ∀ id ∈ w.tracker.pending agentId,
          w.tracker.undelivered id = true ∨ ∃ rest, .settleTurnEnd rest ∈ w.calls ∧ id ∈ rest := by
  have hok : Permitted step Orderly (start "computer" [])
      (steered ++ [.announced 0 .told, .turnEnd "agent"]) := by decide
  obtain ⟨w, hrun⟩ := Option.isSome_iff_exists.mp (show (run step (start "computer" [])
    (steered ++ [.announced 0 .told, .turnEnd "agent"])).isSome by decide)
  exact ⟨w, hrun, bookkeeping hok hrun⟩

end Coforge.Mentions
