import Coforge.AttentionRule.Pages
import Coforge.Lib.Run
import Mathlib

/-!
# What drains hand over

However drains, history reads and new messages come between each other, a message that stops being
owed was returned by a drain or a page, and drains that go on reach an end where nothing is owed.
Each message is returned by one drain as long as no drain selects what another one in flight holds.
-/

namespace Coforge.AttentionRule

open Transition List UnreadRow

/-- The messages that drains returned. -/
def World.drained (w : World) : List Message := w.answers.flatMap Prod.fst

/-- The messages that drains in flight hold. -/
def World.held (w : World) : List Message :=
  w.drains.flatMap fun drain => drain.page.map UnreadRow.message

/-- No drain selects what another drain in flight holds. -/
def Alone (workspaceId agentId : Uuid) (w : World) : Event → Prop
  | .select _ target => ∀ m ∈ w.held, (target.all fun target => target.holds m) →
      ¬Owes w.tables workspaceId agentId m
  | _ => True

/-- What a history page returned, or a drain. -/
def World.returned (w : World) : List Message := w.drained ++ w.paged

/-! ### A read that finishes -/

section Finish

variable {t : Tables} {workspaceId agentId : Uuid} {r : OpenedRead} {page : HistoryPage}
  {m : Message}

/-- A read that finishes settles nothing but messages of its page. -/
theorem finishRead_spec (h : t.Constraints) (hpage : Joined t workspaceId agentId r page) :
    Advances workspaceId agentId t (finishRead t agentId r page) ∧
      ∀ m, Owes t workspaceId agentId m →
        Owes (finishRead t agentId r page) workspaceId agentId m ∨ m ∈ page.messages := by
  obtain ⟨member, hmember, hid⟩ := Option.map_eq_some_iff.mp hpage.opened.member
  rw [finishRead]
  cases hseen : page.modelSeenUpToSeq.filter fun sequence => decide (r.readThrough < sequence) with
  | none => exact ⟨Advances.refl t, fun m howes => .inl howes⟩
  | some s =>
    obtain ⟨hseen, habove⟩ := Option.filter_eq_some_iff.mp hseen
    -- The two writes move one boundary, that of the target, up to the sequence.
    have hmoves : ∀ t', Advances workspaceId agentId t t' →
        t'.mentionActions = t.mentionActions →
        (∀ target, boundaryAt t' agentId target = boundaryAt t agentId target ∨
          target = r.target ∧ boundaryAt t' agentId target = s) →
        ∀ m, Owes t workspaceId agentId m → Owes t' workspaceId agentId m ∨ m ∈ page.messages := by
      intro t' hadvances hactions honly m howes
      by_cases hin : m ∈ page.messages
      · exact .inr hin
      refine .inl (hadvances.keeps h howes (fun hbelow => ?_) (fun hread => ?_) fun hunread => ?_)
      · rcases honly m.target with hsame | ⟨htarget, hnew⟩
        · rw [hsame]
          exact hbelow
        · rw [hnew]
          by_contra hpassed
          have hread := hpage.opened.boundary
          rw [htarget] at hbelow
          exact hin (hpage.covers s hseen m howes htarget (by omega) (by omega))
      · rw [Tables.readAsNonMember, hactions] at hread
        exact hread
      · rw [Unread, hactions]
        exact hunread
    have hmax : ∀ {a b : Nat}, a = max b s → a = b ∨ a = s := by omega
    simp only
    cases hroot : r.target.threadRootId with
    | none =>
      have hadvances : Advances workspaceId agentId t
          (advanceTopLevel t agentId r.target.conversationId s) := advances_advanceTopLevel
      refine ⟨hadvances, hmoves _ hadvances rfl fun target => ?_⟩
      rw [boundaryAt_advanceTopLevel]
      split_ifs with htarget
      · refine (hmax rfl).imp_right fun hnew => ⟨?_, hnew⟩
        rw [htarget.1, ← hroot]
      · exact .inl rfl
    | some rootId =>
      rw [← hid]
      have hadvances : Advances workspaceId agentId t (advanceThreadRead t member.id rootId s) :=
        advances_advanceThreadRead h hmember
      refine ⟨hadvances, hmoves _ hadvances rfl fun target => ?_⟩
      rw [boundaryAt_advanceThreadRead h hmember]
      split_ifs with htarget
      · refine (hmax rfl).imp_right fun hnew => ⟨?_, hnew⟩
        rw [htarget, ← hroot]
      · exact .inl rfl

end Finish

/-! ### A new message -/

section Arrives

variable {t : Tables} {workspaceId agentId : Uuid} {m : Message}
  {deliveries : List AgentMessageDelivery}

/-- The tables with a new message and its deliveries. -/
def withMessage (t : Tables) (m : Message) (deliveries : List AgentMessageDelivery) : Tables :=
  { t with messages := t.messages ++ [m], deliveries := t.deliveries ++ deliveries }

lemma constraints_withMessage (h : t.Constraints) (hfits : Fits t m deliveries) :
    (withMessage t m deliveries).Constraints := by
  obtain ⟨hid, hconversation, hroot, hsequence, hdeliveries, hdeliveryIds, hagents⟩ := hfits
  have hmem : ∀ {x}, x ∈ (withMessage t m deliveries).messages → x ∈ t.messages ∨ x = m := by
    intro x hx
    exact (mem_append.mp hx).imp_right mem_singleton.mp
  exact { h with
    message_id := by
      rw [withMessage, map_append, nodup_append]
      refine ⟨h.message_id, nodup_singleton _, ?_⟩
      intro a ha b hb heq
      obtain ⟨x, hx, rfl⟩ := mem_map.mp ha
      rw [map_singleton, mem_singleton] at hb
      exact hid x hx (heq.trans hb)
    message_sequence := by
      rw [withMessage, map_append, nodup_append]
      refine ⟨h.message_sequence, nodup_singleton _, ?_⟩
      intro a ha b hb heq
      obtain ⟨x, hx, rfl⟩ := mem_map.mp ha
      rw [map_singleton, mem_singleton] at hb
      obtain ⟨hplace, hsame⟩ := Prod.mk.inj (heq.trans hb)
      have hlt := hsequence x hx hplace
      omega
    message_conversation := by
      intro x hx
      rcases hmem hx with hx | rfl
      · exact h.message_conversation x hx
      · exact hconversation
    message_root := by
      intro x hx rootId hrootId
      have hold : ∃ root ∈ t.messages, root.id = rootId ∧
          root.conversationId = x.conversationId := by
        rcases hmem hx with hx | rfl
        · exact h.message_root x hx rootId hrootId
        · exact hroot rootId hrootId
      obtain ⟨root, hin, hfields⟩ := hold
      exact ⟨root, mem_append_left _ hin, hfields⟩
    delivery_id := by
      rw [withMessage, map_append, nodup_append]
      refine ⟨h.delivery_id, hdeliveryIds, ?_⟩
      intro a ha b hb heq
      obtain ⟨x, hx, rfl⟩ := mem_map.mp ha
      obtain ⟨d, hd, rfl⟩ := mem_map.mp hb
      exact (hdeliveries d hd).2.2.2 x hx heq
    delivery_agent := by
      rw [withMessage, map_append, nodup_append]
      refine ⟨h.delivery_agent, ?_, ?_⟩
      · refine Nodup.map_on ?_ (hdeliveryIds.of_map _)
        intro d hd d' hd' heq
        exact Join.eq_of_key hagents hd hd' (Prod.mk.inj heq).2
      · intro a ha b hb heq
        obtain ⟨x, hx, rfl⟩ := mem_map.mp ha
        obtain ⟨d, hd, rfl⟩ := mem_map.mp hb
        obtain ⟨y, hy, hmessage, -⟩ := h.delivery_message x hx
        refine hid y hy (hmessage.trans ?_)
        rw [(Prod.mk.inj heq).1, (hdeliveries d hd).1]
    delivery_message := by
      intro d hd
      rcases mem_append.mp hd with hd | hd
      · obtain ⟨x, hx, hfields⟩ := h.delivery_message d hd
        exact ⟨x, mem_append_left _ hx, hfields⟩
      · obtain ⟨hmessage, hplace, hsame, -⟩ := hdeliveries d hd
        exact ⟨m, mem_append_right _ (mem_singleton_self m), hmessage.symm, hplace.symm, hsame.symm⟩
    mention_message := by
      intro a ha
      obtain ⟨x, hx, hfields⟩ := h.mention_message a ha
      exact ⟨x, mem_append_left _ hx, hfields⟩ }

lemma owes_withMessage (h : t.Constraints) (hfits : Fits t m deliveries) {x : Message}
    (hx : x ∈ t.messages) : Owes (withMessage t m deliveries) workspaceId agentId x ↔
      Owes t workspaceId agentId x := by
  have hdelivered : (withMessage t m deliveries).delivered agentId x = t.delivered agentId x := by
    have hnew : (deliveries.any fun d => decide (d.messageId = x.id ∧ d.agentId = agentId)) =
        false := by
      rw [any_eq_false]
      intro d hd hon
      obtain ⟨hmessage, -⟩ := of_decide_eq_true hon
      exact hfits.1 x hx (hmessage.symm.trans (hfits.2.2.2.2.1 d hd).1)
    rw [Tables.delivered, withMessage, any_append, hnew, Bool.or_false]
    rfl
  have howed : ∀ c, owedBy (withMessage t m deliveries) agentId x c = owedBy t agentId x c := by
    intro c
    rw [owedBy, owedBy, hdelivered]
    rfl
  have hin : x ∈ (withMessage t m deliveries).messages ↔ x ∈ t.messages :=
    iff_of_true (mem_append_left _ hx) hx
  rw [owes_iff (constraints_withMessage h hfits), owes_iff h, hin]
  simp only [howed]
  exact Iff.rfl

lemma later_withMessage (h : t.Constraints) (hfits : Fits t m deliveries) :
    Later workspaceId agentId t (withMessage t m deliveries) where
  constraints := constraints_withMessage h hfits
  conversations := rfl
  messages _ hx := mem_append_left _ hx
  member _ := Iff.rfl
  memberId _ := rfl
  boundary _ := le_rfl
  owes _ hx := (owes_withMessage h hfits hx).mp
  fresh x hx hnot y hy hplace := by
    rcases mem_append.mp hx with hx | hx
    · exact absurd hx hnot
    · rw [mem_singleton.mp hx] at hplace ⊢
      exact hfits.2.2.2.1 y hy hplace

end Arrives

/-! ### Steps -/

/-- What is known of the tables, the drains and the reads in flight, and what was returned. -/
structure Sound (workspaceId agentId : Uuid) (w : World) : Prop where
  constraints : w.tables.Constraints
  drains : ∀ drain ∈ w.drains, Covered w.tables workspaceId agentId drain.page
  opened : ∀ r ∈ w.opened, Opened w.tables agentId r
  selected : ∀ x ∈ w.selected, Joined w.tables workspaceId agentId x.1 x.2
  drained : ∀ m ∈ w.drained, m ∈ w.tables.messages ∧ ¬Owes w.tables workspaceId agentId m

section Steps

variable {workspaceId agentId : Uuid} {w w' : World}

lemma Sound.later (h : Sound workspaceId agentId w) {t : Tables}
    (hlater : Later workspaceId agentId w.tables t) :
    Sound workspaceId agentId { w with tables := t } where
  constraints := hlater.constraints
  drains drain hdrain := (h.drains drain hdrain).later hlater
  opened r hr := (h.opened r hr).later hlater
  selected x hx := (h.selected x hx).later hlater
  drained m hm := by
    obtain ⟨hin, hsettled⟩ := h.drained m hm
    exact ⟨hlater.messages m hin, fun howes => hsettled (hlater.owes m hin howes)⟩

/-- What one step keeps, and what stops being owed in it. -/
theorem sound_step (h : Sound workspaceId agentId w) {e : Event}
    (hstep : step workspaceId agentId w e = some w') :
    Sound workspaceId agentId w' ∧ ∀ m, Owes w.tables workspaceId agentId m →
      Owes w'.tables workspaceId agentId m ∨ m ∈ w'.returned := by
  cases e with
  | arrives m deliveries =>
    rw [step] at hstep
    split_ifs at hstep with hfits
    cases hstep
    refine ⟨h.later (later_withMessage h.constraints hfits), fun x howes => .inl ?_⟩
    have hx := ((owes_iff h.constraints).mp howes).1
    exact (owes_withMessage h.constraints hfits hx).mpr howes
  | select limit target =>
    cases hstep
    refine ⟨{ h with drains := fun drain hdrain => ?_ }, fun m howes => .inl howes⟩
    rcases mem_cons.mp hdrain with rfl | hdrain
    · exact covered_drainPage h.constraints limit target
    · exact h.drains drain hdrain
  | commit i =>
    obtain ⟨drain, hdrain, rfl⟩ := Option.map_eq_some_iff.mp hstep
    have hpage := h.drains drain (mem_of_getElem? hdrain)
    obtain ⟨t, hsettle, hadvances, hkeeps, hsettled⟩ := settle_spec h.constraints hpage
    have hlater := hadvances.later h.constraints
    rw [hsettle]
    have hsound := h.later hlater
    refine ⟨{ hsound with
      drains := fun other hother => hsound.drains other (mem_of_mem_eraseIdx hother)
      drained := fun m hm => ?_ }, fun m howes => ?_⟩
    · rcases mem_append.mp hm with hm | hm
      · obtain ⟨row, hrow, rfl⟩ := mem_map.mp hm
        exact ⟨hlater.messages _ (hpage.message row hrow), hsettled row hrow⟩
      · exact hsound.drained m hm
    · refine (hkeeps m howes).imp_right fun hm => ?_
      exact mem_append_left _ (mem_append_left _ hm)
  | rollback i =>
    obtain ⟨drain, -, rfl⟩ := Option.map_eq_some_iff.mp hstep
    refine ⟨{ h with drains := fun other hother => ?_ }, fun m howes => .inl howes⟩
    exact h.drains other (mem_of_mem_eraseIdx hother)
  | openRead target options =>
    obtain ⟨r, hr, rfl⟩ := Option.map_eq_some_iff.mp hstep
    refine ⟨{ h with opened := fun other hother => ?_ }, fun m howes => .inl howes⟩
    rcases mem_cons.mp hother with rfl | hother
    · exact opened_openRead hr
    · exact h.opened other hother
  | selectPage i =>
    obtain ⟨r, hr, rfl⟩ := Option.map_eq_some_iff.mp hstep
    have hopened := h.opened r (mem_of_getElem? hr)
    refine ⟨{ h with
      opened := fun other hother => h.opened other (mem_of_mem_eraseIdx hother)
      selected := fun x hx => ?_ }, fun m howes => .inl howes⟩
    rcases mem_cons.mp hx with rfl | hx
    · exact joined_readPage h.constraints hopened
    · exact h.selected x hx
  | finishRead i =>
    obtain ⟨x, hx, rfl⟩ := Option.map_eq_some_iff.mp hstep
    have hpage := h.selected x (mem_of_getElem? hx)
    obtain ⟨hadvances, hkeeps⟩ := finishRead_spec h.constraints hpage
    have hsound := h.later (hadvances.later h.constraints)
    refine ⟨{ hsound with
      selected := fun y hy => hsound.selected y (mem_of_mem_eraseIdx hy) }, fun m howes => ?_⟩
    refine (hkeeps m howes).imp_right fun hm => ?_
    exact mem_append_right _ (mem_append_left _ hm)

/-! ### Each message by one drain -/

lemma nodup_fragment {t : Tables} (h : t.Constraints) {scope : Option Target} :
    ((unreadAgentMessagesFragment t workspaceId agentId scope).map UnreadRow.message).Nodup :=
  (nodup_outer h (nodup_narrowed h)).sublist (filter_sublist.map _)

lemma nodup_drainPage {t : Tables} (h : t.Constraints) {limit : Int} {target : Option Target} :
    ((drainPage t workspaceId agentId limit target).page.map UnreadRow.message).Nodup := by
  have hsorted : (((unreadAgentMessagesFragment t workspaceId agentId target).insertionSort
      le).map message).Nodup :=
    ((perm_insertionSort le _).map _).nodup_iff.mpr (nodup_fragment h)
  exact hsorted.sublist (((take_sublist _ _).trans (take_sublist _ _)).map _)

/-- No message was returned twice, and none that was returned or is held by a drain in flight is
held by another. -/
def Once (w : World) : Prop := (w.held ++ w.drained).Nodup

lemma perm_held {i : Nat} {drain : Drain} (h : w.drains[i]? = some drain) :
    w.held.Perm (drain.page.map UnreadRow.message ++
      (w.drains.eraseIdx i).flatMap fun drain => drain.page.map UnreadRow.message) := by
  obtain ⟨hi, rfl⟩ := List.getElem?_eq_some_iff.mp h
  exact ((getElem_cons_eraseIdx_perm hi).symm.flatMap_right _)

theorem once_step (h : Sound workspaceId agentId w) (honce : Once w) {e : Event}
    (halone : Alone workspaceId agentId w e) (hstep : step workspaceId agentId w e = some w') :
    Once w' := by
  cases e with
  | arrives m deliveries =>
    rw [step] at hstep
    split_ifs at hstep
    cases hstep
    exact honce
  | select limit target =>
    cases hstep
    have howed : ∀ m ∈ (drainPage w.tables workspaceId agentId limit target).page.map
        message, Owes w.tables workspaceId agentId m ∧
          target.all fun target => target.holds m := by
      intro m hm
      obtain ⟨row, hrow, rfl⟩ := mem_map.mp hm
      have hin := mem_drainPage hrow
      exact ⟨owes_of_mem h.constraints hin, ((mem_fragment_iff h.constraints).mp hin).2⟩
    have hnew : ((drainPage w.tables workspaceId agentId limit target).page.map
        message).Nodup := nodup_drainPage h.constraints
    generalize drainPage w.tables workspaceId agentId limit target = drain at howed hnew ⊢
    rw [Once, World.held, flatMap_cons, append_assoc]
    refine hnew.append honce fun m hm hm' => ?_
    obtain ⟨howes, htarget⟩ := howed m hm
    rcases mem_append.mp hm' with hheld | hdrained
    · exact halone m hheld htarget howes
    · exact (h.drained m hdrained).2 howes
  | commit i =>
    obtain ⟨drain, hdrain, rfl⟩ := Option.map_eq_some_iff.mp hstep
    have hpage := h.drains drain (mem_of_getElem? hdrain)
    obtain ⟨t, hsettle, -⟩ := settle_spec h.constraints hpage
    rw [hsettle]
    have hperm := (perm_held hdrain).append_right w.drained
    have hnodup := hperm.nodup_iff.mp honce
    exact (perm_append_comm_assoc _ _ _).nodup_iff.mp
      (by rwa [append_assoc] at hnodup)
  | rollback i =>
    obtain ⟨drain, hdrain, rfl⟩ := Option.map_eq_some_iff.mp hstep
    have hperm := (perm_held hdrain).append_right w.drained
    have hnodup := hperm.nodup_iff.mp honce
    rw [append_assoc] at hnodup
    exact hnodup.of_append_right
  | openRead target options =>
    obtain ⟨r, -, rfl⟩ := Option.map_eq_some_iff.mp hstep
    exact honce
  | selectPage i =>
    obtain ⟨r, -, rfl⟩ := Option.map_eq_some_iff.mp hstep
    exact honce
  | finishRead i =>
    obtain ⟨x, -, rfl⟩ := Option.map_eq_some_iff.mp hstep
    exact honce

/-! ### Drains that go on -/

/-- Drains one after the other. -/
def drainsOf (limits : Nat → Int) : Nat → List Event
  | 0 => []
  | n + 1 => .select (limits 0) none :: .commit 0 :: drainsOf (fun i => limits (i + 1)) n

lemma bounded_pos (limit : Int) : 0 < bounded limit := by
  rw [bounded]
  omega

/-- A drain by itself: it says whether more is owed, and takes its page from what is. -/
lemma drain_spec (h : Sound workspaceId agentId w) (limit : Int) :
    ∃ w', run (step workspaceId agentId) w [.select limit none, .commit 0] = some w' ∧
      Sound workspaceId agentId w' ∧ w'.answers.head?.map Prod.snd =
        some (drainPage w.tables workspaceId agentId limit none).hasMore ∧
      (∀ m, Owes w'.tables workspaceId agentId m → Owes w.tables workspaceId agentId m) ∧
      ∀ row ∈ (drainPage w.tables workspaceId agentId limit none).page,
        ¬Owes w'.tables workspaceId agentId row.message := by
  have hselect : step workspaceId agentId w (.select limit none) = some
      { w with drains := drainPage w.tables workspaceId agentId limit none :: w.drains } := rfl
  have hpage : Covered w.tables workspaceId agentId
      (drainPage w.tables workspaceId agentId limit none).page :=
    covered_drainPage h.constraints limit none
  generalize drainPage w.tables workspaceId agentId limit none = drain at hselect hpage ⊢
  obtain ⟨t, hsettle, hadvances, -, hsettled⟩ := settle_spec h.constraints hpage
  have hcommit : step workspaceId agentId { w with drains := drain :: w.drains } (.commit 0) =
      some { w with
        tables := t
        answers := (drain.page.map message, drain.hasMore) :: w.answers } := by
    simp only [step, getElem?_cons_zero, Option.map_some, hsettle]
    rfl
  have hselected := (sound_step h hselect).1
  refine ⟨_, ?_, (sound_step hselected hcommit).1, rfl, fun m howes => ?_, hsettled⟩
  · rw [run_cons, hselect, Option.bind_some, run_cons, hcommit]
    rfl
  · exact hadvances.owes h.constraints howes

lemma length_owed {t t' : Tables} {page : List UnreadRow} (h' : t'.Constraints)
    (hpage : (page.map UnreadRow.message).Nodup)
    (hin : ∀ row ∈ page, Owes t workspaceId agentId row.message)
    (howes : ∀ m, Owes t' workspaceId agentId m → Owes t workspaceId agentId m)
    (hsettled : ∀ row ∈ page, ¬Owes t' workspaceId agentId row.message) :
    page.length + (unreadAgentMessagesFragment t' workspaceId agentId none).length ≤
      (unreadAgentMessagesFragment t workspaceId agentId none).length := by
  have hrest : ((unreadAgentMessagesFragment t' workspaceId agentId none).map
      message).Nodup := nodup_fragment h'
  have hdisjoint : Disjoint (page.map message)
      ((unreadAgentMessagesFragment t' workspaceId agentId none).map message) := by
    intro m hm hm'
    obtain ⟨row, hrow, rfl⟩ := mem_map.mp hm
    exact hsettled row hrow hm'
  have hsubset : page.map message ++
      (unreadAgentMessagesFragment t' workspaceId agentId none).map message ⊆
        (unreadAgentMessagesFragment t workspaceId agentId none).map message := by
    intro m hm
    rcases mem_append.mp hm with hm | hm
    · obtain ⟨row, hrow, rfl⟩ := mem_map.mp hm
      exact hin row hrow
    · exact howes m hm
  have hle := (subperm_of_subset (hpage.append hrest hdisjoint) hsubset).length_le
  rwa [length_append, length_map, length_map, length_map] at hle

/-- Repeated drains end with nothing owed. -/
theorem drains_end (h : Sound workspaceId agentId w) (limits : Nat → Int) :
    ∃ n w', run (step workspaceId agentId) w (drainsOf limits n) = some w' ∧
      w'.answers.head?.map Prod.snd = some false ∧ ∀ m, ¬Owes w'.tables workspaceId agentId m := by
  -- By induction on the number of rows that are owed.
  generalize hcount : (unreadAgentMessagesFragment w.tables workspaceId agentId none).length = count
  induction count using Nat.strong_induction_on generalizing w limits with
  | _ count ih =>
    obtain ⟨w', hrun, hsound, hanswer, howes, hsettled⟩ := drain_spec h (limits 0)
    cases hmore : (drainPage w.tables workspaceId agentId (limits 0) none).hasMore with
    | false =>
      rw [hmore] at hanswer
      have hone : drainsOf limits 1 = [.select (limits 0) none, .commit 0] := rfl
      refine ⟨1, w', by rw [hone, hrun], hanswer, fun m hm => ?_⟩
      obtain ⟨row, hrow, rfl⟩ := mem_map.mp (howes m hm)
      exact hsettled row ((page_of_last hmore).mpr hrow) hm
    | true =>
      have hin : ∀ row ∈ (drainPage w.tables workspaceId agentId (limits 0) none).page,
          Owes w.tables workspaceId agentId row.message :=
        fun row hrow => owes_of_mem h.constraints (mem_drainPage hrow)
      have hless := length_owed hsound.constraints
        (nodup_drainPage h.constraints) hin howes hsettled
      rw [length_page_of_more hmore, hcount] at hless
      have hpos := bounded_pos (limits 0)
      obtain ⟨n, w'', hrest, hend⟩ := ih _ (by omega) hsound (fun i => limits (i + 1)) rfl
      have hsplit : drainsOf limits (n + 1) =
          [.select (limits 0) none, .commit 0] ++ drainsOf (fun i => limits (i + 1)) n := rfl
      refine ⟨n + 1, w'', ?_, hend⟩
      rw [hsplit, run_append, hrun, Option.bind_some]
      exact hrest

end Steps

/-- Whatever comes between the statements of drains and reads, a message that stops being owed in a
step was returned, and drains that go on end with nothing owed; and as long as no drain selects what
another in flight holds, no message is returned by two drains. -/
theorem drains_hand_over (db : Database) {workspaceId agentId : Uuid} {events : List Event}
    {w : World} (hrun : run (step workspaceId agentId) { tables := db.toTables } events = some w) :
    (Permitted (step workspaceId agentId) (Alone workspaceId agentId) { tables := db.toTables }
      events → w.drained.Nodup) ∧
    Permitted (step workspaceId agentId) (fun u e => ∀ u', step workspaceId agentId u e = some u' →
      ∀ m, Owes u.tables workspaceId agentId m →
        Owes u'.tables workspaceId agentId m ∨ m ∈ u'.returned) { tables := db.toTables } events ∧
    ∀ limits : Nat → Int, ∃ n w', run (step workspaceId agentId) w (drainsOf limits n) = some w' ∧
      w'.answers.head?.map Prod.snd = some false ∧ ∀ m, ¬Owes w'.tables workspaceId agentId m := by
  have hstart : Sound workspaceId agentId { tables := db.toTables } :=
    ⟨db.constraints, forall_mem_nil _, forall_mem_nil _, forall_mem_nil _, forall_mem_nil _⟩
  have hkept : ∀ u e u', Sound workspaceId agentId u → True →
      step workspaceId agentId u e = some u' → Sound workspaceId agentId u' :=
    fun u e u' h _ hstep => (sound_step h hstep).1
  have hfree : Permitted (step workspaceId agentId) (fun _ _ => True) { tables := db.toTables }
      events := permitted_of_forall (fun _ _ => trivial) _ _
  refine ⟨fun halone => ?_, ?_, ?_⟩
  · have hboth : ∀ u e u', Sound workspaceId agentId u ∧ Once u → Alone workspaceId agentId u e →
        step workspaceId agentId u e = some u' → Sound workspaceId agentId u' ∧ Once u' :=
      fun u e u' h hok hstep => ⟨(sound_step h.1 hstep).1, once_step h.1 h.2 hok hstep⟩
    have honce : Once w :=
      (invariant hboth ⟨hstart, nodup_nil⟩ halone hrun).2
    exact honce.of_append_right
  · exact Permitted.imp hkept (fun u e h _ u' hstep => (sound_step h hstep).2) hstart hfree
  · exact drains_end (invariant hkept hstart hfree hrun)

/-! ### Two drains at once -/

/-- A direct message that the Agent has not read. -/
def oneUnread : Database where
  conversations := [⟨1, 1, none, false⟩]
  members := [⟨10, 1, 1, some 100, none, 0, false⟩, ⟨11, 1, 1, none, some 7, 0, false⟩]
  messages := [⟨20, 1, 1, some 10, 1, none⟩]
  deliveries := [⟨30, 20, 1, 7, 1⟩]
  constraints := {
    conversation_id := by decide
    member_id := by decide
    member_agent := by decide
    member_subject := by decide
    member_conversation := by decide
    message_id := by decide
    message_sequence := by decide
    message_conversation := by decide
    message_root := by
      intro m hm id hroot
      obtain rfl := List.mem_singleton.mp hm
      cases hroot
    delivery_id := by decide
    delivery_agent := by decide
    delivery_message := by decide
    mention_id := by decide
    mention_agent := by decide
    mention_message := by decide
    thread_read := by decide }

/-- After a drain. -/
def handedOver : World where
  tables := { oneUnread.toTables with
    members := [⟨10, 1, 1, some 100, none, 0, false⟩, ⟨11, 1, 1, none, some 7, 1, false⟩] }
  answers := [([⟨20, 1, 1, some 10, 1, none⟩], false)]

/-- A drain by itself returns the message once. -/
theorem one_drain_hands_over :
    run (step 1 7) { tables := oneUnread.toTables } [.select 20 none, .commit 0] =
        some handedOver ∧ handedOver.drained.Nodup := by
  have hrun : run (step 1 7) { tables := oneUnread.toTables } [.select 20 none, .commit 0] =
      some handedOver := rfl
  have halone : Permitted (step 1 7) (Alone 1 7) { tables := oneUnread.toTables }
      [.select 20 none, .commit 0] := by
    refine ⟨fun m hm => ?_, fun u _ => ⟨trivial, fun _ _ => trivial⟩⟩
    cases hm
  exact ⟨hrun, (drains_hand_over oneUnread hrun).1 halone⟩

/-- Two drains that select before either commits both return the message. -/
theorem two_drains_return_twice : ∃ w, run (step 1 7) { tables := oneUnread.toTables }
        [.select 20 none, .select 20 none, .commit 0, .commit 0] = some w ∧
      w.answers = [([⟨20, 1, 1, some 10, 1, none⟩], false), ([⟨20, 1, 1, some 10, 1, none⟩], false)] ∧
      ¬w.drained.Nodup := by
  exact ⟨_, rfl, by decide, by decide⟩

end Coforge.AttentionRule
