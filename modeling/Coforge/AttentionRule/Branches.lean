import Coforge.AttentionRule.Readers

/-!
# The rows of the unread fragment

Which messages the narrowed branches hold, that they hold each of them once, and which of their rows
the outer rule keeps.
-/

namespace Coforge.AttentionRule

open List Join

/-! ### Rows by their keys -/

section Keys

variable {t : Tables} (h : t.Constraints) {workspaceId agentId : Uuid} {m : Message}

include h

lemma Tables.Constraints.conversations_nodup : t.conversations.Nodup := h.conversation_id.of_map _

lemma Tables.Constraints.members_nodup : t.members.Nodup := h.member_id.of_map _

lemma Tables.Constraints.messages_nodup : t.messages.Nodup := h.message_id.of_map _

lemma Tables.Constraints.deliveries_nodup : t.deliveries.Nodup := h.delivery_id.of_map _

lemma Tables.Constraints.mentionActions_nodup : t.mentionActions.Nodup := h.mention_id.of_map _

lemma Tables.Constraints.threadReads_nodup : t.threadReads.Nodup := h.thread_read.of_map _

lemma single_conversation (id : Uuid) : Join.Single t.conversations fun c => c.id = id :=
  single_of_key h.conversation_id fun _ _ hon => of_decide_eq_true hon

lemma single_message (id : Option Uuid) : Join.Single t.messages fun r => some r.id = id := by
  intro x hx honx y hy hony
  have heq := (of_decide_eq_true honx).trans (of_decide_eq_true hony).symm
  exact eq_of_key h.message_id hx hy (Option.some.inj heq)

lemma single_sender (id : Option Uuid) : Join.Single t.members fun a => some a.id = id := by
  intro x hx honx y hy hony
  have heq := (of_decide_eq_true honx).trans (of_decide_eq_true hony).symm
  exact eq_of_key h.member_id hx hy (Option.some.inj heq)

lemma single_threadRead (memberId : Uuid) (rootId : Option Uuid) :
    Join.Single t.threadReads (isThreadRead memberId rootId) := by
  intro x hx honx y hy hony
  obtain ⟨hmemberx, hrootx⟩ := of_decide_eq_true honx
  obtain ⟨hmembery, hrooty⟩ := of_decide_eq_true hony
  refine eq_of_key h.thread_read hx hy (Prod.ext (hmemberx.trans hmembery.symm) ?_)
  exact Option.some.inj (hrootx.trans hrooty.symm)

lemma single_delivery :
    Join.Single t.deliveries fun d => d.messageId = m.id ∧ d.agentId = agentId := by
  refine single_of_key (k := (m.id, agentId)) h.delivery_agent fun d _ hon => ?_
  obtain ⟨hmessage, hagent⟩ := of_decide_eq_true hon
  exact Prod.ext hmessage hagent

lemma single_membership : Join.Single t.members (isMembership workspaceId agentId m) := by
  intro x hx honx y hy hony
  obtain ⟨hconvx, hactivex⟩ := of_decide_eq_true honx
  obtain ⟨hconvy, hactivey⟩ := of_decide_eq_true hony
  obtain ⟨-, hagentx, -⟩ := of_decide_eq_true hactivex
  obtain ⟨-, hagenty, -⟩ := of_decide_eq_true hactivey
  exact h.member_agent x hx y hy (hconvx.trans hconvy.symm) (hagentx.trans hagenty.symm)
    (by rw [hagentx]; rfl)

lemma delivery_fields {d : AgentMessageDelivery} (hd : d ∈ t.deliveries) (hm : m ∈ t.messages)
    (hid : d.messageId = m.id) : d.conversationId = m.conversationId ∧ d.sequence = m.sequence := by
  obtain ⟨x, hx, hidx, hconv, hseq⟩ := h.delivery_message d hd
  have hsame : x = m := eq_of_key h.message_id hx hm (hidx.trans hid)
  rw [← hsame]
  exact ⟨hconv.symm, hseq.symm⟩

end Keys

/-! ### The branches -/

section Branches

variable {t : Tables} {workspaceId agentId : Uuid} {m : Message}

/-- A message stands in a conversation of the Agent, above the boundary of its membership. -/
structure Above (t : Tables) (workspaceId agentId : Uuid) (m : Message) (own : ConversationMember)
    (c : Conversation) : Prop where
  message : m ∈ t.messages
  member : own ∈ t.members
  membership : isMembership workspaceId agentId m own
  conversation : c ∈ t.conversations
  id : c.id = m.conversationId
  above : t.boundary own m.threadRootId < m.sequence

variable {own : ConversationMember}

lemma boundary_top (hroot : m.threadRootId = none) :
    t.boundary own m.threadRootId = own.agentReadThroughSequence := by
  rw [hroot]
  rfl

lemma boundary_thread (hroot : m.threadRootId.isSome) : t.boundary own m.threadRootId =
      threadSequence (t.threadReads.find? (isThreadRead own.id m.threadRootId)) := by
  cases hid : m.threadRootId with
  | none =>
    rw [hid] at hroot
    cases hroot
  | some rootId =>
    have hon : isThreadRead own.id (some rootId) =
        fun r => decide (r.memberId = own.id ∧ r.rootMessageId = rootId) := by
      funext r
      simp only [isThreadRead, Option.some.injEq]
    rw [hon]
    rfl

lemma isMembership_iff :
    isMembership workspaceId agentId m own ↔ m.conversationId = own.conversationId ∧
      isActiveMember workspaceId agentId own := by
  simp only [isMembership, decide_eq_true_eq]
  exact and_congr_left' eq_comm

lemma agentId_of_active (h : isActiveMember workspaceId agentId own) :
    own.agentId = some agentId := (of_decide_eq_true h).2.1

lemma delivered_iff : t.delivered agentId m ↔
    ∃ d ∈ t.deliveries, d.messageId = m.id ∧ d.agentId = agentId := by
  simp only [Tables.delivered, any_eq_true, decide_eq_true_eq]

lemma mem_channelTopLevel (h : t.Constraints) :
    m ∈ channelTopLevel t workspaceId agentId ↔ m.threadRootId = none ∧
      ∃ own c, Above t workspaceId agentId m own c ∧ c.channelName.isSome ∧
        c.hiddenFromWorkspace = false ∧ t.delivered agentId m ∧
        t.readAsNonMember agentId m.id = false := by
  simp only [channelTopLevel, mem_map, mem_filter, Prod.exists, mem_product, decide_eq_true_eq]
  constructor
  · rintro ⟨own, c, d, m, ⟨⟨hown, hc, hd, hm⟩, hid, hname, hvisible, hagent, hconv, habove, hmessage,
      hroot, hactive, hread⟩, rfl⟩
    obtain ⟨hconvm, hseq⟩ := delivery_fields h hd hm hmessage.symm
    have hplace : m.conversationId = own.conversationId := hconvm.symm.trans hconv
    have hagentd : d.agentId = agentId :=
      Option.some.inj (hagent.symm.trans (agentId_of_active hactive))
    refine ⟨hroot, own, c, ⟨hm, hown, isMembership_iff.mpr ⟨hplace, hactive⟩, hc,
      hid.trans hplace.symm, ?_⟩, hname, hvisible, delivered_iff.mpr ⟨d, hd, hmessage.symm, hagentd⟩,
      by rwa [hmessage]⟩
    rw [boundary_top hroot, ← hseq]
    exact habove
  · rintro ⟨hroot, own, c, ⟨hm, hown, hmembership, hc, hid, habove⟩, hname, hvisible, hdelivered,
      hread⟩
    obtain ⟨hplace, hactive⟩ := isMembership_iff.mp hmembership
    obtain ⟨d, hd, hmessage, hagentd⟩ := delivered_iff.mp hdelivered
    obtain ⟨hconvm, hseq⟩ := delivery_fields h hd hm hmessage
    rw [boundary_top hroot, ← hseq] at habove
    refine ⟨own, c, d, m, ⟨⟨hown, hc, hd, hm⟩, hid.trans hplace, hname, hvisible, ?_,
      hconvm.trans hplace, habove, hmessage.symm, hroot, hactive, by rwa [hmessage]⟩, rfl⟩
    rw [agentId_of_active hactive, hagentd]

lemma channelThreads_eq (h : t.Constraints) : channelThreads t workspaceId agentId =
    ((t.members ×ˢ t.conversations ×ˢ t.messages ×ˢ t.deliveries).filter fun (cam, cc, cm, cd) =>
      cc.id = cam.conversationId ∧ cc.channelName.isSome ∧ cc.hiddenFromWorkspace = false ∧
        cm.conversationId = cam.conversationId ∧ cm.threadRootId.isSome ∧
        cd.messageId = cm.id ∧ cam.agentId = some cd.agentId ∧
        isActiveMember workspaceId agentId cam ∧
        threadSequence (t.threadReads.find? (isThreadRead cam.id cm.threadRootId)) < cm.sequence ∧
        t.readAsNonMember agentId cd.messageId = false).map fun (_, _, cm, _) => cm :=
  select_left h.threadReads_nodup fun _ _ => single_threadRead h _ _

lemma directThreads_eq (h : t.Constraints) : directThreads t workspaceId agentId =
    ((t.members ×ˢ t.conversations ×ˢ t.messages).filter fun (dam, dc, dm) =>
      dc.id = dam.conversationId ∧ dc.channelName = none ∧
        dm.conversationId = dam.conversationId ∧ dm.threadRootId.isSome ∧
        isActiveMember workspaceId agentId dam ∧
        threadSequence (t.threadReads.find? (isThreadRead dam.id dm.threadRootId)) <
          dm.sequence).map fun (_, _, dm) => dm :=
  select_left h.threadReads_nodup fun _ _ => single_threadRead h _ _

lemma mem_channelThreads (h : t.Constraints) :
    m ∈ channelThreads t workspaceId agentId ↔ m.threadRootId.isSome ∧
      ∃ own c, Above t workspaceId agentId m own c ∧ c.channelName.isSome ∧
        c.hiddenFromWorkspace = false ∧ t.delivered agentId m ∧
        t.readAsNonMember agentId m.id = false := by
  simp only [channelThreads_eq h, mem_map, mem_filter, Prod.exists, mem_product, decide_eq_true_eq]
  constructor
  · rintro ⟨own, c, m, d, ⟨⟨hown, hc, hm, hd⟩, hid, hname, hvisible, hplace, hroot, hmessage,
      hagent, hactive, habove, hread⟩, rfl⟩
    have hagentd : d.agentId = agentId :=
      Option.some.inj (hagent.symm.trans (agentId_of_active hactive))
    refine ⟨hroot, own, c, ⟨hm, hown, isMembership_iff.mpr ⟨hplace, hactive⟩, hc,
      hid.trans hplace.symm, ?_⟩, hname, hvisible, delivered_iff.mpr ⟨d, hd, hmessage, hagentd⟩,
      by rwa [← hmessage]⟩
    rw [boundary_thread hroot]
    exact habove
  · rintro ⟨hroot, own, c, ⟨hm, hown, hmembership, hc, hid, habove⟩, hname, hvisible, hdelivered,
      hread⟩
    obtain ⟨hplace, hactive⟩ := isMembership_iff.mp hmembership
    obtain ⟨d, hd, hmessage, hagentd⟩ := delivered_iff.mp hdelivered
    rw [boundary_thread hroot] at habove
    refine ⟨own, c, m, d, ⟨⟨hown, hc, hm, hd⟩, hid.trans hplace, hname, hvisible, hplace, hroot,
      hmessage, ?_, hactive, habove, by rwa [hmessage]⟩, rfl⟩
    rw [agentId_of_active hactive, hagentd]

lemma mem_directTopLevel : m ∈ directTopLevel t workspaceId agentId ↔ m.threadRootId = none ∧
      ∃ own c, Above t workspaceId agentId m own c ∧ c.channelName = none := by
  simp only [directTopLevel, mem_map, mem_filter, Prod.exists, mem_product, decide_eq_true_eq]
  constructor
  · rintro ⟨own, c, m, ⟨⟨hown, hc, hm⟩, hid, hname, hplace, hroot, habove, hactive⟩, rfl⟩
    refine ⟨hroot, own, c, ⟨hm, hown, isMembership_iff.mpr ⟨hplace, hactive⟩, hc,
      hid.trans hplace.symm, ?_⟩, hname⟩
    rw [boundary_top hroot]
    exact habove
  · rintro ⟨hroot, own, c, ⟨hm, hown, hmembership, hc, hid, habove⟩, hname⟩
    obtain ⟨hplace, hactive⟩ := isMembership_iff.mp hmembership
    rw [boundary_top hroot] at habove
    exact ⟨own, c, m, ⟨⟨hown, hc, hm⟩, hid.trans hplace, hname, hplace, hroot, habove, hactive⟩, rfl⟩

lemma mem_directThreads (h : t.Constraints) :
    m ∈ directThreads t workspaceId agentId ↔ m.threadRootId.isSome ∧
      ∃ own c, Above t workspaceId agentId m own c ∧ c.channelName = none := by
  simp only [directThreads_eq h, mem_map, mem_filter, Prod.exists, mem_product, decide_eq_true_eq]
  constructor
  · rintro ⟨own, c, m, ⟨⟨hown, hc, hm⟩, hid, hname, hplace, hroot, hactive, habove⟩, rfl⟩
    refine ⟨hroot, own, c, ⟨hm, hown, isMembership_iff.mpr ⟨hplace, hactive⟩, hc,
      hid.trans hplace.symm, ?_⟩, hname⟩
    rw [boundary_thread hroot]
    exact habove
  · rintro ⟨hroot, own, c, ⟨hm, hown, hmembership, hc, hid, habove⟩, hname⟩
    obtain ⟨hplace, hactive⟩ := isMembership_iff.mp hmembership
    rw [boundary_thread hroot] at habove
    exact ⟨own, c, m, ⟨⟨hown, hc, hm⟩, hid.trans hplace, hname, hplace, hroot, hactive, habove⟩, rfl⟩

lemma mem_notifiedOutside : m ∈ notifiedOutside t workspaceId agentId ↔ m ∈ t.messages ∧
      (∃ a ∈ t.mentionActions, a.messageId = m.id ∧ a.workspaceId = workspaceId ∧
        a.targetAgentId = some agentId ∧ a.notified ∧ a.targetRead = false) ∧
      (∃ c ∈ t.conversations, c.id = m.conversationId ∧ c.hiddenFromWorkspace = false) ∧
      isMemberOf t agentId m.conversationId = false := by
  simp only [notifiedOutside, mem_map, mem_filter, Prod.exists, mem_product, decide_eq_true_eq]
  constructor
  · rintro ⟨a, m, c, ⟨⟨ha, hm, hc⟩, hmessage, hid, hvisible, hworkspace, htarget, hnotified, hunread,
      houtside⟩, rfl⟩
    exact ⟨hm, ⟨a, ha, hmessage.symm, hworkspace, htarget, hnotified, hunread⟩,
      ⟨c, hc, hid, hvisible⟩, houtside⟩
  · rintro ⟨hm, ⟨a, ha, hmessage, hworkspace, htarget, hnotified, hunread⟩, ⟨c, hc, hid, hvisible⟩,
      houtside⟩
    exact ⟨a, m, c, ⟨⟨ha, hm, hc⟩, hmessage.symm, hid, hvisible, hworkspace, htarget, hnotified,
      hunread, houtside⟩, rfl⟩

/-- What the branches leave out of a channel. -/
def keptOut (t : Tables) (agentId : Uuid) (m : Message) (c : Conversation) : Bool :=
  c.channelName.isSome && (c.hiddenFromWorkspace || t.readAsNonMember agentId m.id)

lemma mem_narrowed (h : t.Constraints) : m ∈ narrowed t workspaceId agentId ↔
      (∃ own c, Above t workspaceId agentId m own c ∧
        (c.channelName.isSome → t.delivered agentId m) ∧ keptOut t agentId m c = false) ∨
      m ∈ notifiedOutside t workspaceId agentId := by
  simp only [narrowed, mem_append, mem_channelTopLevel h, mem_channelThreads h,
    mem_directTopLevel, mem_directThreads h]
  refine or_congr_left ⟨?_, ?_⟩
  · rintro (((⟨-, own, c, habove, hname, hvisible, hdelivered, hread⟩ |
      ⟨-, own, c, habove, hname, hvisible, hdelivered, hread⟩) | ⟨-, own, c, habove, hname⟩) |
      ⟨-, own, c, habove, hname⟩)
    · exact ⟨own, c, habove, fun _ => hdelivered, by simp [keptOut, hvisible, hread]⟩
    · exact ⟨own, c, habove, fun _ => hdelivered, by simp [keptOut, hvisible, hread]⟩
    · exact ⟨own, c, habove, by simp [hname], by simp [keptOut, hname]⟩
    · exact ⟨own, c, habove, by simp [hname], by simp [keptOut, hname]⟩
  · rintro ⟨own, c, habove, hdelivered, hkept⟩
    cases hname : c.channelName with
    | none =>
      cases hroot : m.threadRootId with
      | none => exact .inl (.inr ⟨rfl, own, c, habove, hname⟩)
      | some rootId => exact .inr ⟨rfl, own, c, habove, hname⟩
    | some name =>
      have hchannel : c.channelName.isSome := by rw [hname]; rfl
      simp only [keptOut, hchannel, Bool.true_and, Bool.or_eq_false_iff] at hkept
      have hdelivered := hdelivered hchannel
      cases hroot : m.threadRootId with
      | none => exact .inl (.inl (.inl ⟨rfl, own, c, habove, hchannel, hkept.1, hdelivered, hkept.2⟩))
      | some rootId =>
        exact .inl (.inl (.inr ⟨rfl, own, c, habove, hchannel, hkept.1, hdelivered, hkept.2⟩))

/-! ### Each message once -/

variable {c : Conversation}

lemma Above.unique (h : t.Constraints) {own' : ConversationMember} {c' : Conversation}
    (ha : Above t workspaceId agentId m own c) (ha' : Above t workspaceId agentId m own' c') :
    own = own' ∧ c = c' :=
  ⟨single_membership h own ha.member ha.membership own' ha'.member ha'.membership,
    eq_of_key h.conversation_id ha.conversation ha'.conversation (ha.id.trans ha'.id.symm)⟩

lemma Above.isMemberOf (h : Above t workspaceId agentId m own c) :
    isMemberOf t agentId m.conversationId := by
  obtain ⟨hplace, hactive⟩ := isMembership_iff.mp h.membership
  obtain ⟨-, hagent, hleft⟩ := of_decide_eq_true hactive
  exact any_eq_true.mpr ⟨own, h.member, decide_eq_true ⟨hplace.symm, hagent, hleft⟩⟩

lemma unique_member (h : t.Constraints) {own' : ConversationMember} (hown : own ∈ t.members)
    (hown' : own' ∈ t.members) (hactive : isActiveMember workspaceId agentId own)
    (hactive' : isActiveMember workspaceId agentId own')
    (hplace : own.conversationId = own'.conversationId) : own = own' := by
  have hagent := agentId_of_active hactive
  refine h.member_agent own hown own' hown' hplace ?_ (by rw [hagent]; rfl)
  rw [hagent, agentId_of_active hactive']

lemma nodup_channelTopLevel (h : t.Constraints) :
    (channelTopLevel t workspaceId agentId).Nodup := by
  have hnodup := h.members_nodup.product (h.conversations_nodup.product
    (h.deliveries_nodup.product h.messages_nodup))
  refine nodup_select hnodup ?_
  rintro ⟨own, c, d, m⟩ hx hcond ⟨own', c', d', m'⟩ hx' hcond' heq
  simp only [mem_product] at hx hx'
  obtain ⟨hid, -, -, hagent, hconv, -, hmessage, -, hactive, -⟩ := of_decide_eq_true hcond
  obtain ⟨hid', -, -, hagent', hconv', -, hmessage', -, hactive', -⟩ := of_decide_eq_true hcond'
  obtain rfl : m = m' := heq
  have hd : d = d' := by
    refine eq_of_key h.delivery_agent hx.2.2.1 hx'.2.2.1
      (Prod.ext (hmessage.symm.trans hmessage') (Option.some.inj ?_))
    rw [← hagent, ← hagent', agentId_of_active hactive, agentId_of_active hactive']
  subst hd
  have hown : own = own' :=
    unique_member h hx.1 hx'.1 hactive hactive' (hconv.symm.trans hconv')
  subst hown
  have hc : c = c' := eq_of_key h.conversation_id hx.2.1 hx'.2.1 (hid.trans hid'.symm)
  rw [hc]

lemma nodup_channelThreads (h : t.Constraints) : (channelThreads t workspaceId agentId).Nodup := by
  rw [channelThreads_eq h]
  have hnodup := h.members_nodup.product (h.conversations_nodup.product
    (h.messages_nodup.product h.deliveries_nodup))
  refine nodup_select hnodup ?_
  rintro ⟨own, c, m, d⟩ hx hcond ⟨own', c', m', d'⟩ hx' hcond' heq
  simp only [mem_product] at hx hx'
  obtain ⟨hid, -, -, hconv, -, hmessage, hagent, hactive, -⟩ := of_decide_eq_true hcond
  obtain ⟨hid', -, -, hconv', -, hmessage', hagent', hactive', -⟩ := of_decide_eq_true hcond'
  obtain rfl : m = m' := heq
  have hd : d = d' := by
    refine eq_of_key h.delivery_agent hx.2.2.2 hx'.2.2.2
      (Prod.ext (hmessage.trans hmessage'.symm) (Option.some.inj ?_))
    rw [← hagent, ← hagent', agentId_of_active hactive, agentId_of_active hactive']
  subst hd
  have hown : own = own' :=
    unique_member h hx.1 hx'.1 hactive hactive' (hconv.symm.trans hconv')
  subst hown
  have hc : c = c' := eq_of_key h.conversation_id hx.2.1 hx'.2.1 (hid.trans hid'.symm)
  rw [hc]

lemma nodup_directTopLevel (h : t.Constraints) : (directTopLevel t workspaceId agentId).Nodup := by
  have hnodup := h.members_nodup.product (h.conversations_nodup.product h.messages_nodup)
  refine nodup_select hnodup ?_
  rintro ⟨own, c, m⟩ hx hcond ⟨own', c', m'⟩ hx' hcond' heq
  simp only [mem_product] at hx hx'
  obtain ⟨hid, -, hconv, -, -, hactive⟩ := of_decide_eq_true hcond
  obtain ⟨hid', -, hconv', -, -, hactive'⟩ := of_decide_eq_true hcond'
  obtain rfl : m = m' := heq
  have hown : own = own' :=
    unique_member h hx.1 hx'.1 hactive hactive' (hconv.symm.trans hconv')
  subst hown
  have hc : c = c' := eq_of_key h.conversation_id hx.2.1 hx'.2.1 (hid.trans hid'.symm)
  rw [hc]

lemma nodup_directThreads (h : t.Constraints) : (directThreads t workspaceId agentId).Nodup := by
  rw [directThreads_eq h]
  have hnodup := h.members_nodup.product (h.conversations_nodup.product h.messages_nodup)
  refine nodup_select hnodup ?_
  rintro ⟨own, c, m⟩ hx hcond ⟨own', c', m'⟩ hx' hcond' heq
  simp only [mem_product] at hx hx'
  obtain ⟨hid, -, hconv, -, hactive, -⟩ := of_decide_eq_true hcond
  obtain ⟨hid', -, hconv', -, hactive', -⟩ := of_decide_eq_true hcond'
  obtain rfl : m = m' := heq
  have hown : own = own' :=
    unique_member h hx.1 hx'.1 hactive hactive' (hconv.symm.trans hconv')
  subst hown
  have hc : c = c' := eq_of_key h.conversation_id hx.2.1 hx'.2.1 (hid.trans hid'.symm)
  rw [hc]

lemma nodup_notifiedOutside (h : t.Constraints) :
    (notifiedOutside t workspaceId agentId).Nodup := by
  have hnodup := h.mentionActions_nodup.product (h.messages_nodup.product h.conversations_nodup)
  refine nodup_select hnodup ?_
  rintro ⟨a, m, c⟩ hx hcond ⟨a', m', c'⟩ hx' hcond' heq
  simp only [mem_product] at hx hx'
  obtain ⟨hmessage, hid, -, -, htarget, -⟩ := of_decide_eq_true hcond
  obtain ⟨hmessage', hid', -, -, htarget', -⟩ := of_decide_eq_true hcond'
  obtain rfl : m = m' := heq
  have ha : a = a' := h.mention_agent a hx.1 a' hx'.1 (hmessage.symm.trans hmessage')
    (htarget.trans htarget'.symm) (by rw [htarget]; rfl)
  subst ha
  have hc : c = c' := eq_of_key h.conversation_id hx.2.2 hx'.2.2 (hid.trans hid'.symm)
  rw [hc]

/-- The branches hold each message once. -/
theorem nodup_narrowed (h : t.Constraints) : (narrowed t workspaceId agentId).Nodup := by
  have htop : Disjoint (channelTopLevel t workspaceId agentId)
      (channelThreads t workspaceId agentId) := by
    intro m hm hm'
    have hroot := ((mem_channelThreads h).mp hm').1
    rw [((mem_channelTopLevel h).mp hm).1] at hroot
    cases hroot
  have hchannel : ∀ m ∈ channelTopLevel t workspaceId agentId ++
      channelThreads t workspaceId agentId, ∃ own c, Above t workspaceId agentId m own c ∧
        c.channelName.isSome := by
    intro m hm
    rcases mem_append.mp hm with hm | hm
    · obtain ⟨-, own, c, habove, hname, -⟩ := (mem_channelTopLevel h).mp hm
      exact ⟨own, c, habove, hname⟩
    · obtain ⟨-, own, c, habove, hname, -⟩ := (mem_channelThreads h).mp hm
      exact ⟨own, c, habove, hname⟩
  have hkind : ∀ {m own c}, Above t workspaceId agentId m own c → c.channelName = none →
      m ∉ channelTopLevel t workspaceId agentId ++ channelThreads t workspaceId agentId := by
    intro m own c habove hname hm
    obtain ⟨own', c', habove', hname'⟩ := hchannel m hm
    rw [← (habove.unique h habove').2, hname] at hname'
    cases hname'
  have hdirect : Disjoint (channelTopLevel t workspaceId agentId ++
      channelThreads t workspaceId agentId) (directTopLevel t workspaceId agentId) := by
    intro m hm hm'
    obtain ⟨-, own, c, habove, hname⟩ := mem_directTopLevel.mp hm'
    exact hkind habove hname hm
  have hreplies : Disjoint (channelTopLevel t workspaceId agentId ++
      channelThreads t workspaceId agentId ++ directTopLevel t workspaceId agentId)
      (directThreads t workspaceId agentId) := by
    intro m hm hm'
    obtain ⟨hroot, own, c, habove, hname⟩ := (mem_directThreads h).mp hm'
    rcases mem_append.mp hm with hm | hm
    · exact hkind habove hname hm
    · rw [(mem_directTopLevel.mp hm).1] at hroot
      cases hroot
  refine Nodup.append (Nodup.append (Nodup.append (Nodup.append
    (nodup_channelTopLevel h) (nodup_channelThreads h) htop) (nodup_directTopLevel h) hdirect)
    (nodup_directThreads h) hreplies) (nodup_notifiedOutside h) ?_
  intro m hm hm'
  have hmember : isMemberOf t agentId m.conversationId := by
    rcases mem_append.mp hm with hm | hm
    · rcases mem_append.mp hm with hm | hm
      · obtain ⟨own, c, habove, -⟩ := hchannel m hm
        exact habove.isMemberOf
      · obtain ⟨-, own, c, habove, -⟩ := mem_directTopLevel.mp hm
        exact habove.isMemberOf
    · obtain ⟨-, own, c, habove, -⟩ := (mem_directThreads h).mp hm
      exact habove.isMemberOf
  rw [(mem_notifiedOutside.mp hm').2.2.2] at hmember
  cases hmember

/-! ### The outer rule -/

/-- The outer query's row of a message. -/
def unreadRow (t : Tables) (workspaceId agentId : Uuid) (m : Message) : Option UnreadRow :=
  (t.conversation m.conversationId).bind fun c =>
    let am := t.members.find? (isMembership workspaceId agentId m)
    let r := t.messages.find? fun r => some r.id = m.threadRootId
    let tr := t.threadReads.find? fun tr =>
      am.any fun own => isThreadRead own.id m.threadRootId tr
    let sm := t.members.find? fun sm => some sm.id = m.senderMemberId
    let d := t.deliveries.find? fun d => d.messageId = m.id ∧ d.agentId = agentId
    if outerRule m am c tr sm d then some ⟨m, (r.map Message.sequence).getD 0, am.isNone⟩ else none

lemma outer_eq (h : t.Constraints) (rows : List Message) :
    outer t workspaceId agentId rows = rows.filterMap (unreadRow t workspaceId agentId) := by
  rw [filterMap_eq_flatMap_toList, outer]
  refine flatMap_congr fun m _ => ?_
  have hthread : ∀ am : Option ConversationMember, Join.Single t.threadReads fun tr =>
      am.any fun own => isThreadRead own.id m.threadRootId tr := by
    intro am
    cases am with
    | none =>
      intro x _ hx
      cases hx
    | some own => exact single_threadRead h own.id m.threadRootId
  rw [left_of_single h.members_nodup (single_membership h), flatMap_singleton,
    filter_of_single h.conversations_nodup (single_conversation h m.conversationId)]
  have hfind : t.conversations.find? (fun c => decide (c.id = m.conversationId)) =
      t.conversation m.conversationId := rfl
  rw [hfind, unreadRow]
  cases t.conversation m.conversationId with
  | none => rfl
  | some c =>
    rw [Option.toList_some, flatMap_singleton, Option.bind_some,
      left_of_single h.messages_nodup (single_message h m.threadRootId),
      flatMap_singleton, left_of_single h.threadReads_nodup (hthread _),
      flatMap_singleton, left_of_single h.members_nodup (single_sender h m.senderMemberId),
      flatMap_singleton, left_of_single h.deliveries_nodup (single_delivery h)]
    simp only [filter_cons, filter_nil]
    split_ifs <;> rfl

/-- The outer rule, less the boundary. -/
def owedBy (t : Tables) (agentId : Uuid) (m : Message) (c : Conversation) : Bool :=
  (t.userSent m || t.delivered agentId m) && (c.channelName = none || t.delivered agentId m)

lemma boundary_eq : t.boundary own m.threadRootId =
    if m.threadRootId = none then own.agentReadThroughSequence
    else threadSequence (t.threadReads.find? (isThreadRead own.id m.threadRootId)) := by
  split_ifs with hroot
  · exact boundary_top hroot
  · exact boundary_thread (Option.isSome_iff_ne_none.mpr hroot)

/-- The outer query keeps the messages above the boundary of the membership, where there is one,
that are owed. -/
lemma unreadRow_isSome (h : t.Constraints) (hc : c ∈ t.conversations)
    (hid : c.id = m.conversationId) : (unreadRow t workspaceId agentId m).isSome ↔
      (∀ own ∈ t.members, isMembership workspaceId agentId m own →
        t.boundary own m.threadRootId < m.sequence) ∧ owedBy t agentId m c := by
  have hfind : t.conversation m.conversationId = some c :=
    (find?_eq_some_iff (single_conversation h _)).mpr ⟨hc, decide_eq_true hid⟩
  have hsender : (t.members.find? fun sm => decide (some sm.id = m.senderMemberId)).any
      (fun sender => sender.userId.isSome) = t.userSent m := by
    rw [any_find? (single_sender h m.senderMemberId), Tables.userSent]
    simp only [Bool.decide_and, Bool.decide_eq_true]
  have hdelivered : (t.deliveries.find? fun d =>
      decide (d.messageId = m.id ∧ d.agentId = agentId)).isSome = t.delivered agentId m :=
    isSome_find?
  rw [unreadRow, hfind, Option.bind_some]
  simp only
  have hsome : ∀ {p : Bool} {row : UnreadRow}, (if p then some row else none).isSome ↔ p := by
    intro p row
    cases p <;> simp
  rw [hsome, outerRule, hsender, hdelivered]
  simp only [Bool.and_eq_true, owedBy, and_assoc]
  refine and_congr_left' ?_
  cases hown : t.members.find? (isMembership workspaceId agentId m) with
  | none =>
    simp only [Option.all_none, true_iff]
    intro own hmem hmembership
    exact absurd hmembership (find?_eq_none.mp hown own hmem)
  | some own =>
    obtain ⟨hmem, hmembership⟩ := (find?_eq_some_iff (single_membership h)).mp hown
    simp only [Option.all_some, Option.any_some, decide_eq_true_eq, ← boundary_eq]
    constructor
    · intro habove own' hmem' hmembership'
      rwa [single_membership h own' hmem' hmembership' own hmem hmembership]
    · intro hall
      exact hall own hmem hmembership

lemma message_of_unreadRow {row : UnreadRow} (h : unreadRow t workspaceId agentId m = some row) :
    row.message = m := by
  obtain ⟨c, -, h⟩ := Option.bind_eq_some_iff.mp h
  simp only at h
  split_ifs at h
  cases h
  rfl

lemma mem_outer (h : t.Constraints) {rows : List Message} :
    m ∈ (outer t workspaceId agentId rows).map UnreadRow.message ↔
      m ∈ rows ∧ (unreadRow t workspaceId agentId m).isSome := by
  rw [outer_eq h, mem_map]
  constructor
  · rintro ⟨row, hrow, rfl⟩
    obtain ⟨m, hm, hsome⟩ := mem_filterMap.mp hrow
    rw [message_of_unreadRow hsome]
    exact ⟨hm, by rw [hsome]; rfl⟩
  · rintro ⟨hm, hsome⟩
    obtain ⟨row, hrow⟩ := Option.isSome_iff_exists.mp hsome
    exact ⟨row, mem_filterMap.mpr ⟨m, hm, hrow⟩, message_of_unreadRow hrow⟩

lemma nodup_outer (h : t.Constraints) {rows : List Message} (hnodup : rows.Nodup) :
    ((outer t workspaceId agentId rows).map UnreadRow.message).Nodup := by
  have hmap : (outer t workspaceId agentId rows).map UnreadRow.message =
      rows.filter fun m => (unreadRow t workspaceId agentId m).isSome := by
    rw [outer_eq h]
    clear hnodup
    induction rows with
    | nil => rfl
    | cons m rows ih =>
      cases hrow : unreadRow t workspaceId agentId m with
      | none => rw [filterMap_cons_none hrow, ih, filter_cons_of_neg (by rw [hrow]; simp)]
      | some row =>
        rw [filterMap_cons_some hrow, map_cons, ih, message_of_unreadRow hrow,
          filter_cons_of_pos (by rw [hrow]; rfl)]
  rw [hmap]
  exact hnodup.filter _

end Branches

end Coforge.AttentionRule
