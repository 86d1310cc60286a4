import Coforge.AttentionRule.Branches

/-!
# When the two readers agree

Of the messages that the outer rule selects, the narrowed branches leave out those of hidden
channels and those the Agent read as someone mentioned from outside. The scope of a send leaves out
the Agent's own messages instead, and nothing else. So the readers agree where there is no such
message.
-/

namespace Coforge.AttentionRule

open List

/-- The scope of a send above the Agent's stored boundary. -/
def freshnessScope (t : Tables) (agentId : Uuid) (c : Conversation) (root : Option Uuid) :
    AgentAttentionScope :=
  pendingScope t agentId c.id root c.channelName.isSome (some (readThrough t agentId c.id root))

/-- The messages the outer rule is about: those of the Agent's conversations, and those it was
notified of from outside. -/
def reached (t : Tables) (workspaceId agentId : Uuid) : List Message :=
  (t.messages.filter fun m => t.members.any (isMembership workspaceId agentId m)) ++
    notifiedOutside t workspaceId agentId

/-- The two readers select the same messages of every target of the Agent, and the branches select
what the outer rule says, each message once. -/
structure ReadersAgree (t : Tables) (workspaceId agentId : Uuid) : Prop where
  agree : ∀ own ∈ t.members, isActiveMember workspaceId agentId own → ∀ c ∈ t.conversations,
    c.id = own.conversationId → ∀ root m,
      m ∈ agentAttentionSource t (freshnessScope t agentId c root) ↔
        m ∈ (unreadAgentMessagesFragment t workspaceId agentId (some ⟨c.id, root⟩)).map
          UnreadRow.message
  narrowed : ∀ m, m ∈ (unreadAgentMessagesFragment t workspaceId agentId none).map
    UnreadRow.message ↔
      m ∈ (outer t workspaceId agentId (reached t workspaceId agentId)).map UnreadRow.message
  once : ((unreadAgentMessagesFragment t workspaceId agentId none).map UnreadRow.message).Nodup

/-- No message that is owed above the boundary of a membership of the Agent is the Agent's own, in
a hidden channel, or read already by the Agent as someone mentioned from outside. -/
def NothingApart (t : Tables) (workspaceId agentId : Uuid) : Prop :=
  ∀ m own c, Above t workspaceId agentId m own c → owedBy t agentId m c →
    m.senderMemberId ≠ some own.id ∧ keptOut t agentId m c = false

section Readers

variable {t : Tables} {workspaceId agentId : Uuid} {m : Message}

/-! ### The scope of a send -/

variable {own : ConversationMember}

lemma agentMember_eq (h : t.Constraints) (hown : own ∈ t.members)
    (hactive : isActiveMember workspaceId agentId own) :
    t.agentMember agentId own.conversationId = some own := by
  refine (Join.find?_eq_some_iff ?_).mpr ⟨hown, ?_⟩
  · intro x hx honx y hy hony
    obtain ⟨hconvx, hagentx⟩ := of_decide_eq_true honx
    obtain ⟨hconvy, hagenty⟩ := of_decide_eq_true hony
    exact h.member_agent x hx y hy (hconvx.trans hconvy.symm) (hagentx.trans hagenty.symm)
      (by rw [hagentx]; rfl)
  · exact decide_eq_true ⟨rfl, agentId_of_active hactive⟩

variable {c : Conversation}

lemma freshnessScope_eq (h : t.Constraints) (hown : own ∈ t.members)
    (hactive : isActiveMember workspaceId agentId own)
    (hid : c.id = own.conversationId) (root : Option Uuid) : freshnessScope t agentId c root =
      { agentId := agentId, conversationId := c.id, threadRootId := root
        isChannel := c.channelName.isSome, ownMemberId := some own.id
        afterSequence := some (t.boundary own root) } := by
  have hmember : t.agentMember agentId c.id = some own := by
    rw [hid]
    exact agentMember_eq h hown hactive
  simp only [freshnessScope, pendingScope, readThrough, hmember]
  rfl

lemma bounds_iff {scope : AgentAttentionScope} {after sequence : Nat}
    (hafter : scope.afterSequence = some after) (hown : scope.ownMemberId = some own.id)
    (hexclude : scope.excludeSequences = []) :
    scope.bounds sequence m ↔ after < sequence ∧ m.senderMemberId ≠ some own.id := by
  simp [AgentAttentionScope.bounds, AgentAttentionScope.excluded, hafter, hown, hexclude]

lemma mem_source (h : t.Constraints) {scope : AgentAttentionScope} :
    m ∈ agentAttentionSource t scope ↔ m ∈ t.messages ∧
      m.conversationId = scope.conversationId ∧ m.threadRootId = scope.threadRootId ∧
        scope.bounds m.sequence m ∧ (t.userSent m ∨ t.delivered scope.agentId m) ∧
          (scope.isChannel → t.delivered scope.agentId m) := by
  rw [agentAttentionSource]
  split_ifs with hreads
  · obtain ⟨hchannel, hroot⟩ := hreads
    simp only [mem_map, mem_filter, Prod.exists, mem_product, decide_eq_true_eq]
    constructor
    · rintro ⟨d, m, ⟨⟨hd, hm⟩, hmessage, htop, hagent, hconv, hbounds⟩, rfl⟩
      obtain ⟨hconvm, hseq⟩ := delivery_fields h hd hm hmessage.symm
      have hdelivered := delivered_iff.mpr ⟨d, hd, hmessage.symm, hagent⟩
      rw [hseq] at hbounds
      exact ⟨hm, hconvm.symm.trans hconv, htop.trans hroot.symm, hbounds, .inr hdelivered,
        fun _ => hdelivered⟩
    · rintro ⟨hm, hconv, htarget, hbounds, -, hdelivered⟩
      obtain ⟨d, hd, hmessage, hagent⟩ := delivered_iff.mp (hdelivered hchannel)
      obtain ⟨hconvm, hseq⟩ := delivery_fields h hd hm hmessage
      rw [← hseq] at hbounds
      exact ⟨d, m, ⟨⟨hd, hm⟩, hmessage.symm, htarget.trans hroot, hagent, hconvm.trans hconv,
        hbounds⟩, rfl⟩
  · rw [mem_filter, decide_eq_true_eq]

lemma mem_agentAttentionSource (h : t.Constraints)
    (hown : own ∈ t.members) (hactive : isActiveMember workspaceId agentId own)
    (hid : c.id = own.conversationId) (root : Option Uuid) :
    m ∈ agentAttentionSource t (freshnessScope t agentId c root) ↔
      m ∈ t.messages ∧ m.conversationId = c.id ∧ m.threadRootId = root ∧
        t.boundary own m.threadRootId < m.sequence ∧ owedBy t agentId m c ∧
        m.senderMemberId ≠ some own.id := by
  have howed : owedBy t agentId m c ↔ (t.userSent m ∨ t.delivered agentId m) ∧
      (c.channelName.isSome → t.delivered agentId m) := by
    rw [owedBy]
    cases c.channelName <;> simp
  have hbounds : (freshnessScope t agentId c root).bounds m.sequence m ↔
      t.boundary own root < m.sequence ∧ m.senderMemberId ≠ some own.id := by
    rw [freshnessScope_eq h hown hactive hid]
    exact bounds_iff rfl rfl rfl
  rw [mem_source h, hbounds, howed]
  constructor
  · rintro ⟨hm, hconv, htarget, ⟨habove, hother⟩, howes⟩
    have htarget : m.threadRootId = root := htarget
    rw [← htarget] at habove
    exact ⟨hm, hconv, htarget, habove, howes, hother⟩
  · rintro ⟨hm, hconv, htarget, habove, howes, hother⟩
    rw [htarget] at habove
    exact ⟨hm, hconv, htarget, ⟨habove, hother⟩, howes⟩

/-! ### The fragment -/

lemma mem_fragment {scope : Option Target} :
    m ∈ (unreadAgentMessagesFragment t workspaceId agentId scope).map UnreadRow.message ↔
      m ∈ (outer t workspaceId agentId (narrowed t workspaceId agentId)).map UnreadRow.message ∧
        scope.all fun target => target.holds m := by
  rw [unreadAgentMessagesFragment, mem_map, mem_map]
  constructor
  · rintro ⟨row, hrow, rfl⟩
    obtain ⟨hrow, hscope⟩ := mem_filter.mp hrow
    exact ⟨⟨row, hrow, rfl⟩, hscope⟩
  · rintro ⟨⟨row, hrow, rfl⟩, hscope⟩
    exact ⟨row, mem_filter.mpr ⟨hrow, hscope⟩, rfl⟩

lemma Above.kept (h : t.Constraints) (habove : Above t workspaceId agentId m own c) :
    (unreadRow t workspaceId agentId m).isSome ↔ owedBy t agentId m c := by
  rw [unreadRow_isSome h habove.conversation habove.id]
  refine ⟨fun hboth => hboth.2, fun howed => ⟨fun own' hown' hmembership => ?_, howed⟩⟩
  rw [single_membership h own' hown' hmembership own habove.member habove.membership]
  exact habove.above

lemma shown_iff (h : t.Constraints) (hown : own ∈ t.members)
    (hmembership : isMembership workspaceId agentId m own) :
    m ∈ (outer t workspaceId agentId (narrowed t workspaceId agentId)).map UnreadRow.message ↔
      ∃ c, Above t workspaceId agentId m own c ∧ owedBy t agentId m c ∧
        keptOut t agentId m c = false := by
  rw [mem_outer h, mem_narrowed h]
  constructor
  · rintro ⟨⟨own', c, habove, -, hkept⟩ | houtside, hrow⟩
    · have hsame := single_membership h own' habove.member habove.membership own hown hmembership
      subst hsame
      exact ⟨c, habove, (habove.kept h).mp hrow, hkept⟩
    · obtain ⟨hplace, hactive⟩ := isMembership_iff.mp hmembership
      obtain ⟨-, hagent, hleft⟩ := of_decide_eq_true hactive
      have hmember : isMemberOf t agentId m.conversationId :=
        any_eq_true.mpr ⟨own, hown, decide_eq_true ⟨hplace.symm, hagent, hleft⟩⟩
      rw [(mem_notifiedOutside.mp houtside).2.2.2] at hmember
      cases hmember
  · rintro ⟨c, habove, howed, hkept⟩
    refine ⟨.inl ⟨own, c, habove, fun hchannel => ?_, hkept⟩, (habove.kept h).mpr howed⟩
    rw [owedBy, decide_eq_false (Option.isSome_iff_ne_none.mp hchannel)] at howed
    exact (Bool.and_eq_true_iff.mp howed).2

/-- The rule selects a message of the Agent's conversations where it is owed above the boundary. -/
lemma ruled_iff (h : t.Constraints) (hown : own ∈ t.members)
    (hmembership : isMembership workspaceId agentId m own) :
    m ∈ (outer t workspaceId agentId (reached t workspaceId agentId)).map UnreadRow.message ↔
      ∃ c, Above t workspaceId agentId m own c ∧ owedBy t agentId m c := by
  rw [mem_outer h]
  obtain ⟨hplace, hactive⟩ := isMembership_iff.mp hmembership
  constructor
  · rintro ⟨hreached, hrow⟩
    have hm : m ∈ t.messages := by
      rcases mem_append.mp hreached with hin | houtside
      · exact (mem_filter.mp hin).1
      · exact (mem_notifiedOutside.mp houtside).1
    obtain ⟨c, hc, hid, -⟩ := h.message_conversation m hm
    obtain ⟨habove, howed⟩ := (unreadRow_isSome h hc hid).mp hrow
    exact ⟨c, ⟨hm, hown, hmembership, hc, hid, habove own hown hmembership⟩, howed⟩
  · rintro ⟨c, habove, howed⟩
    refine ⟨mem_append_left _ (mem_filter.mpr ⟨habove.message, ?_⟩), (habove.kept h).mpr howed⟩
    exact any_eq_true.mpr ⟨own, hown, hmembership⟩

/-- Where the Agent is no member, the fragment and the rule select from the same branch. -/
lemma outside_iff (h : t.Constraints) (houtside : ∀ own ∈ t.members,
      ¬isMembership workspaceId agentId m own) :
    m ∈ (outer t workspaceId agentId (narrowed t workspaceId agentId)).map UnreadRow.message ↔
      m ∈ (outer t workspaceId agentId (reached t workspaceId agentId)).map UnreadRow.message := by
  rw [mem_outer h, mem_outer h, mem_narrowed h, reached, mem_append, mem_filter, any_eq_true]
  refine and_congr_left' (or_congr_left ⟨?_, ?_⟩)
  · rintro ⟨own, c, habove, -⟩
    exact absurd habove.membership (houtside own habove.member)
  · rintro ⟨-, own, hown, hmembership⟩
    exact absurd hmembership (houtside own hown)

end Readers

/-- The two readers agree on a database, and the branches are the outer rule, exactly where no
message stands apart. -/
theorem readersAgree_iff (db : Database) (workspaceId agentId : Uuid) :
    ReadersAgree db.toTables workspaceId agentId ↔
      NothingApart db.toTables workspaceId agentId := by
  have h := db.constraints
  constructor
  · intro hagree m own c habove howed
    have hplace := isMembership_iff.mp habove.membership
    have hruled := (ruled_iff h habove.member habove.membership).mpr ⟨c, habove, howed⟩
    have hall := (hagree.narrowed m).mpr hruled
    have hshown := (mem_fragment.mp hall).1
    obtain ⟨c', habove', -, hkept⟩ := (shown_iff h habove.member habove.membership).mp hshown
    rw [(habove.unique h habove').2]
    refine ⟨?_, hkept⟩
    have hid : c.id = own.conversationId := habove.id.trans hplace.1
    have hfragment : m ∈ (unreadAgentMessagesFragment db.toTables workspaceId agentId
        (some ⟨c.id, m.threadRootId⟩)).map UnreadRow.message :=
      mem_fragment.mpr ⟨hshown, decide_eq_true ⟨habove.id.symm, rfl⟩⟩
    have hsource := (hagree.agree own habove.member hplace.2 c habove.conversation hid
      m.threadRootId m).mpr hfragment
    exact ((mem_agentAttentionSource h habove.member hplace.2 hid _).mp hsource).2.2.2.2.2
  · intro hapart
    refine ⟨fun own hown hactive c hc hid root m => ?_, fun m => ?_, ?_⟩
    · rw [mem_agentAttentionSource h hown hactive hid, mem_fragment]
      constructor
      · rintro ⟨hm, hconv, hroot, habove, howed, -⟩
        have hmembership := isMembership_iff.mpr ⟨hconv.trans hid, hactive⟩
        have hplace : Above db.toTables workspaceId agentId m own c :=
          ⟨hm, hown, hmembership, hc, hconv.symm, habove⟩
        refine ⟨(shown_iff h hown hmembership).mpr ⟨c, hplace, howed, ?_⟩,
          decide_eq_true ⟨hconv, hroot⟩⟩
        exact (hapart m own c hplace howed).2
      · rintro ⟨hshown, htarget⟩
        obtain ⟨hconv, hroot⟩ := of_decide_eq_true htarget
        have hmembership := isMembership_iff.mpr ⟨hconv.trans hid, hactive⟩
        obtain ⟨c', habove, howed, -⟩ := (shown_iff h hown hmembership).mp hshown
        have hc' : c' = c :=
          Join.eq_of_key h.conversation_id habove.conversation hc (habove.id.trans hconv)
        subst hc'
        exact ⟨habove.message, hconv, hroot, habove.above, howed, (hapart m own c' habove howed).1⟩
    · have hall : m ∈ (unreadAgentMessagesFragment db.toTables workspaceId agentId none).map
          UnreadRow.message ↔ m ∈ (outer db.toTables workspaceId agentId
            (narrowed db.toTables workspaceId agentId)).map UnreadRow.message := by
        rw [mem_fragment]
        exact and_iff_left rfl
      rw [hall]
      by_cases hmember : ∃ own ∈ db.members, isMembership workspaceId agentId m own
      · obtain ⟨own, hown, hmembership⟩ := hmember
        rw [shown_iff h hown hmembership, ruled_iff h hown hmembership]
        constructor
        · rintro ⟨c, habove, howed, -⟩
          exact ⟨c, habove, howed⟩
        · rintro ⟨c, habove, howed⟩
          exact ⟨c, habove, howed, (hapart m own c habove howed).2⟩
      · refine outside_iff h fun own hown hmembership => hmember ⟨own, hown, hmembership⟩
    · have hnone : unreadAgentMessagesFragment db.toTables workspaceId agentId none =
          outer db.toTables workspaceId agentId (narrowed db.toTables workspaceId agentId) :=
        filter_eq_self.mpr fun _ _ => rfl
      rw [hnone]
      exact nodup_outer h (nodup_narrowed h)

/-! ### A mention read before joining -/

def general : Conversation := ⟨1, 1, some "general", false⟩

def askedOutside : Message := ⟨20, 1, 1, some 10, 1, none⟩

/-- An Agent was notified of a message of a channel it was not in, read it, and was added to the
channel after. -/
def joinedAfterReading : Database where
  conversations := [general]
  members := [⟨10, 1, 1, some 100, none, 0, false⟩, ⟨11, 1, 1, none, some 7, 0, false⟩]
  messages := [askedOutside]
  deliveries := [⟨30, 20, 1, 7, 1⟩]
  mentionActions := [⟨40, 20, 1, 1, some 7, true, true⟩]
  constraints := {
    conversation_id := by decide
    member_id := by decide
    member_agent := by decide
    member_subject := by decide
    member_conversation := by decide
    message_id := by decide
    message_sequence := by decide
    message_conversation := by decide
    message_root := by
      intro m hm id hroot
      obtain rfl := List.mem_singleton.mp hm
      cases hroot
    delivery_id := by decide
    delivery_agent := by decide
    delivery_message := by decide
    mention_id := by decide
    mention_agent := by decide
    mention_message := by decide
    thread_read := by decide }

/-- A send to the channel is held for the message, and no drain shows it. -/
theorem joined_after_reading_apart : agentAttentionSource joinedAfterReading.toTables
        (freshnessScope joinedAfterReading.toTables 7 general none) = [askedOutside] ∧
      unreadAgentMessagesFragment joinedAfterReading.toTables 1 7 (some ⟨1, none⟩) = [] ∧
      ¬ReadersAgree joinedAfterReading.toTables 1 7 := by
  have hsource : agentAttentionSource joinedAfterReading.toTables
      (freshnessScope joinedAfterReading.toTables 7 general none) = [askedOutside] := by decide
  have hfragment : unreadAgentMessagesFragment joinedAfterReading.toTables 1 7
      (some ⟨1, none⟩) = [] := by decide
  refine ⟨hsource, hfragment, fun hagree => ?_⟩
  have hsame := hagree.agree ⟨11, 1, 1, none, some 7, 0, false⟩ (by decide) (by decide) general
    (by decide) rfl none askedOutside
  have htarget : (⟨general.id, none⟩ : Target) = ⟨1, none⟩ := rfl
  rw [hsource, htarget, hfragment] at hsame
  exact absurd (hsame.mp (by decide)) (by decide)

end Coforge.AttentionRule
