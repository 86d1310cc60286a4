import Coforge.AttentionRule.Agreement
import Coforge.AttentionRule.Drains
import Coforge.Lib.Page

/-!
# What the writes do to the boundaries

A message is owed where the unread fragment selects it. A write of a drain or a history read moves
boundaries up and marks mentions as read, and changes nothing else a reader looks at; so it makes no
message owed, and a message that stops being owed is one the boundary passed or that was marked.
-/

namespace Coforge.AttentionRule

open List Tables

section Owed

variable (t : Tables) (workspaceId agentId : Uuid)

/-- The Agent owes attention to the message. -/
def Owes (m : Message) : Prop :=
  m ∈ (unreadAgentMessagesFragment t workspaceId agentId none).map UnreadRow.message

/-- The Agent has an active membership in the conversation. -/
def IsMember (conversationId : Uuid) : Prop :=
  ∃ own ∈ t.members, own.conversationId = conversationId ∧ isActiveMember workspaceId agentId own

/-- The Agent was notified of the message from outside, and has not read it. -/
def Unread (m : Message) : Prop :=
  ∃ a ∈ t.mentionActions, a.messageId = m.id ∧ a.workspaceId = workspaceId ∧
    a.targetAgentId = some agentId ∧ a.notified ∧ a.targetRead = false

/-- The Agent's boundary at a target. -/
def boundaryAt (target : Target) : Nat :=
  readThrough t agentId target.conversationId target.threadRootId

end Owed

def Message.target (m : Message) : Target := ⟨m.conversationId, m.threadRootId⟩

section Readers

variable {t : Tables} {workspaceId agentId : Uuid} {m : Message}

lemma boundaryAt_eq (h : t.Constraints) {own : ConversationMember} (hown : own ∈ t.members)
    (hactive : isActiveMember workspaceId agentId own) (root : Option Uuid) :
    boundaryAt t agentId ⟨own.conversationId, root⟩ = t.boundary own root := by
  simp only [boundaryAt, readThrough, agentMember_eq h hown hactive]

lemma agentMember_some {conversationId : Uuid} {own : ConversationMember}
    (h : t.agentMember agentId conversationId = some own) :
    own ∈ t.members ∧ own.conversationId = conversationId ∧ own.agentId = some agentId := by
  rw [agentMember] at h
  have hon := find?_some h
  exact ⟨mem_of_find?_eq_some h, of_decide_eq_true hon⟩

/-- What is owed, by what the writes change. -/
theorem owes_iff (h : t.Constraints) : Owes t workspaceId agentId m ↔ m ∈ t.messages ∧
    ∃ c ∈ t.conversations, c.id = m.conversationId ∧ owedBy t agentId m c ∧
      (IsMember t workspaceId agentId m.conversationId ∧
          boundaryAt t agentId m.target < m.sequence ∧ keptOut t agentId m c = false ∨
        Unread t workspaceId agentId m ∧ c.hiddenFromWorkspace = false ∧
          isMemberOf t agentId m.conversationId = false) := by
  have hmember : ∀ {own}, own ∈ t.members → isMembership workspaceId agentId m own →
      boundaryAt t agentId m.target = t.boundary own m.threadRootId := by
    intro own hown hmembership
    obtain ⟨hplace, hactive⟩ := isMembership_iff.mp hmembership
    rw [Message.target, hplace]
    exact boundaryAt_eq h hown hactive _
  rw [Owes, mem_fragment, Option.all_none, and_iff_left rfl, mem_outer h, mem_narrowed h]
  constructor
  · rintro ⟨⟨own, c, habove, -, hkept⟩ | houtside, hrow⟩
    · obtain ⟨hplace, hactive⟩ := isMembership_iff.mp habove.membership
      refine ⟨habove.message, c, habove.conversation, habove.id, (habove.kept h).mp hrow, .inl
        ⟨⟨own, habove.member, hplace.symm, hactive⟩, ?_, hkept⟩⟩
      rw [hmember habove.member habove.membership]
      exact habove.above
    · obtain ⟨hm, hunread, ⟨c, hc, hid, hvisible⟩, houtside⟩ := mem_notifiedOutside.mp houtside
      exact ⟨hm, c, hc, hid, ((unreadRow_isSome h hc hid).mp hrow).2, .inr
        ⟨hunread, hvisible, houtside⟩⟩
  · rintro ⟨hm, c, hc, hid, howed, ⟨⟨own, hown, hplace, hactive⟩, habove, hkept⟩ |
      ⟨hunread, hvisible, houtside⟩⟩
    · have hmembership := isMembership_iff.mpr ⟨hplace.symm, hactive⟩
      rw [hmember hown hmembership] at habove
      have hplaced : Above t workspaceId agentId m own c := ⟨hm, hown, hmembership, hc, hid, habove⟩
      refine ⟨.inl ⟨own, c, hplaced, fun hchannel => ?_, hkept⟩, (hplaced.kept h).mpr howed⟩
      rw [owedBy, decide_eq_false (Option.isSome_iff_ne_none.mp hchannel)] at howed
      exact (Bool.and_eq_true_iff.mp howed).2
    · refine ⟨.inr (mem_notifiedOutside.mpr ⟨hm, hunread, ⟨c, hc, hid, hvisible⟩, houtside⟩),
        (unreadRow_isSome h hc hid).mpr ⟨fun own hown hmembership => ?_, howed⟩⟩
      obtain ⟨hplace, hactive⟩ := isMembership_iff.mp hmembership
      obtain ⟨-, hagent, hleft⟩ := of_decide_eq_true hactive
      have hmember : isMemberOf t agentId m.conversationId :=
        any_eq_true.mpr ⟨own, hown, decide_eq_true ⟨hplace.symm, hagent, hleft⟩⟩
      rw [houtside] at hmember
      cases hmember

end Readers

/-! ### Writes -/

/-- What the writes of a drain or a read do, as far as the readers see. -/
structure Advances (workspaceId agentId : Uuid) (t t' : Tables) : Prop where
  conversations : t'.conversations = t.conversations
  messages : t'.messages = t.messages
  deliveries : t'.deliveries = t.deliveries
  userSent : ∀ m, t'.userSent m = t.userSent m
  member : ∀ conversationId, IsMember t' workspaceId agentId conversationId ↔
    IsMember t workspaceId agentId conversationId
  memberOf : ∀ conversationId, isMemberOf t' agentId conversationId =
    isMemberOf t agentId conversationId
  memberId : ∀ conversationId, (t'.agentMember agentId conversationId).map ConversationMember.id =
    (t.agentMember agentId conversationId).map ConversationMember.id
  boundary : ∀ target, boundaryAt t agentId target ≤ boundaryAt t' agentId target
  read : ∀ messageId, t.readAsNonMember agentId messageId → t'.readAsNonMember agentId messageId
  unread : ∀ m, Unread t' workspaceId agentId m → Unread t workspaceId agentId m
  constraints : t.Constraints → t'.Constraints

namespace Advances

variable {workspaceId agentId : Uuid} {t t' t'' : Tables} {m : Message}

lemma refl (t : Tables) : Advances workspaceId agentId t t :=
  ⟨rfl, rfl, rfl, fun _ => rfl, fun _ => Iff.rfl, fun _ => rfl, fun _ => rfl, fun _ => le_rfl,
    fun _ h => h, fun _ h => h, fun h => h⟩

lemma trans (h : Advances workspaceId agentId t t') (h' : Advances workspaceId agentId t' t'') :
    Advances workspaceId agentId t t'' where
  conversations := h'.conversations.trans h.conversations
  messages := h'.messages.trans h.messages
  deliveries := h'.deliveries.trans h.deliveries
  userSent m := (h'.userSent m).trans (h.userSent m)
  member conversationId := (h'.member conversationId).trans (h.member conversationId)
  memberOf conversationId := (h'.memberOf conversationId).trans (h.memberOf conversationId)
  memberId conversationId := (h'.memberId conversationId).trans (h.memberId conversationId)
  boundary target := (h.boundary target).trans (h'.boundary target)
  read messageId hread := h'.read messageId (h.read messageId hread)
  unread m hunread := h.unread m (h'.unread m hunread)
  constraints hconstraints := h'.constraints (h.constraints hconstraints)

lemma delivered (h : Advances workspaceId agentId t t') : t'.delivered agentId m =
    t.delivered agentId m := by
  rw [Tables.delivered, Tables.delivered, h.deliveries]

lemma owedBy (h : Advances workspaceId agentId t t') (c : Conversation) :
    owedBy t' agentId m c = owedBy t agentId m c := by
  rw [AttentionRule.owedBy, AttentionRule.owedBy, h.delivered, h.userSent]

lemma keptOut (h : Advances workspaceId agentId t t') {c : Conversation}
    (hkept : keptOut t' agentId m c = false) : keptOut t agentId m c = false := by
  by_contra hbefore
  rw [Bool.not_eq_false] at hbefore
  have hafter : AttentionRule.keptOut t' agentId m c := by
    simp only [AttentionRule.keptOut, Bool.and_eq_true, Bool.or_eq_true] at hbefore ⊢
    exact ⟨hbefore.1, hbefore.2.imp_right (h.read m.id)⟩
  rw [hkept] at hafter
  cases hafter

lemma owes (h : Advances workspaceId agentId t t') (ht : t.Constraints)
    (howes : Owes t' workspaceId agentId m) : Owes t workspaceId agentId m := by
  obtain ⟨hm, c, hc, hid, howed, hcases⟩ := (owes_iff (h.constraints ht)).mp howes
  rw [h.messages] at hm
  rw [h.conversations] at hc
  rw [h.owedBy] at howed
  refine (owes_iff ht).mpr ⟨hm, c, hc, hid, howed, ?_⟩
  rcases hcases with ⟨hmember, habove, hkept⟩ | ⟨hunread, hvisible, houtside⟩
  · exact .inl ⟨(h.member _).mp hmember, (h.boundary _).trans_lt habove, h.keptOut hkept⟩
  · rw [h.memberOf] at houtside
    exact .inr ⟨h.unread m hunread, hvisible, houtside⟩

lemma keeps (h : Advances workspaceId agentId t t') (ht : t.Constraints)
    (howes : Owes t workspaceId agentId m) (hboundary : boundaryAt t agentId m.target < m.sequence →
      boundaryAt t' agentId m.target < m.sequence)
    (hread : t'.readAsNonMember agentId m.id → t.readAsNonMember agentId m.id)
    (hunread : Unread t workspaceId agentId m → Unread t' workspaceId agentId m) :
    Owes t' workspaceId agentId m := by
  obtain ⟨hm, c, hc, hid, howed, hcases⟩ := (owes_iff ht).mp howes
  refine (owes_iff (h.constraints ht)).mpr ⟨?_, c, ?_, hid, ?_, ?_⟩
  · rw [h.messages]
    exact hm
  · rw [h.conversations]
    exact hc
  · rw [h.owedBy]
    exact howed
  rcases hcases with ⟨hmember, habove, hkept⟩ | ⟨hunreadm, hvisible, houtside⟩
  · refine .inl ⟨(h.member _).mpr hmember, hboundary habove, ?_⟩
    by_contra hafter
    rw [Bool.not_eq_false, AttentionRule.keptOut, Bool.and_eq_true, Bool.or_eq_true] at hafter
    have hbefore : AttentionRule.keptOut t agentId m c := by
      rw [AttentionRule.keptOut, Bool.and_eq_true, Bool.or_eq_true]
      exact ⟨hafter.1, hafter.2.imp_right hread⟩
    rw [hkept] at hbefore
    cases hbefore
  · refine .inr ⟨hunread hunreadm, hvisible, ?_⟩
    rw [h.memberOf]
    exact houtside

end Advances

/-! ### The top level -/

section TopLevel

variable {t : Tables} {workspaceId agentId conversationId : Uuid} {sequence : Nat}

/-- What the update makes of a membership. -/
def raised (agentId conversationId : Uuid) (sequence : Nat) (a : ConversationMember) :
    ConversationMember :=
  if a.conversationId = conversationId ∧ a.agentId = some agentId ∧
      a.agentReadThroughSequence < sequence then
    { a with agentReadThroughSequence := sequence }
  else a

lemma raised_eq (a : ConversationMember) : ∃ n, a.agentReadThroughSequence ≤ n ∧
    raised agentId conversationId sequence a = { a with agentReadThroughSequence := n } := by
  rw [raised]
  split_ifs with hbelow
  · exact ⟨sequence, hbelow.2.2.le, rfl⟩
  · exact ⟨a.agentReadThroughSequence, le_rfl, rfl⟩

@[simp] lemma raised_id (a : ConversationMember) :
    (raised agentId conversationId sequence a).id = a.id := by
  obtain ⟨n, -, heq⟩ := raised_eq a
  rw [heq]

@[simp] lemma raised_conversationId (a : ConversationMember) :
    (raised agentId conversationId sequence a).conversationId = a.conversationId := by
  obtain ⟨n, -, heq⟩ := raised_eq a
  rw [heq]

@[simp] lemma raised_workspaceId (a : ConversationMember) :
    (raised agentId conversationId sequence a).workspaceId = a.workspaceId := by
  obtain ⟨n, -, heq⟩ := raised_eq a
  rw [heq]

@[simp] lemma raised_userId (a : ConversationMember) :
    (raised agentId conversationId sequence a).userId = a.userId := by
  obtain ⟨n, -, heq⟩ := raised_eq a
  rw [heq]

@[simp] lemma raised_agentId (a : ConversationMember) :
    (raised agentId conversationId sequence a).agentId = a.agentId := by
  obtain ⟨n, -, heq⟩ := raised_eq a
  rw [heq]

@[simp] lemma raised_left (a : ConversationMember) :
    (raised agentId conversationId sequence a).left = a.left := by
  obtain ⟨n, -, heq⟩ := raised_eq a
  rw [heq]

lemma members_advanceTopLevel : (advanceTopLevel t agentId conversationId sequence).members =
    t.members.map (raised agentId conversationId sequence) := rfl

lemma agentMember_advanceTopLevel (id : Uuid) :
    (advanceTopLevel t agentId conversationId sequence).agentMember agentId id =
      (t.agentMember agentId id).map (raised agentId conversationId sequence) := by
  rw [agentMember, agentMember, members_advanceTopLevel, find?_map]
  simp only [Function.comp_def, raised_conversationId, raised_agentId]

/-- The boundary of the conversation's top level goes up to the sequence, and no other moves. -/
lemma boundaryAt_advanceTopLevel (target : Target) :
    boundaryAt (advanceTopLevel t agentId conversationId sequence) agentId target =
      if target = ⟨conversationId, none⟩ ∧ (t.agentMember agentId conversationId).isSome then
        max (boundaryAt t agentId target) sequence else boundaryAt t agentId target := by
  obtain ⟨id, root⟩ := target
  simp only [boundaryAt, readThrough, agentMember_advanceTopLevel, Target.mk.injEq]
  cases hown : t.agentMember agentId id with
  | none =>
    simp only [Option.map_none]
    split_ifs with htarget
    · rw [htarget.1.1] at hown
      rw [hown] at htarget
      exact absurd htarget.2 (by simp)
    · rfl
  | some own =>
    obtain ⟨-, hplace, hagent⟩ := agentMember_some hown
    simp only [Option.map_some]
    cases root with
    | some rootId =>
      rw [if_neg (by simp)]
      simp only [boundary, raised_id]
      rfl
    | none =>
      simp only [boundary, raised, hagent, hplace, true_and, and_true]
      by_cases hid : id = conversationId
      · subst hid
        simp only [true_and, hown, Option.isSome_some, if_true]
        split_ifs with hlt
        · exact (max_eq_right hlt.le).symm
        · exact (max_eq_left (not_lt.mp hlt)).symm
      · simp only [hid, false_and, if_false]

theorem advances_advanceTopLevel :
    Advances workspaceId agentId t (advanceTopLevel t agentId conversationId sequence) where
  conversations := rfl
  messages := rfl
  deliveries := rfl
  userSent m := by
    rw [userSent, userSent, members_advanceTopLevel, any_map]
    simp only [Function.comp_def, raised_id, raised_userId]
  member id := by
    simp only [IsMember, members_advanceTopLevel, mem_map]
    constructor
    · rintro ⟨-, ⟨own, hown, rfl⟩, hplace, hactive⟩
      simp only [isActiveMember, raised_conversationId, raised_workspaceId, raised_agentId,
        raised_left] at hplace hactive
      exact ⟨own, hown, hplace, hactive⟩
    · rintro ⟨own, hown, hplace, hactive⟩
      refine ⟨_, ⟨own, hown, rfl⟩, ?_⟩
      simp only [isActiveMember, raised_conversationId, raised_workspaceId, raised_agentId,
        raised_left]
      exact ⟨hplace, hactive⟩
  memberOf id := by
    rw [isMemberOf, isMemberOf, members_advanceTopLevel, any_map]
    simp only [Function.comp_def, raised_conversationId, raised_agentId, raised_left]
  memberId id := by
    rw [agentMember_advanceTopLevel, Option.map_map]
    congr 1
    funext a
    exact raised_id a
  boundary target := by
    rw [boundaryAt_advanceTopLevel]
    split_ifs
    · exact le_max_left _ _
    · exact le_rfl
  read _ hread := hread
  unread _ hunread := hunread
  constraints h := by
    have hmap : ∀ {a}, a ∈ (advanceTopLevel t agentId conversationId sequence).members →
        ∃ b ∈ t.members, raised agentId conversationId sequence b = a := by
      intro a ha
      rw [members_advanceTopLevel] at ha
      exact mem_map.mp ha
    exact { h with
      member_id := by
        rw [members_advanceTopLevel, map_map]
        have hid : ConversationMember.id ∘ raised agentId conversationId sequence =
            ConversationMember.id := by
          funext a
          exact raised_id a
        rw [hid]
        exact h.member_id
      member_agent := by
        intro a ha b hb hplace hagent hsome
        obtain ⟨x, hx, rfl⟩ := hmap ha
        obtain ⟨y, hy, rfl⟩ := hmap hb
        simp only [raised_conversationId, raised_agentId] at hplace hagent hsome
        rw [h.member_agent x hx y hy hplace hagent hsome]
      member_subject := by
        intro a ha
        obtain ⟨x, hx, rfl⟩ := hmap ha
        rw [raised_userId, raised_agentId]
        exact h.member_subject x hx
      member_conversation := by
        intro a ha
        obtain ⟨x, hx, rfl⟩ := hmap ha
        rw [raised_conversationId, raised_workspaceId]
        exact h.member_conversation x hx }

end TopLevel

/-! ### Threads -/

section Threads

variable {t : Tables} {workspaceId agentId memberId rootId : Uuid} {sequence : Nat}

/-- What the upsert makes of a row that is there. -/
def raisedRead (memberId rootId : Uuid) (sequence : Nat) (r : ThreadRead) : ThreadRead :=
  if r.memberId = memberId ∧ r.rootMessageId = rootId then
    { r with readThroughSequence := max r.readThroughSequence sequence }
  else r

@[simp] lemma raisedRead_memberId (r : ThreadRead) :
    (raisedRead memberId rootId sequence r).memberId = r.memberId := by
  rw [raisedRead]
  split_ifs <;> rfl

@[simp] lemma raisedRead_rootMessageId (r : ThreadRead) :
    (raisedRead memberId rootId sequence r).rootMessageId = r.rootMessageId := by
  rw [raisedRead]
  split_ifs <;> rfl

lemma threadRead_some {m root : Uuid} {r : ThreadRead} (h : t.threadRead m root = some r) :
    r.memberId = m ∧ r.rootMessageId = root := by
  rw [threadRead] at h
  have hon := find?_some h
  exact of_decide_eq_true hon

lemma threadSequence_advanceThreadRead (m root : Uuid) :
    threadSequence ((advanceThreadRead t memberId rootId sequence).threadRead m root) =
      if m = memberId ∧ root = rootId then max (threadSequence (t.threadRead m root)) sequence
      else threadSequence (t.threadRead m root) := by
  by_cases hthere : (t.threadRead memberId rootId).isSome
  · have hrow : (advanceThreadRead t memberId rootId sequence).threadRead m root =
        (t.threadRead m root).map (raisedRead memberId rootId sequence) := by
      have hrows : (advanceThreadRead t memberId rootId sequence).threadReads =
          t.threadReads.map (raisedRead memberId rootId sequence) := by
        simp only [advanceThreadRead]
        rw [if_pos hthere]
        rfl
      rw [threadRead, threadRead, hrows, find?_map]
      simp only [Function.comp_def, raisedRead_memberId, raisedRead_rootMessageId]
    rw [hrow]
    cases hfound : t.threadRead m root with
    | none =>
      rw [if_neg]
      · rfl
      · rintro ⟨rfl, rfl⟩
        rw [hfound] at hthere
        cases hthere
    | some r =>
      obtain ⟨hm, hroot⟩ := threadRead_some hfound
      simp only [Option.map_some, threadSequence, raisedRead, hm, hroot]
      split_ifs <;> rfl
  · have hnone : t.threadRead memberId rootId = none := Option.not_isSome_iff_eq_none.mp hthere
    have hrow : (advanceThreadRead t memberId rootId sequence).threadRead m root =
        (t.threadRead m root).or (if m = memberId ∧ root = rootId then
          some ⟨memberId, rootId, sequence⟩ else none) := by
      have hrows : (advanceThreadRead t memberId rootId sequence).threadReads =
          t.threadReads ++ [⟨memberId, rootId, sequence⟩] := by
        simp only [advanceThreadRead]
        rw [if_neg hthere]
      rw [threadRead, hrows, find?_append, ← threadRead, find?_singleton]
      congr 1
      by_cases hsame : m = memberId ∧ root = rootId
      · obtain ⟨rfl, rfl⟩ := hsame
        simp
      · rw [if_neg hsame, if_neg]
        rw [decide_eq_true_eq]
        rintro ⟨rfl, rfl⟩
        exact hsame ⟨rfl, rfl⟩
    rw [hrow]
    split_ifs with hsame
    · obtain ⟨rfl, rfl⟩ := hsame
      rw [hnone]
      simp [threadSequence]
    · rw [Option.or_none]

lemma agentMember_advanceThreadRead (id : Uuid) :
    (advanceThreadRead t memberId rootId sequence).agentMember agentId id =
      t.agentMember agentId id := rfl

lemma boundaryAt_advanceThreadRead (h : t.Constraints) {conversationId : Uuid}
    {member : ConversationMember} (hmember : t.agentMember agentId conversationId = some member)
    (target : Target) : boundaryAt (advanceThreadRead t member.id rootId sequence) agentId target =
      if target = ⟨conversationId, some rootId⟩ then max (boundaryAt t agentId target) sequence
      else boundaryAt t agentId target := by
  obtain ⟨id, root⟩ := target
  simp only [boundaryAt, readThrough, agentMember_advanceThreadRead, Target.mk.injEq]
  cases hown : t.agentMember agentId id with
  | none =>
    rw [if_neg]
    rintro ⟨rfl, -⟩
    rw [hown] at hmember
    cases hmember
  | some own =>
    obtain ⟨hin, hplace, -⟩ := agentMember_some hown
    obtain ⟨hin', hplace', -⟩ := agentMember_some hmember
    cases root with
    | none =>
      rw [if_neg (by simp)]
      rfl
    | some rootId' =>
      have hthread : threadSequence ((advanceThreadRead t member.id rootId sequence).threadRead
          own.id rootId') = if own.id = member.id ∧ rootId' = rootId then
            max (threadSequence (t.threadRead own.id rootId')) sequence
          else threadSequence (t.threadRead own.id rootId') :=
        threadSequence_advanceThreadRead own.id rootId'
      simp only [threadSequence] at hthread
      simp only [boundary, hthread, Option.some.injEq]
      have hsame : own.id = member.id ↔ id = conversationId := by
        constructor
        · intro heq
          rw [← hplace, ← hplace', Join.eq_of_key h.member_id hin hin' heq]
        · rintro rfl
          rw [Option.some.inj (hown.symm.trans hmember)]
      simp only [hsame]

theorem advances_advanceThreadRead (h : t.Constraints) {conversationId : Uuid}
    {member : ConversationMember} (hmember : t.agentMember agentId conversationId = some member) :
    Advances workspaceId agentId t (advanceThreadRead t member.id rootId sequence) where
  conversations := rfl
  messages := rfl
  deliveries := rfl
  userSent _ := rfl
  member _ := Iff.rfl
  memberOf _ := rfl
  memberId _ := rfl
  boundary target := by
    rw [boundaryAt_advanceThreadRead h hmember]
    split_ifs
    · exact le_max_left _ _
    · exact le_rfl
  read _ hread := hread
  unread _ hunread := hunread
  constraints h := by
    have hkeys : ((advanceThreadRead t member.id rootId sequence).threadReads.map
        fun r => (r.memberId, r.rootMessageId)).Nodup := by
      simp only [advanceThreadRead]
      split_ifs with hthere
      · have hsame : (t.threadReads.map (raisedRead member.id rootId sequence)).map
            (fun r => (r.memberId, r.rootMessageId)) =
              t.threadReads.map fun r => (r.memberId, r.rootMessageId) := by
          rw [map_map]
          simp only [Function.comp_def, raisedRead_memberId, raisedRead_rootMessageId]
        exact hsame ▸ h.thread_read
      · rw [map_append, nodup_append]
        refine ⟨h.thread_read, nodup_singleton _, ?_⟩
        intro x hx y hy heq
        obtain ⟨r, hr, rfl⟩ := mem_map.mp hx
        rw [map_singleton, mem_singleton] at hy
        rw [hy] at heq
        obtain ⟨hid, hroot⟩ := Prod.mk.inj heq
        exact hthere (find?_isSome.mpr ⟨r, hr, decide_eq_true ⟨hid, hroot⟩⟩)
    exact { h with thread_read := hkeys }

end Threads

/-! ### Marks -/

section Marks

variable {t : Tables} {workspaceId agentId : Uuid} {ids : List Uuid}

/-- What the mark makes of a mention. -/
def marked (workspaceId agentId : Uuid) (ids : List Uuid) (a : PendingMentionAction) :
    PendingMentionAction :=
  if a.workspaceId = workspaceId ∧ a.targetAgentId = some agentId ∧ a.messageId ∈ ids ∧
      a.notified ∧ a.targetRead = false then
    { a with targetRead := true }
  else a

@[simp] lemma marked_id (a : PendingMentionAction) :
    (marked workspaceId agentId ids a).id = a.id := by
  rw [marked]
  split_ifs <;> rfl

@[simp] lemma marked_messageId (a : PendingMentionAction) :
    (marked workspaceId agentId ids a).messageId = a.messageId := by
  rw [marked]
  split_ifs <;> rfl

@[simp] lemma marked_conversationId (a : PendingMentionAction) :
    (marked workspaceId agentId ids a).conversationId = a.conversationId := by
  rw [marked]
  split_ifs <;> rfl

@[simp] lemma marked_workspaceId (a : PendingMentionAction) :
    (marked workspaceId agentId ids a).workspaceId = a.workspaceId := by
  rw [marked]
  split_ifs <;> rfl

@[simp] lemma marked_targetAgentId (a : PendingMentionAction) :
    (marked workspaceId agentId ids a).targetAgentId = a.targetAgentId := by
  rw [marked]
  split_ifs <;> rfl

@[simp] lemma marked_notified (a : PendingMentionAction) :
    (marked workspaceId agentId ids a).notified = a.notified := by
  rw [marked]
  split_ifs <;> rfl

lemma targetRead_marked {a : PendingMentionAction} (h : a.targetRead) :
    (marked workspaceId agentId ids a).targetRead := by
  rw [marked]
  split_ifs
  · rfl
  · exact h

lemma mentionActions_markRead : (markRead t workspaceId agentId ids).mentionActions =
    t.mentionActions.map (marked workspaceId agentId ids) := rfl

lemma not_unread_markRead {m : Message} (h : m.id ∈ ids) :
    ¬Unread (markRead t workspaceId agentId ids) workspaceId agentId m := by
  rintro ⟨a, ha, hmessage, hworkspace, htarget, hnotified, hunread⟩
  rw [mentionActions_markRead] at ha
  obtain ⟨b, -, rfl⟩ := mem_map.mp ha
  rw [marked_messageId] at hmessage
  rw [marked_workspaceId] at hworkspace
  rw [marked_targetAgentId] at htarget
  rw [marked_notified] at hnotified
  rw [marked] at hunread
  split_ifs at hunread with hmarked
  refine hmarked ⟨hworkspace, htarget, ?_, hnotified, hunread⟩
  rw [hmessage]
  exact h

lemma unread_markRead {m : Message} (h : m.id ∉ ids) (hunread : Unread t workspaceId agentId m) :
    Unread (markRead t workspaceId agentId ids) workspaceId agentId m := by
  obtain ⟨a, ha, hmessage, hfields⟩ := hunread
  have hsame : marked workspaceId agentId ids a = a := by
    rw [marked, if_neg]
    rintro ⟨-, -, hin, -⟩
    rw [hmessage] at hin
    exact h hin
  refine ⟨a, ?_, hmessage, hfields⟩
  rw [mentionActions_markRead]
  exact mem_map.mpr ⟨a, ha, hsame⟩

lemma read_markRead {messageId : Uuid}
    (h : (markRead t workspaceId agentId ids).readAsNonMember agentId messageId) :
    t.readAsNonMember agentId messageId ∨ messageId ∈ ids := by
  rw [readAsNonMember, any_eq_true] at h
  obtain ⟨a, ha, hon⟩ := h
  obtain ⟨hmessage, htarget, hread⟩ := of_decide_eq_true hon
  rw [mentionActions_markRead] at ha
  obtain ⟨b, hb, rfl⟩ := mem_map.mp ha
  rw [marked_messageId] at hmessage
  rw [marked_targetAgentId] at htarget
  rw [marked] at hread
  split_ifs at hread with hmarked
  · right
    rw [← hmessage]
    exact hmarked.2.2.1
  · exact .inl (any_eq_true.mpr ⟨b, hb, decide_eq_true ⟨hmessage, htarget, hread⟩⟩)

theorem advances_markRead : Advances workspaceId agentId t (markRead t workspaceId agentId ids) where
  conversations := rfl
  messages := rfl
  deliveries := rfl
  userSent _ := rfl
  member _ := Iff.rfl
  memberOf _ := rfl
  memberId _ := rfl
  boundary _ := le_rfl
  read messageId hread := by
    rw [readAsNonMember, any_eq_true] at hread ⊢
    obtain ⟨a, ha, hon⟩ := hread
    obtain ⟨hmessage, htarget, hread⟩ := of_decide_eq_true hon
    refine ⟨marked workspaceId agentId ids a, mem_map_of_mem ha, decide_eq_true ?_⟩
    rw [marked_messageId, marked_targetAgentId]
    exact ⟨hmessage, htarget, targetRead_marked hread⟩
  unread m hunread := by
    obtain ⟨a, ha, hmessage, hworkspace, htarget, hnotified, hunread⟩ := hunread
    rw [mentionActions_markRead] at ha
    obtain ⟨b, hb, rfl⟩ := mem_map.mp ha
    rw [marked_messageId] at hmessage
    rw [marked_workspaceId] at hworkspace
    rw [marked_targetAgentId] at htarget
    rw [marked_notified] at hnotified
    refine ⟨b, hb, hmessage, hworkspace, htarget, hnotified, ?_⟩
    by_contra hbefore
    rw [Bool.not_eq_false] at hbefore
    rw [targetRead_marked hbefore] at hunread
    cases hunread
  constraints h := by
    have hmap : ∀ {a}, a ∈ (markRead t workspaceId agentId ids).mentionActions →
        ∃ b ∈ t.mentionActions, marked workspaceId agentId ids b = a := by
      intro a ha
      rw [mentionActions_markRead] at ha
      exact mem_map.mp ha
    exact { h with
      mention_id := by
        rw [mentionActions_markRead, map_map]
        have hid : PendingMentionAction.id ∘ marked workspaceId agentId ids =
            PendingMentionAction.id := by
          funext a
          exact marked_id a
        rw [hid]
        exact h.mention_id
      mention_agent := by
        intro a ha b hb hmessage htarget hsome
        obtain ⟨x, hx, rfl⟩ := hmap ha
        obtain ⟨y, hy, rfl⟩ := hmap hb
        simp only [marked_messageId, marked_targetAgentId] at hmessage htarget hsome
        rw [h.mention_agent x hx y hy hmessage htarget hsome]
      mention_message := by
        intro a ha
        obtain ⟨x, hx, rfl⟩ := hmap ha
        rw [marked_messageId, marked_conversationId, marked_workspaceId]
        exact h.mention_message x hx }

end Marks

end Coforge.AttentionRule
