import Coforge.AttentionRule.Settling

/-!
# Pages while the tables change

What a drain or a read found stays true as boundaries move and messages arrive: a page of a drain
holds every owed message up to its newest row in each target, and a page of history that joins what
was read holds every owed message between the two boundaries.
-/

namespace Coforge.AttentionRule

open List

/-! ### Later tables -/

/-- Tables after a write or a new message. -/
structure Later (workspaceId agentId : Uuid) (t t' : Tables) : Prop where
  constraints : t'.Constraints
  conversations : t'.conversations = t.conversations
  messages : ∀ m ∈ t.messages, m ∈ t'.messages
  member : ∀ conversationId, IsMember t' workspaceId agentId conversationId ↔
    IsMember t workspaceId agentId conversationId
  memberId : ∀ conversationId, (t'.agentMember agentId conversationId).map ConversationMember.id =
    (t.agentMember agentId conversationId).map ConversationMember.id
  boundary : ∀ target, boundaryAt t agentId target ≤ boundaryAt t' agentId target
  owes : ∀ m ∈ t.messages, Owes t' workspaceId agentId m → Owes t workspaceId agentId m
  fresh : ∀ m ∈ t'.messages, m ∉ t.messages → ∀ x ∈ t.messages,
    x.conversationId = m.conversationId → x.sequence < m.sequence

/-- A read that found its member and its boundary. -/
structure Opened (t : Tables) (agentId : Uuid) (r : OpenedRead) : Prop where
  member : (t.agentMember agentId r.target.conversationId).map ConversationMember.id =
    some r.memberId
  channel : ∃ c ∈ t.conversations, c.id = r.target.conversationId ∧
    c.channelName.isSome = r.isChannel
  boundary : r.readThrough ≤ boundaryAt t agentId r.target

/-- A page that holds what is owed between the boundary its read found and the one it reports. -/
structure Joined (t : Tables) (workspaceId agentId : Uuid) (r : OpenedRead) (page : HistoryPage) :
    Prop where
  opened : Opened t agentId r
  newest : ∀ s, page.modelSeenUpToSeq = some s →
    ∃ m ∈ t.messages, m.target = r.target ∧ m.sequence = s
  covers : ∀ s, page.modelSeenUpToSeq = some s → ∀ m, Owes t workspaceId agentId m →
    m.target = r.target → r.readThrough < m.sequence → m.sequence ≤ s → m ∈ page.messages

section Later

variable {t t' : Tables} {workspaceId agentId : Uuid}

lemma Advances.later (h : Advances workspaceId agentId t t') (ht : t.Constraints) :
    Later workspaceId agentId t t' where
  constraints := h.constraints ht
  conversations := h.conversations
  messages m hm := by
    rw [h.messages]
    exact hm
  member := h.member
  memberId := h.memberId
  boundary := h.boundary
  owes _ _ howes := h.owes ht howes
  fresh m hm hnot := by
    rw [h.messages] at hm
    exact absurd hm hnot

/-- An owed message was there before, or comes after every earlier one of its conversation. -/
lemma Later.owed (h : Later workspaceId agentId t t') {m : Message}
    (howes : Owes t' workspaceId agentId m) : Owes t workspaceId agentId m ∨
      ∀ x ∈ t.messages, x.conversationId = m.conversationId → x.sequence < m.sequence := by
  by_cases hm : m ∈ t.messages
  · exact .inl (h.owes m hm howes)
  · exact .inr (h.fresh m ((owes_iff h.constraints).mp howes).1 hm)

lemma Covered.later {page : List UnreadRow} (hpage : Covered t workspaceId agentId page)
    (h : Later workspaceId agentId t t') : Covered t' workspaceId agentId page where
  message row hrow := h.messages _ (hpage.message row hrow)
  inside row hrow hin := (h.member _).mpr (hpage.inside row hrow hin)
  outside row hrow hout hmember := hpage.outside row hrow hout ((h.member _).mp hmember)
  covers m howes row hrow hin htarget hle := by
    rcases h.owed howes with howes | hfresh
    · exact hpage.covers m howes row hrow hin htarget hle
    · have hplace : row.message.conversationId = m.conversationId :=
        congrArg Target.conversationId htarget
      exact absurd (hfresh _ (hpage.message row hrow) hplace) (not_lt.mpr hle)

lemma Opened.later {r : OpenedRead} (hr : Opened t agentId r)
    (h : Later workspaceId agentId t t') : Opened t' agentId r where
  member := (h.memberId _).trans hr.member
  channel := by
    rw [h.conversations]
    exact hr.channel
  boundary := hr.boundary.trans (h.boundary _)

lemma Joined.later {r : OpenedRead} {page : HistoryPage}
    (hpage : Joined t workspaceId agentId r page) (h : Later workspaceId agentId t t') :
    Joined t' workspaceId agentId r page where
  opened := hpage.opened.later h
  newest s hs := by
    obtain ⟨m, hm, hnewest⟩ := hpage.newest s hs
    exact ⟨m, h.messages m hm, hnewest⟩
  covers s hs m howes htarget habove hle := by
    rcases h.owed howes with howes | hfresh
    · exact hpage.covers s hs m howes htarget habove hle
    · obtain ⟨x, hx, hxtarget, hsequence⟩ := hpage.newest s hs
      have hplace : x.conversationId = m.conversationId :=
        congrArg Target.conversationId (hxtarget.trans htarget.symm)
      have hlt := hfresh x hx hplace
      omega

end Later

/-! ### History pages -/

section Pages

variable {t : Tables} {workspaceId agentId : Uuid} {r : OpenedRead} {m : Message}

lemma openRead_spec {target : Target} {options : PageOptions}
    (h : openRead t agentId target options = some r) :
    ∃ c own, t.conversation target.conversationId = some c ∧
      t.agentMember agentId target.conversationId = some own ∧ r.target = target ∧
      r.options = options ∧ r.memberId = own.id ∧ r.isChannel = c.channelName.isSome ∧
      r.readThrough = t.boundary own target.threadRootId := by
  obtain ⟨c, hc, h⟩ := Option.bind_eq_some_iff.mp h
  obtain ⟨own, hown, h⟩ := Option.bind_eq_some_iff.mp h
  refine ⟨c, own, hc, hown, ?_⟩
  simp only at h
  cases hanchor : options.anchor with
  | none =>
    rw [hanchor] at h
    cases h
    exact ⟨rfl, rfl, rfl, rfl, rfl⟩
  | some anchor =>
    rw [hanchor] at h
    obtain ⟨m, -, h⟩ := Option.bind_eq_some_iff.mp h
    split_ifs at h
    cases h
    exact ⟨rfl, rfl, rfl, rfl, rfl⟩

lemma mem_of_conversation {id : Uuid} {c : Conversation} (h : t.conversation id = some c) :
    c ∈ t.conversations ∧ c.id = id := by
  rw [Tables.conversation] at h
  have hon := find?_some h
  exact ⟨mem_of_find?_eq_some h, of_decide_eq_true hon⟩

lemma opened_openRead {target : Target} {options : PageOptions}
    (h : openRead t agentId target options = some r) : Opened t agentId r := by
  obtain ⟨c, own, hc, hown, rfl, -, hmember, hchannel, hread⟩ := openRead_spec h
  obtain ⟨hin, hid⟩ := mem_of_conversation hc
  refine ⟨by rw [hown, hmember]; rfl, ⟨c, hin, hid, hchannel.symm⟩, ?_⟩
  rw [hread, boundaryAt, readThrough, hown]

lemma mem_scope (h : t.Constraints) (hr : Opened t agentId r)
    (howes : Owes t workspaceId agentId m) (htarget : m.target = r.target) :
    m ∈ r.scope t agentId := by
  obtain ⟨hm, c, hc, hid, howed, -⟩ := (owes_iff h).mp howes
  obtain ⟨c', hc', hid', hchannel⟩ := hr.channel
  have hplace : m.conversationId = r.target.conversationId := congrArg Target.conversationId htarget
  have hroot : m.threadRootId = r.target.threadRootId := congrArg Target.threadRootId htarget
  have hsame : c = c' :=
    Join.eq_of_key h.conversation_id hc hc' (hid.trans (hplace.trans hid'.symm))
  refine mem_filter.mpr ⟨hm, decide_eq_true ⟨decide_eq_true ⟨hplace, hroot⟩, fun hasked => ?_⟩⟩
  have hname : c.channelName.isSome := by
    rw [hsame, hchannel]
    exact hasked.1
  rw [owedBy, decide_eq_false (Option.isSome_iff_ne_none.mp hname)] at howed
  exact (Bool.and_eq_true_iff.mp howed).2

lemma mem_messages_of_scope (h : m ∈ r.scope t agentId) : m ∈ t.messages ∧ m.target = r.target := by
  obtain ⟨hm, hon⟩ := mem_filter.mp h
  obtain ⟨hplace, hroot⟩ := of_decide_eq_true (of_decide_eq_true hon).1
  exact ⟨hm, by rw [Message.target, hplace, hroot]⟩

lemma readPage_eq (h : ∀ s, r.anchor ≠ some (.around, s)) : readPage t agentId r =
    let rows := r.rows t agentId
    let hasMore : Bool := r.limit < rows.length
    let messages := ascending (rows.take r.limit)
    let hasOlder := if r.isAfter then true else if r.isBefore then hasMore else false
    { messages := messages
      hasOlder := hasOlder
      hasNewer := if r.isBefore then true else hasMore
      modelSeenUpToSeq := agentHistoryModelSeenBoundary r.anchor r.options.fromSequence
        r.readThrough (messages.head?.map Message.sequence)
        (messages.getLast?.map Message.sequence) hasOlder } := by
  rw [readPage]
  split
  case h_1 s hanchor => exact absurd hanchor (h s)
  case h_2 => rfl

lemma mem_page (hlt : m ∈ ascending ((r.rows t agentId).take r.limit)) :
    m ∈ r.scope t agentId ∧ r.asks m := by
  have hrows := mem_of_mem_take (mem_of_mem_take ((mem_insertionSort _).mp hlt))
  have hasked : m ∈ (r.scope t agentId).filter r.asks := by
    split_ifs at hrows
    · exact (mem_insertionSort _).mp hrows
    · exact (mem_insertionSort _).mp hrows
  exact mem_filter.mp hasked

/-- When a page joins what was read. -/
def Joins (anchor : Option (Anchor × Nat)) (readThrough : Nat) (messages : List Message)
    (hasOlder : Bool) : Prop :=
  match anchor with
  | none => True
  | some (.after, anchorSequence) => anchorSequence ≤ readThrough
  | some (.before, _) => hasOlder = false ∨ ∃ x ∈ messages, x.sequence ≤ readThrough
  | some (.around, _) => False

lemma modelSeen_spec {anchor : Option (Anchor × Nat)} {fromSequence : Option Nat}
    {readThrough s : Nat} {messages : List Message} {hasOlder : Bool}
    (h : agentHistoryModelSeenBoundary anchor fromSequence readThrough
      (messages.head?.map Message.sequence) (messages.getLast?.map Message.sequence) hasOlder =
        some s) : fromSequence = none ∧ (∃ y ∈ messages, y.sequence = s) ∧
      Joins anchor readThrough messages hasOlder := by
  unfold agentHistoryModelSeenBoundary at h
  by_cases hfrom : fromSequence.isSome
  · rw [if_pos hfrom] at h
    cases h
  rw [if_neg hfrom] at h
  refine ⟨Option.not_isSome_iff_eq_none.mp hfrom, ?_⟩
  cases hhead : messages.head? with
  | none =>
    rw [hhead] at h
    cases h
  | some x =>
    cases hlast : messages.getLast? with
    | none =>
      rw [hhead, hlast] at h
      cases h
    | some y =>
      rw [hhead, hlast] at h
      simp only [Option.map_some] at h
      have hx := mem_of_head? hhead
      have hy := mem_of_getLast? hlast
      match anchor, h with
      | none, h =>
        cases h
        exact ⟨⟨y, hy, rfl⟩, trivial⟩
      | some (.after, a), h =>
        simp only at h
        split_ifs at h with hjoins
        cases h
        have hafter : a ≤ readThrough := of_decide_eq_true hjoins
        exact ⟨⟨y, hy, rfl⟩, hafter⟩
      | some (.before, a), h =>
        simp only at h
        split_ifs at h with hjoins
        cases h
        refine ⟨⟨y, hy, rfl⟩, ?_⟩
        rcases Bool.or_eq_true_iff.mp hjoins with holder | hleast
        · exact .inl (by simpa using holder)
        · exact .inr ⟨x, hx, of_decide_eq_true hleast⟩
      | some (.around, a), h => cases h

/-- A page that joins asks for whatever lies between the boundary and its newest message. -/
lemma asks_of_joins {messages : List Message} {hasOlder : Bool} {y : Message}
    (hfrom : r.options.fromSequence = none)
    (hjoins : Joins r.anchor r.readThrough messages hasOlder) (hy : r.asks y)
    (habove : r.readThrough < m.sequence) (hle : m.sequence ≤ y.sequence) : r.asks m := by
  simp only [OpenedRead.asks, Bool.and_eq_true] at hy ⊢
  obtain ⟨⟨-, hthrough⟩, hanchored⟩ := hy
  refine ⟨⟨?_, ?_⟩, ?_⟩
  · rw [OpenedRead.effectiveFrom, hfrom]
    split_ifs
    · rfl
    · exact decide_eq_true habove
  · cases hlimit : r.options.throughSequence with
    | none => rfl
    | some through =>
      rw [hlimit, Option.all_some, decide_eq_true_eq] at hthrough
      exact decide_eq_true (hle.trans hthrough)
  · match hanchor : r.anchor with
    | none => rfl
    | some (.before, a) =>
      rw [hanchor] at hanchored
      have hbefore : y.sequence < a := of_decide_eq_true hanchored
      exact decide_eq_true (hle.trans_lt hbefore)
    | some (.after, a) =>
      rw [hanchor] at hjoins
      have hafter : a ≤ r.readThrough := hjoins
      exact decide_eq_true (hafter.trans_lt habove)
    | some (.around, a) => rfl

lemma pairwise_ascending (ms : List Message) :
    (ascending ms).Pairwise fun a b => a.sequence ≤ b.sequence := by
  have htotal : Std.Total fun a b : Message => a.sequence ≤ b.sequence :=
    ⟨fun a b => Nat.le_total a.sequence b.sequence⟩
  have htrans : IsTrans Message fun a b => a.sequence ≤ b.sequence := ⟨fun a b c => Nat.le_trans⟩
  exact pairwise_insertionSort _ ms

lemma pairwise_descending (ms : List Message) :
    (descending ms).Pairwise fun a b => b.sequence ≤ a.sequence := by
  have htotal : Std.Total fun a b : Message => b.sequence ≤ a.sequence :=
    ⟨fun a b => Nat.le_total b.sequence a.sequence⟩
  have htrans : IsTrans Message fun a b => b.sequence ≤ a.sequence :=
    ⟨fun a b c hab hbc => Nat.le_trans hbc hab⟩
  exact pairwise_insertionSort _ ms

lemma modelSeen_around {s : Nat} (h : r.anchor = some (.around, s)) :
    (readPage t agentId r).modelSeenUpToSeq = none := by
  rw [readPage, h]
  rfl

lemma anchor_of_isBefore (h : r.isBefore) : ∃ a, r.anchor = some (.before, a) := by
  rw [OpenedRead.isBefore, Option.any_eq_true] at h
  obtain ⟨⟨kind, a⟩, hanchor, hkind⟩ := h
  obtain rfl : kind = .before := of_decide_eq_true hkind
  exact ⟨a, hanchor⟩

/-- A page holds what is in its scope between the boundary its read found and the one it
reports. -/
theorem mem_page_of_scope (h : t.Constraints) {s : Nat}
    (hs : (readPage t agentId r).modelSeenUpToSeq = some s) (hscope : m ∈ r.scope t agentId)
    (habove : r.readThrough < m.sequence) (hle : m.sequence ≤ s) :
    m ∈ (readPage t agentId r).messages := by
  have haround : ∀ a, r.anchor ≠ some (.around, a) := by
    intro a hanchor
    rw [modelSeen_around hanchor] at hs
    cases hs
  rw [readPage_eq haround] at hs ⊢
  obtain ⟨hfrom, ⟨y, hy, hsequence⟩, hjoins⟩ := modelSeen_spec hs
  obtain ⟨hyscope, hyasks⟩ := mem_page hy
  have hasked : m ∈ (r.scope t agentId).filter r.asks :=
    mem_filter.mpr ⟨hscope, asks_of_joins hfrom hjoins hyasks habove (by omega)⟩
  refine (mem_insertionSort _).mpr ?_
  have hy := (mem_insertionSort _).mp hy
  by_cases hbefore : r.isBefore
  · obtain ⟨a, hanchor⟩ := anchor_of_isBefore hbefore
    have hafter : r.isAfter = false := by
      rw [OpenedRead.isAfter, hanchor]
      rfl
    simp only [hanchor, hafter, hbefore, if_true, Bool.false_eq_true, if_false, Joins] at hjoins
    rw [OpenedRead.rows, if_pos hbefore] at hjoins ⊢
    rw [Page.take_take_succ] at hjoins ⊢
    have hin := (mem_insertionSort fun a b : Message => b.sequence ≤ a.sequence).mpr hasked
    rcases hjoins with holder | ⟨x, hx, hread⟩
    · rw [decide_eq_false_iff_not, not_lt] at holder
      rw [Page.take_eq_of_length_le holder]
      exact hin
    · have hx := (mem_insertionSort _).mp hx
      exact Page.mem_take_of_not_rel (pairwise_descending _) hin hx (by omega)
  · rw [OpenedRead.rows, if_neg hbefore, Page.take_take_succ] at hy ⊢
    have hin := (mem_insertionSort fun a b : Message => a.sequence ≤ b.sequence).mpr hasked
    obtain ⟨hym, hytarget⟩ := mem_messages_of_scope hyscope
    obtain ⟨hm, htarget⟩ := mem_messages_of_scope hscope
    rcases Nat.lt_or_eq_of_le (show m.sequence ≤ y.sequence by omega) with hlt | hsame
    · exact Page.mem_take_of_not_rel (pairwise_ascending _) hin hy (by omega)
    · have hplace : m.conversationId = y.conversationId :=
        congrArg Target.conversationId (htarget.trans hytarget.symm)
      rw [Join.eq_of_key h.message_sequence hm hym (Prod.ext hplace hsame)]
      exact hy

lemma newest_of_modelSeen {s : Nat} (hs : (readPage t agentId r).modelSeenUpToSeq = some s) :
    ∃ m ∈ t.messages, m.target = r.target ∧ m.sequence = s := by
  have haround : ∀ a, r.anchor ≠ some (.around, a) := by
    intro a hanchor
    rw [modelSeen_around hanchor] at hs
    cases hs
  rw [readPage_eq haround] at hs
  obtain ⟨-, ⟨y, hy, hsequence⟩, -⟩ := modelSeen_spec hs
  obtain ⟨hscope, -⟩ := mem_page hy
  obtain ⟨hm, htarget⟩ := mem_messages_of_scope hscope
  exact ⟨y, hm, htarget, hsequence⟩

/-- A page holds what is owed between the boundary its read found and the one it reports. -/
theorem joined_readPage (h : t.Constraints) (hr : Opened t agentId r) :
    Joined t workspaceId agentId r (readPage t agentId r) := by
  refine ⟨hr, fun s hs => newest_of_modelSeen hs, fun s hs m howes htarget habove hle => ?_⟩
  exact mem_page_of_scope h hs (mem_scope h hr howes htarget) habove hle

end Pages

end Coforge.AttentionRule
