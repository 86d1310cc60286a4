import Coforge.AttentionRule.Boundaries

/-!
# What a drain settles

As a drain commits, the boundary of each target of its page goes up to the newest row of the target
in the page, and the rows from outside are marked. A page that holds every owed message up to its
newest row in each target settles its own messages and no others.
-/

namespace Coforge.AttentionRule

open List

/-! ### The targets of a page -/

section Groups

variable {groups : List (Target × Nat)} {row : UnreadRow} {rows : List UnreadRow} {target : Target}
  {n : Nat}

/-- The group of a target reaches a sequence. -/
def Reaches (groups : List (Target × Nat)) (target : Target) (n : Nat) : Prop :=
  ∃ group, Keyed.find Prod.fst target groups = some group ∧ n ≤ group.2

lemma reaches_addToGroup_self : Reaches (addToGroup groups row) row.target row.message.sequence := by
  rw [addToGroup]
  cases hfound : Keyed.find Prod.fst row.target groups with
  | none =>
    refine ⟨(row.target, row.message.sequence), ?_, le_rfl⟩
    rw [Keyed.find_put, if_pos rfl]
  | some existing =>
    simp only
    split_ifs with hbelow
    · refine ⟨(row.target, row.message.sequence), ?_, le_rfl⟩
      rw [Keyed.find_put, if_pos rfl]
    · exact ⟨existing, hfound, not_lt.mp hbelow⟩

lemma Reaches.addToGroup (h : Reaches groups target n) (row : UnreadRow) :
    Reaches (addToGroup groups row) target n := by
  obtain ⟨group, hfind, hle⟩ := h
  rw [AttentionRule.addToGroup]
  cases hfound : Keyed.find Prod.fst row.target groups with
  | none =>
    refine ⟨group, ?_, hle⟩
    rw [Keyed.find_put, if_neg]
    · exact hfind
    · rintro hsame
      rw [show row.target = target from hsame] at hfound
      rw [hfound] at hfind
      cases hfind
  | some existing =>
    simp only
    split_ifs with hbelow
    · by_cases hsame : row.target = target
      · rw [hsame, hfind] at hfound
        obtain rfl := Option.some.inj hfound
        refine ⟨(row.target, row.message.sequence), ?_, hle.trans hbelow.le⟩
        rw [Keyed.find_put, if_pos hsame]
      · refine ⟨group, ?_, hle⟩
        rw [Keyed.find_put, if_neg hsame]
        exact hfind
    · exact ⟨group, hfind, hle⟩

lemma mem_addToGroup {group : Target × Nat} (h : group ∈ addToGroup groups row) :
    group = (row.target, row.message.sequence) ∨ group ∈ groups := by
  rw [addToGroup] at h
  cases hfound : Keyed.find Prod.fst row.target groups with
  | none =>
    rw [hfound] at h
    exact Keyed.mem_of_mem_put h
  | some existing =>
    rw [hfound] at h
    simp only at h
    split_ifs at h
    · exact Keyed.mem_of_mem_put h
    · exact .inr h

lemma reaches_foldl (h : Reaches groups target n) :
    Reaches (rows.foldl addToGroup groups) target n := by
  induction rows generalizing groups with
  | nil => exact h
  | cons row rows ih => exact ih (h.addToGroup row)

lemma foldl_reaches (h : row ∈ rows) :
    Reaches (rows.foldl addToGroup groups) row.target row.message.sequence := by
  induction rows generalizing groups with
  | nil => cases h
  | cons row' rows ih =>
    rcases mem_cons.mp h with rfl | h
    · rw [foldl_cons]
      exact reaches_foldl reaches_addToGroup_self
    · exact ih h

lemma mem_foldl {group : Target × Nat} (h : group ∈ rows.foldl addToGroup groups) :
    group ∈ groups ∨ ∃ row ∈ rows, row.target = group.1 ∧ row.message.sequence = group.2 := by
  induction rows generalizing groups with
  | nil => exact .inl h
  | cons row rows ih =>
    rcases ih h with hmem | ⟨row', hrow', heq⟩
    · rcases mem_addToGroup hmem with rfl | hmem
      · exact .inr ⟨row, mem_cons_self, rfl, rfl⟩
      · exact .inl hmem
    · exact .inr ⟨row', mem_cons_of_mem row hrow', heq⟩

/-- Every row that the Agent reads as a member is at or below the newest of its target. -/
lemma exists_group {page : List UnreadRow} (hrow : row ∈ page) (hin : row.nonMemberMention = false) :
    ∃ group ∈ targetGroups page, group.1 = row.target ∧ row.message.sequence ≤ group.2 := by
  have hfiltered : row ∈ page.filter fun row => !row.nonMemberMention :=
    mem_filter.mpr ⟨hrow, by rw [hin]; rfl⟩
  have hreaches : Reaches (targetGroups page) row.target row.message.sequence :=
    foldl_reaches hfiltered
  obtain ⟨group, hfind, hle⟩ := hreaches
  exact ⟨group, Keyed.mem_of_find hfind, Keyed.key_of_find hfind, hle⟩

lemma exists_row {page : List UnreadRow} {group : Target × Nat} (h : group ∈ targetGroups page) :
    ∃ row ∈ page, row.nonMemberMention = false ∧ row.target = group.1 ∧
      row.message.sequence = group.2 := by
  rcases mem_foldl h with hnone | ⟨row, hrow, htarget, hsequence⟩
  · cases hnone
  · obtain ⟨hrow, hin⟩ := mem_filter.mp hrow
    exact ⟨row, hrow, by simpa using hin, htarget, hsequence⟩

end Groups

/-! ### The boundaries of the targets -/

section Boundaries

variable {t t' : Tables} {workspaceId agentId : Uuid}

/-- What one update of a target does. -/
structure Raises (workspaceId agentId : Uuid) (t t' : Tables) (groups : List (Target × Nat)) :
    Prop where
  advances : Advances workspaceId agentId t t'
  mentionActions : t'.mentionActions = t.mentionActions
  only : ∀ target, boundaryAt t' agentId target = boundaryAt t agentId target ∨
    ∃ group ∈ groups, group.1 = target ∧ boundaryAt t' agentId target = group.2
  reaches : ∀ group ∈ groups, (t.agentMember agentId group.1.conversationId).isSome →
    group.2 ≤ boundaryAt t' agentId group.1

lemma raises_advanceTarget (h : t.Constraints) {group : Target × Nat}
    (hstep : advanceTarget agentId t group = some t') :
    Raises workspaceId agentId t t' [group] := by
  obtain ⟨⟨conversationId, root⟩, n⟩ := group
  have hmax : ∀ {a b : Nat}, a = max b n → a = b ∨ a = n := by omega
  rw [advanceTarget] at hstep
  cases root with
  | none =>
    cases hstep
    refine ⟨advances_advanceTopLevel, rfl, fun target => ?_, fun group hgroup hin => ?_⟩
    · rw [boundaryAt_advanceTopLevel]
      split_ifs with htarget
      · rcases hmax rfl with hsame | hnew
        · exact .inl hsame
        · exact .inr ⟨_, mem_singleton_self _, htarget.1.symm, hnew⟩
      · exact .inl rfl
    · obtain rfl := mem_singleton.mp hgroup
      rw [boundaryAt_advanceTopLevel, if_pos ⟨rfl, hin⟩]
      exact le_max_right _ _
  | some rootId =>
    obtain ⟨member, hmember, rfl⟩ := Option.map_eq_some_iff.mp hstep
    refine ⟨advances_advanceThreadRead h hmember, rfl, fun target => ?_, fun group hgroup hin => ?_⟩
    · rw [boundaryAt_advanceThreadRead h hmember]
      split_ifs with htarget
      · rcases hmax rfl with hsame | hnew
        · exact .inl hsame
        · exact .inr ⟨_, mem_singleton_self _, htarget.symm, hnew⟩
      · exact .inl rfl
    · obtain rfl := mem_singleton.mp hgroup
      rw [boundaryAt_advanceThreadRead h hmember, if_pos rfl]
      exact le_max_right _ _

lemma raises_foldlM {groups : List (Target × Nat)} (h : t.Constraints)
    (hfold : groups.foldlM (advanceTarget agentId) t = some t') :
    Raises workspaceId agentId t t' groups := by
  induction groups generalizing t with
  | nil =>
    cases hfold
    exact ⟨Advances.refl _, rfl, fun _ => .inl rfl, nofun⟩
  | cons group groups ih =>
    rw [foldlM_cons] at hfold
    obtain ⟨u, hstep, hfold⟩ := Option.bind_eq_some_iff.mp hfold
    have hone : Raises workspaceId agentId t u [group] := raises_advanceTarget h hstep
    have hrest := ih (hone.advances.constraints h) hfold
    refine ⟨hone.advances.trans hrest.advances, hrest.mentionActions.trans hone.mentionActions,
      fun target => ?_, fun g hg hin => ?_⟩
    · rcases hrest.only target with hsame | ⟨g, hg, htarget, hnew⟩
      · rcases hone.only target with hsame' | ⟨g, hg, htarget, hnew⟩
        · exact .inl (hsame.trans hsame')
        · obtain rfl := mem_singleton.mp hg
          exact .inr ⟨g, mem_cons_self, htarget, hsame.trans hnew⟩
      · exact .inr ⟨g, mem_cons_of_mem group hg, htarget, hnew⟩
    · rcases mem_cons.mp hg with rfl | hg
      · exact (hone.reaches g (mem_singleton_self g) hin).trans (hrest.advances.boundary g.1)
      · refine hrest.reaches g hg ?_
        rw [← Option.isSome_map, hone.advances.memberId, Option.isSome_map]
        exact hin

lemma exists_foldlM {groups : List (Target × Nat)}
    (h : ∀ group ∈ groups, (t.agentMember agentId group.1.conversationId).isSome) :
    ∃ t', groups.foldlM (advanceTarget agentId) t = some t' := by
  induction groups generalizing t with
  | nil => exact ⟨t, rfl⟩
  | cons group groups ih =>
    have hstep : ∃ u, advanceTarget agentId t group = some u ∧
        ∀ id, (u.agentMember agentId id).isSome = (t.agentMember agentId id).isSome := by
      rw [advanceTarget]
      cases group.1.threadRootId with
      | none =>
        refine ⟨_, rfl, fun id => ?_⟩
        rw [agentMember_advanceTopLevel, Option.isSome_map]
      | some rootId =>
        obtain ⟨member, hmember⟩ := Option.isSome_iff_exists.mp (h group mem_cons_self)
        exact ⟨advanceThreadRead t member.id rootId group.2, by rw [hmember]; rfl, fun id => rfl⟩
    obtain ⟨u, hu, hsame⟩ := hstep
    rw [foldlM_cons, hu]
    refine ih fun g hg => ?_
    rw [hsame]
    exact h g (mem_cons_of_mem group hg)

end Boundaries

/-! ### Pages -/

section Pages

variable {t t' : Tables} {workspaceId agentId : Uuid} {m : Message} {page : List UnreadRow}

/-- A page of rows that are what they say, and in each target hold every owed message up to the
newest row that the Agent reads as a member. -/
structure Covered (t : Tables) (workspaceId agentId : Uuid) (page : List UnreadRow) : Prop where
  message : ∀ row ∈ page, row.message ∈ t.messages
  inside : ∀ row ∈ page, row.nonMemberMention = false →
    IsMember t workspaceId agentId row.message.conversationId
  outside : ∀ row ∈ page, row.nonMemberMention → ¬IsMember t workspaceId agentId
    row.message.conversationId
  covers : ∀ m, Owes t workspaceId agentId m → ∀ row ∈ page, row.nonMemberMention = false →
    row.target = m.target → m.sequence ≤ row.message.sequence → m ∈ page.map UnreadRow.message

lemma agentMember_of_isMember (h : t.Constraints) {conversationId : Uuid}
    (hmember : IsMember t workspaceId agentId conversationId) :
    (t.agentMember agentId conversationId).isSome := by
  obtain ⟨own, hown, rfl, hactive⟩ := hmember
  rw [agentMember_eq h hown hactive]
  rfl

/-- The mentions that the drain marks. -/
def outsideIds (page : List UnreadRow) : List Uuid :=
  (page.filter UnreadRow.nonMemberMention).map fun row => row.message.id

lemma Covered.outsideIds (hpage : Covered t workspaceId agentId page) (h : t.Constraints)
    (hm : m ∈ t.messages) (hid : m.id ∈ outsideIds page) :
    ∃ row ∈ page, row.nonMemberMention ∧ row.message = m := by
  obtain ⟨row, hrow, hsame⟩ := mem_map.mp hid
  obtain ⟨hrow, hout⟩ := mem_filter.mp hrow
  exact ⟨row, hrow, hout, Join.eq_of_key h.message_id (hpage.message row hrow) hm hsame⟩

/-- The Agent is not a member of a row's conversation, or the row is no mention from outside. -/
lemma Covered.isMemberOf (hpage : Covered t workspaceId agentId page) {row : UnreadRow}
    (hrow : row ∈ page) (houtside : isMemberOf t agentId row.message.conversationId = false) :
    row.nonMemberMention := by
  by_contra hin
  rw [Bool.not_eq_true] at hin
  obtain ⟨own, hown, hplace, hactive⟩ := hpage.inside row hrow hin
  obtain ⟨-, hagent, hleft⟩ := of_decide_eq_true hactive
  have hmemberOf : AttentionRule.isMemberOf t agentId row.message.conversationId :=
    any_eq_true.mpr ⟨own, hown, decide_eq_true ⟨hplace, hagent, hleft⟩⟩
  rw [houtside] at hmemberOf
  cases hmemberOf

/-- A drain that commits settles its page, and nothing else. -/
theorem settle_spec (h : t.Constraints) (hpage : Covered t workspaceId agentId page) :
    ∃ t', settle t workspaceId agentId page = some t' ∧ Advances workspaceId agentId t t' ∧
      (∀ m, Owes t workspaceId agentId m →
        Owes t' workspaceId agentId m ∨ m ∈ page.map UnreadRow.message) ∧
      ∀ row ∈ page, ¬Owes t' workspaceId agentId row.message := by
  have hmark : Advances workspaceId agentId t
      (markRead t workspaceId agentId (outsideIds page)) := advances_markRead
  have hmembers : ∀ group ∈ targetGroups page,
      ((markRead t workspaceId agentId (outsideIds page)).agentMember agentId
        group.1.conversationId).isSome := by
    intro group hgroup
    obtain ⟨row, hrow, hin, htarget, -⟩ := exists_row hgroup
    rw [← htarget]
    exact agentMember_of_isMember h (hpage.inside row hrow hin)
  obtain ⟨t', hfold⟩ := exists_foldlM hmembers
  have hraises : Raises workspaceId agentId (markRead t workspaceId agentId (outsideIds page)) t'
      (targetGroups page) := raises_foldlM (hmark.constraints h) hfold
  have hadvances := hmark.trans hraises.advances
  refine ⟨t', hfold, hadvances, fun m howes => ?_, fun row hrow howes => ?_⟩
  · -- What the page does not hold is above the boundary still, and not marked.
    by_cases hin : m ∈ page.map UnreadRow.message
    · exact .inr hin
    have hm := ((owes_iff h).mp howes).1
    have hunmarked : m.id ∉ outsideIds page := by
      intro hid
      obtain ⟨row, hrow, -, heq⟩ := hpage.outsideIds h hm hid
      exact hin (mem_map.mpr ⟨row, hrow, heq⟩)
    refine .inl (hadvances.keeps h howes (fun habove => ?_) (fun hread => ?_) fun hunread => ?_)
    · rcases hraises.only m.target with hsame | ⟨group, hgroup, htarget, hnew⟩
      · rw [hsame]
        exact habove
      · obtain ⟨row, hrow, hmember, hrowtarget, hsequence⟩ := exists_row hgroup
        rw [hnew]
        by_contra hpassed
        exact hin (hpage.covers m howes row hrow hmember (hrowtarget.trans htarget) (by omega))
    · rw [Tables.readAsNonMember, hraises.mentionActions, ← Tables.readAsNonMember] at hread
      exact (read_markRead hread).resolve_right hunmarked
    · rw [Unread, hraises.mentionActions]
      exact unread_markRead hunmarked hunread
  · obtain ⟨-, c, -, -, -, hcases⟩ := (owes_iff (hadvances.constraints h)).mp howes
    rcases hcases with ⟨hmember, habove, -⟩ | ⟨hunread, -, houtside⟩
    · rw [hadvances.member] at hmember
      have hin : row.nonMemberMention = false := by
        by_contra hout
        rw [Bool.not_eq_false] at hout
        exact hpage.outside row hrow hout hmember
      obtain ⟨group, hgroup, htarget, hle⟩ := exists_group hrow hin
      have hreached := hraises.reaches group hgroup (hmembers group hgroup)
      rw [htarget] at hreached
      have hboundary : boundaryAt t' agentId row.target < row.message.sequence := habove
      omega
    · rw [hadvances.memberOf] at houtside
      have hout := hpage.isMemberOf hrow houtside
      have hmarked : row.message.id ∈ outsideIds page :=
        mem_map.mpr ⟨row, mem_filter.mpr ⟨hrow, hout⟩, rfl⟩
      exact not_unread_markRead hmarked (hraises.advances.unread _ hunread)

/-! ### What a drain selects -/

instance : Std.Total UnreadRow.le where
  total a b := by
    simp only [UnreadRow.le]
    grind

instance : IsTrans UnreadRow UnreadRow.le where
  trans a b c := by
    simp only [UnreadRow.le]
    grind

lemma mem_fragment_iff {scope : Option Target} {row : UnreadRow} (h : t.Constraints) :
    row ∈ unreadAgentMessagesFragment t workspaceId agentId scope ↔
      (∃ m ∈ narrowed t workspaceId agentId, unreadRow t workspaceId agentId m = some row) ∧
        scope.all fun target => target.holds row.message := by
  rw [unreadAgentMessagesFragment, mem_filter, outer_eq h, mem_filterMap]

lemma owes_of_mem (h : t.Constraints) {scope : Option Target} {row : UnreadRow}
    (hrow : row ∈ unreadAgentMessagesFragment t workspaceId agentId scope) :
    Owes t workspaceId agentId row.message :=
  mem_map.mpr ⟨row, (mem_fragment_iff h).mpr ⟨((mem_fragment_iff h).mp hrow).1, rfl⟩, rfl⟩

lemma unreadRow_fields (h : t.Constraints) {row : UnreadRow}
    (hrow : unreadRow t workspaceId agentId m = some row) : row.message = m ∧ row.rootSequence =
        ((t.messages.find? fun r => decide (some r.id = m.threadRootId)).map
          Message.sequence).getD 0 ∧
      (row.nonMemberMention = false ↔ IsMember t workspaceId agentId m.conversationId) := by
  obtain ⟨c, -, hrow⟩ := Option.bind_eq_some_iff.mp hrow
  simp only at hrow
  split_ifs at hrow
  cases hrow
  refine ⟨rfl, rfl, ?_⟩
  cases hown : t.members.find? (isMembership workspaceId agentId m) with
  | none =>
    simp only [Option.isNone_none, Bool.true_eq_false, false_iff]
    rintro ⟨own, hmem, hplace, hactive⟩
    exact find?_eq_none.mp hown own hmem (isMembership_iff.mpr ⟨hplace.symm, hactive⟩)
  | some own =>
    obtain ⟨hmem, hmembership⟩ := (Join.find?_eq_some_iff (single_membership h)).mp hown
    obtain ⟨hplace, hactive⟩ := isMembership_iff.mp hmembership
    simp only [Option.isNone_some, true_iff]
    exact ⟨own, hmem, hplace.symm, hactive⟩

lemma mem_drainPage {limit : Int} {target : Option Target} {row : UnreadRow}
    (hrow : row ∈ (drainPage t workspaceId agentId limit target).page) :
    row ∈ unreadAgentMessagesFragment t workspaceId agentId target := by
  have hrows := mem_of_mem_take (mem_of_mem_take hrow)
  exact (mem_insertionSort UnreadRow.le).mp hrows

lemma page_drainPage (limit : Int) (target : Option Target) :
    (drainPage t workspaceId agentId limit target).page =
      ((unreadAgentMessagesFragment t workspaceId agentId target).insertionSort UnreadRow.le).take
        (bounded limit) := Page.take_take_succ

lemma hasMore_drainPage (limit : Int) (target : Option Target) :
    (drainPage t workspaceId agentId limit target).hasMore =
      decide (bounded limit < (drainRows t workspaceId agentId limit target).length) := by
  rw [drainPage]

lemma page_of_last {limit : Int} {target : Option Target}
    (h : (drainPage t workspaceId agentId limit target).hasMore = false) {row : UnreadRow} :
    row ∈ (drainPage t workspaceId agentId limit target).page ↔
      row ∈ unreadAgentMessagesFragment t workspaceId agentId target := by
  rw [hasMore_drainPage, decide_eq_false_iff_not, not_lt] at h
  rw [page_drainPage, Page.take_eq_of_length_le h]
  exact mem_insertionSort _

lemma length_page_of_more {limit : Int} {target : Option Target}
    (h : (drainPage t workspaceId agentId limit target).hasMore) :
    (drainPage t workspaceId agentId limit target).page.length = bounded limit := by
  rw [hasMore_drainPage, decide_eq_true_eq, drainRows, length_take] at h
  rw [page_drainPage, length_take]
  omega

/-- The page of a drain holds what is owed up to its newest row in each target. -/
theorem covered_drainPage (h : t.Constraints) (limit : Int) (target : Option Target) :
    Covered t workspaceId agentId (drainPage t workspaceId agentId limit target).page where
  message row hrow := ((owes_iff h).mp (owes_of_mem h (mem_drainPage hrow))).1
  inside row hrow hin := by
    obtain ⟨⟨m, -, hfields⟩, -⟩ := (mem_fragment_iff h).mp (mem_drainPage hrow)
    obtain ⟨hmessage, -, hmember⟩ := unreadRow_fields h hfields
    rw [hmessage]
    exact hmember.mp hin
  outside row hrow hout := by
    obtain ⟨⟨m, -, hfields⟩, -⟩ := (mem_fragment_iff h).mp (mem_drainPage hrow)
    obtain ⟨hmessage, -, hmember⟩ := unreadRow_fields h hfields
    rw [hmessage, ← hmember, hout]
    simp
  covers m howes row hrow hin htarget hle := by
    obtain ⟨hm, -⟩ := (owes_iff h).mp howes
    obtain ⟨hplace, hroot⟩ : row.message.conversationId = m.conversationId ∧
        row.message.threadRootId = m.threadRootId := by
      simpa only [UnreadRow.target, Message.target, Target.mk.injEq] using htarget
    rcases Nat.lt_or_eq_of_le hle with hlt | hsame
    · obtain ⟨other, hother, hmessage⟩ := mem_map.mp howes
      obtain ⟨⟨m', -, hfields⟩, hscope⟩ := (mem_fragment_iff h).mp (mem_drainPage hrow)
      obtain ⟨⟨m'', hm'', hfields'⟩, -⟩ := (mem_fragment_iff h).mp hother
      obtain ⟨hmessage', hsequence, -⟩ := unreadRow_fields h hfields
      obtain ⟨hmessage'', hsequence', -⟩ := unreadRow_fields h hfields'
      have hin' : other ∈ unreadAgentMessagesFragment t workspaceId agentId target := by
        refine (mem_fragment_iff h).mpr ⟨⟨m'', hm'', hfields'⟩, ?_⟩
        cases target with
        | none => rfl
        | some target =>
          obtain ⟨hplace', hroot'⟩ := of_decide_eq_true hscope
          rw [hmessage]
          exact decide_eq_true ⟨hplace.symm.trans hplace', hroot.symm.trans hroot'⟩
      have hroots : other.rootSequence = row.rootSequence := by
        rw [hsequence, hsequence', ← hmessage', ← hmessage'', hmessage, hroot]
      have hnot : ¬row.le other := by
        rw [UnreadRow.le, hmessage, hroots, hplace]
        grind
      have hsorted := pairwise_insertionSort UnreadRow.le
        (unreadAgentMessagesFragment t workspaceId agentId target)
      refine mem_map.mpr ⟨other, ?_, hmessage⟩
      rw [page_drainPage] at hrow ⊢
      exact Page.mem_take_of_not_rel hsorted ((mem_insertionSort _).mpr hin') hrow hnot
    · have hrowm := ((owes_iff h).mp (owes_of_mem h (mem_drainPage hrow))).1
      have heq : row.message = m :=
        Join.eq_of_key h.message_sequence hrowm hm (Prod.ext hplace hsame.symm)
      exact mem_map.mpr ⟨row, hrow, heq⟩

end Pages

end Coforge.AttentionRule
