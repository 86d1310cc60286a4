import Coforge.Lib.Keyed
import Coforge.Bodies.Tokens

/-!
# The members that a message mentions

Structured bindings name members exactly, and the handles of the text name a member each, an Agent
before a User. Both fill one map by member key, bindings first; the member that a handle is
rewritten to is the last one of the map with that handle.
-/

namespace Coforge.Bodies

open Keyed List Option

structure MentionSelectorInput where
  type : MentionType
  id   : String
  name : String
  deriving DecidableEq

/-- A conversation member that a mention can resolve to. `key` is its conversation-member id. -/
structure MentionTarget where
  key    : String
  type   : MentionType
  id     : String
  handle : String
  deriving DecidableEq

/-- The mention targets of a conversation: no two members have one key. -/
structure Members where
  targets  : List MentionTarget
  distinct : (targets.map MentionTarget.key).Nodup

structure Resolution where
  mentions : List MentionTarget
  target   : String → Option MentionTarget

/-- The member that a binding selects: the same type and handle, and the same id ignoring case. -/
def matched (toLowerCase : String → String) (targets : List MentionTarget)
    (binding : MentionSelectorInput) : Option MentionTarget :=
  targets.find? fun target => target.type = binding.type ∧
    toLowerCase target.id = toLowerCase binding.id ∧ target.handle = binding.name

/-- Keeps a target of a type when no earlier one has its handle. -/
def keepFirst (type : MentionType) (map : List MentionTarget) (target : MentionTarget) :
    List MentionTarget :=
  if target.type = type ∧ find MentionTarget.handle target.handle map = none then
    put MentionTarget.handle target map
  else map

/-- `agentByHandle` and `userByHandle`. -/
def byHandle (type : MentionType) (targets : List MentionTarget) : List MentionTarget :=
  targets.foldl (keepFirst type) []

/-- The member that the text means by a handle: an Agent wins a handle shared with a User. -/
def textTarget (targets : List MentionTarget) (handle : String) : Option MentionTarget :=
  (find MentionTarget.handle handle (byHandle .agent targets)).or
    (find MentionTarget.handle handle (byHandle .user targets))

/-- Puts the member that a binding selects. -/
def bindOne (toLowerCase : String → String) (targets byKey : List MentionTarget)
    (binding : MentionSelectorInput) : List MentionTarget :=
  match matched toLowerCase targets binding with
  | some target => put MentionTarget.key target byKey
  | none        => byKey

/-- Puts the member that the text means by a handle, when it is not there yet. -/
def addHandle (targets byKey : List MentionTarget) (handle : String) : List MentionTarget :=
  match textTarget targets handle with
  | some target =>
    if find MentionTarget.key target.key byKey = none then put MentionTarget.key target byKey
    else byKey
  | none        => byKey

/-- The pass over the bindings. -/
def bindAll (toLowerCase : String → String) (targets : List MentionTarget)
    (bindings : List MentionSelectorInput) : List MentionTarget :=
  bindings.foldl (bindOne toLowerCase targets) []

/-- The pass over the handles of the text. -/
def addText (targets : List MentionTarget) (handles : List String) (byKey : List MentionTarget) :
    List MentionTarget :=
  handles.foldl (addHandle targets) byKey

def resolveMentionTargets (toLowerCase : String → String) (handles : List String)
    (targets : List MentionTarget) (bindings : List MentionSelectorInput) : Resolution :=
  let byKey := addText targets handles (bindAll toLowerCase targets bindings)
  let targetByHandle := byKey.foldl (fun map target => put MentionTarget.handle target map) []
  ⟨byKey, fun handle => find MentionTarget.handle handle targetByHandle⟩

/-! ### The two passes -/

variable {toLowerCase : String → String} {targets : List MentionTarget}

variable {target : MentionTarget}

lemma matched_spec {binding : MentionSelectorInput}
    (h : matched toLowerCase targets binding = some target) :
    target ∈ targets ∧ target.handle = binding.name := by
  rw [matched] at h
  have hfound := find?_some h
  simp only [decide_eq_true_eq] at hfound
  exact ⟨mem_of_find?_eq_some h, hfound.2.2⟩

lemma find_byHandle (type : MentionType) (targets : List MentionTarget) (handle : String) :
    find MentionTarget.handle handle (byHandle type targets) =
      targets.find? fun target => target.type = type ∧ target.handle = handle := by
  induction targets using reverseRecOn with
  | nil => rfl
  | append_singleton targets target ih =>
    have hstep : byHandle type (targets ++ [target]) =
        keepFirst type (byHandle type targets) target := foldl_concat _ _ _ _
    rw [hstep, find?_append, ← ih, keepFirst]
    by_cases hh : target.handle = handle
    · subst hh
      by_cases htype : target.type = type
      · cases hfind : find MentionTarget.handle target.handle (byHandle type targets) with
        | none => rw [if_pos ⟨htype, rfl⟩, find_put, if_pos rfl]; simp [htype]
        | some first => simp [hfind]
      · rw [if_neg fun h => htype h.1]
        simp [htype]
    · have hnone : ([target].find? fun t => t.type = type ∧ t.handle = handle) = none := by
        simp [hh]
      rw [hnone, or_none]
      split_ifs
      · rw [find_put, if_neg hh]
      · rfl

lemma textTarget_spec {handle : String}
    (h : textTarget targets handle = some target) : target ∈ targets ∧ target.handle = handle := by
  rw [textTarget, find_byHandle, find_byHandle] at h
  have hfirst {type : MentionType} (h : (targets.find? fun target =>
      target.type = type ∧ target.handle = handle) = some target) :
      target ∈ targets ∧ target.handle = handle := by
    have hfound := find?_some h
    simp only [decide_eq_true_eq] at hfound
    exact ⟨mem_of_find?_eq_some h, hfound.2⟩
  rcases or_eq_some_iff.mp h with h | ⟨-, h⟩
  · exact hfirst h
  · exact hfirst h

lemma textTarget_isSome (h : target ∈ targets) :
    ∃ named, textTarget targets target.handle = some named := by
  refine isSome_iff_exists.mp ?_
  rw [textTarget, find_byHandle, find_byHandle, isSome_or, Bool.or_eq_true,
    find?_isSome, find?_isSome]
  cases htype : target.type with
  | agent => exact Or.inl ⟨target, h, by simp [htype]⟩
  | user => exact Or.inr ⟨target, h, by simp [htype]⟩

variable {byKey : List MentionTarget}

lemma put_target (hkeys : (targets.map MentionTarget.key).Nodup)
    (htarget : target ∈ targets) (hsub : byKey ⊆ targets)
    (hnodup : (byKey.map MentionTarget.key).Nodup) : put MentionTarget.key target byKey =
      if target ∈ byKey then byKey else byKey ++ [target] := by
  split_ifs with hmem
  · exact put_of_mem hnodup hmem
  · refine put_eq_append fun hkey => hmem ?_
    obtain ⟨other, hother, heq⟩ := mem_map.mp hkey
    have hsame : other = target := inj_on_of_nodup_map hkeys (hsub hother) htarget heq
    exact hsame ▸ hother

/-- What the map by key holds after a pass. -/
structure Mapped (targets byKey : List MentionTarget) : Prop where
  subset : byKey ⊆ targets
  nodup  : (byKey.map MentionTarget.key).Nodup

lemma Mapped.put (htarget : target ∈ targets) (h : Mapped targets byKey) :
    Mapped targets (Keyed.put MentionTarget.key target byKey) := by
  refine ⟨?_, nodup_keys_put h.nodup⟩
  intro x hx
  rcases mem_of_mem_put hx with rfl | hx
  · exact htarget
  · exact h.subset hx

lemma bindAll_spec (hkeys : (targets.map MentionTarget.key).Nodup)
    (bindings : List MentionSelectorInput) : Mapped targets (bindAll toLowerCase targets bindings) ∧
      ∀ target, target ∈ bindAll toLowerCase targets bindings ↔
        ∃ binding ∈ bindings, matched toLowerCase targets binding = some target := by
  induction bindings using reverseRecOn with
  | nil =>
    refine ⟨⟨nil_subset _, nodup_nil⟩, fun target => ?_⟩
    simp [bindAll]
  | append_singleton bindings binding ih =>
    obtain ⟨hmapped, hmem⟩ := ih
    have hstep : bindAll toLowerCase targets (bindings ++ [binding]) =
        bindOne toLowerCase targets (bindAll toLowerCase targets bindings) binding :=
      foldl_concat _ _ _ _
    rw [hstep, bindOne]
    cases hmatched : matched toLowerCase targets binding with
    | none =>
      refine ⟨hmapped, fun target => (hmem target).trans ?_⟩
      simp [or_and_right, exists_or, hmatched]
    | some selected =>
      have hselected := (matched_spec hmatched).1
      refine ⟨hmapped.put hselected, fun target => ?_⟩
      have hlast : (∃ b ∈ bindings ++ [binding], matched toLowerCase targets b = some target) ↔
          target ∈ bindAll toLowerCase targets bindings ∨ selected = target := by
        simp [or_and_right, exists_or, hmatched, hmem]
      simp only [put_target hkeys hselected hmapped.subset hmapped.nodup, hlast]
      split_ifs with hthere
      · refine ⟨Or.inl, ?_⟩
        rintro (h | rfl)
        · exact h
        · exact hthere
      · rw [mem_append, mem_singleton, eq_comm]

lemma addHandle_some (hkeys : (targets.map MentionTarget.key).Nodup) {handle : String}
    {named : MentionTarget} (hnamed : textTarget targets handle = some named) (h : Mapped targets byKey) :
    addHandle targets byKey handle = if named ∈ byKey then byKey else byKey ++ [named] := by
  have hput := put_target hkeys (textTarget_spec hnamed).1 h.subset h.nodup
  simp only [addHandle, hnamed]
  by_cases hmem : named ∈ byKey
  · rw [if_pos hmem, if_neg fun hnone => find_eq_none.mp hnone named hmem rfl]
  · rw [hput, if_neg hmem, ite_eq_left_iff]
    intro hfind
    obtain ⟨other, hother⟩ := ne_none_iff_exists'.mp hfind
    have hsame : other = named := inj_on_of_nodup_map hkeys (h.subset (mem_of_find hother))
      (textTarget_spec hnamed).1 (key_of_find hother)
    exact absurd (hsame ▸ mem_of_find hother) hmem

/-- The pass over the text adds the members that it means, each once and behind the others. -/
lemma addText_spec (hkeys : (targets.map MentionTarget.key).Nodup) (handles : List String) (h : Mapped targets byKey) :
    Mapped targets (addText targets handles byKey) ∧
      ∃ found, addText targets handles byKey = byKey ++ found ∧ ∀ target, target ∈ found ↔
          target ∉ byKey ∧ ∃ handle ∈ handles, textTarget targets handle = some target := by
  induction handles using reverseRecOn with
  | nil => exact ⟨h, [], (append_nil byKey).symm, by simp⟩
  | append_singleton handles handle ih =>
    obtain ⟨hmapped, found, heq, hfound⟩ := ih
    have hstep : addText targets (handles ++ [handle]) byKey =
        addHandle targets (addText targets handles byKey) handle := foldl_concat _ _ _ _
    rw [hstep]
    cases htext : textTarget targets handle with
    | none =>
      simp only [addHandle, htext]
      refine ⟨hmapped, found, heq, fun target => (hfound target).trans ?_⟩
      simp [or_and_right, exists_or, htext]
    | some named =>
      have hlast (target : MentionTarget) :
          (∃ h ∈ handles ++ [handle], textTarget targets h = some target) ↔
            (∃ h ∈ handles, textTarget targets h = some target) ∨ named = target := by
        simp [or_and_right, exists_or, htext]
      have hmapped' : Mapped targets (addText targets handles byKey ++ [named]) ∨
          named ∈ addText targets handles byKey := by
        by_cases hmem : named ∈ addText targets handles byKey
        · exact Or.inr hmem
        · have hput := hmapped.put (textTarget_spec htext).1
          rw [put_target hkeys (textTarget_spec htext).1 hmapped.subset hmapped.nodup,
            if_neg hmem] at hput
          exact Or.inl hput
      simp only [addHandle_some hkeys htext hmapped, hlast]
      split_ifs with hmem
      · refine ⟨hmapped, found, heq, fun target => (hfound target).trans ?_⟩
        refine and_congr_right fun hout => ⟨Or.inl, ?_⟩
        rintro (hold | rfl)
        · exact hold
        · rw [heq, mem_append] at hmem
          exact ((hfound named).mp (hmem.resolve_left hout)).2
      · refine ⟨hmapped'.resolve_right hmem, found ++ [named], ?_, fun target => ?_⟩
        · rw [heq, append_assoc]
        · have hout : named ∉ byKey := fun h => hmem (heq ▸ mem_append_left _ h)
          rw [mem_append, hfound, mem_singleton, eq_comm]
          constructor
          · rintro (⟨hby, hold⟩ | rfl)
            · exact ⟨hby, Or.inl hold⟩
            · exact ⟨hout, Or.inr rfl⟩
          · rintro ⟨hby, hold | rfl⟩
            · exact Or.inl ⟨hby, hold⟩
            · exact Or.inr rfl

/-! ### The member of a handle -/

lemma getLast?_filter_eq_some {p : MentionTarget → Bool} {xs : List MentionTarget}
    {m : MentionTarget} (hm : m ∈ xs) (hp : p m = true) (honly : ∀ x ∈ xs, p x = true → x = m) :
    (xs.filter p).getLast? = some m := by
  have hmem : m ∈ xs.filter p := mem_filter.mpr ⟨hm, hp⟩
  obtain ⟨x, hx⟩ : ∃ x, (xs.filter p).getLast? = some x :=
    isSome_iff_exists.mp (getLast?_isSome.mpr (ne_nil_of_mem hmem))
  obtain ⟨hxs, hpx⟩ := mem_filter.mp (mem_of_getLast? hx)
  rw [hx, honly x hxs hpx]

/-- The mentions of a message: each member once, the bound ones first, and behind them the ones
that the text means. -/
def BoundFirst (toLowerCase : String → String) (handles : List String)
    (targets : List MentionTarget) (bindings : List MentionSelectorInput)
    (mentions : List MentionTarget) : Prop :=
  (mentions.map MentionTarget.key).Nodup ∧
    ∃ bound found, mentions = bound ++ found ∧
      (∀ target, target ∈ bound ↔
        ∃ binding ∈ bindings, matched toLowerCase targets binding = some target) ∧
      ∀ target, target ∈ found ↔
        target ∉ bound ∧ ∃ handle ∈ handles, textTarget targets handle = some target

lemma resolveMentionTargets_boundFirst (members : Members) (handles : List String)
    (bindings : List MentionSelectorInput) : BoundFirst toLowerCase handles members.targets bindings
      (resolveMentionTargets toLowerCase handles members.targets bindings).mentions := by
  obtain ⟨hbound, hmem⟩ := @bindAll_spec toLowerCase _ members.distinct bindings
  obtain ⟨hmapped, found, heq, hfound⟩ := addText_spec members.distinct handles hbound
  exact ⟨hmapped.nodup, _, found, heq, hmem, hfound⟩

/-- A bound member is what its handle resolves to exactly when the text does not mean another one
by it. Always each mentioned member is there once, and the bound ones come first. -/
theorem target_eq_bound_iff (members : Members) (handles : List String)
    (before after : List MentionSelectorInput) (binding : MentionSelectorInput)
    (member : MentionTarget)
    (hmember : matched toLowerCase members.targets binding = some member)
    (hother : ∀ other ∈ before ++ after, other.name ≠ binding.name) :
    let bindings := before ++ binding :: after
    let resolved := resolveMentionTargets toLowerCase handles members.targets bindings
    BoundFirst toLowerCase handles members.targets bindings resolved.mentions ∧
      (resolved.target member.handle = some member ↔
        (member.handle ∈ handles → textTarget members.targets member.handle = some member)) := by
  intro bindings resolved
  refine ⟨resolveMentionTargets_boundFirst members handles bindings, ?_⟩
  obtain ⟨-, bound, found, hmentions, hbound, hfound⟩ :=
    @resolveMentionTargets_boundFirst toLowerCase members handles bindings
  have htarget : resolved.target member.handle =
      (resolved.mentions.filter fun t => t.handle = member.handle).getLast? := by
    refine (find_foldl_put _ _ _).trans ?_
    rw [find_nil, or_none]
    rfl
  have hname : member.handle = binding.name := (matched_spec hmember).2
  have hin : member ∈ bound :=
    (hbound member).mpr ⟨binding, mem_append_right _ mem_cons_self, hmember⟩
  have honly : ∀ x ∈ bound, x.handle = member.handle → x = member := by
    intro x hx heq
    obtain ⟨other, hmem, hx⟩ := (hbound x).mp hx
    rcases mem_append.mp hmem with hmem | hmem
    · exact absurd ((matched_spec hx).2.symm.trans (heq.trans hname))
        (hother other (mem_append_left _ hmem))
    · rcases mem_cons.mp hmem with rfl | hmem
      · exact some.inj (hx.symm.trans hmember)
      · exact absurd ((matched_spec hx).2.symm.trans (heq.trans hname))
          (hother other (mem_append_right _ hmem))
  -- The text finds at most one member with the handle, the one that it means by it.
  have htext : ∀ x ∈ found, x.handle = member.handle →
      member.handle ∈ handles ∧ textTarget members.targets member.handle = some x := by
    intro x hx heq
    obtain ⟨-, handle, hhandle, hx⟩ := (hfound x).mp hx
    have hsame : handle = member.handle := (textTarget_spec hx).2.symm.trans heq
    exact ⟨hsame ▸ hhandle, hsame ▸ hx⟩
  rw [htarget, hmentions]
  constructor
  · intro hlast hhandle
    obtain ⟨named, hnamed⟩ := textTarget_isSome (matched_spec hmember).1
    by_cases hthere : named ∈ bound
    · rw [hnamed, honly named hthere (textTarget_spec hnamed).2]
    · have hin' : named ∈ found := (hfound named).mpr ⟨hthere, member.handle, hhandle, hnamed⟩
      have hfilter : (found.filter fun t => t.handle = member.handle).getLast? = some named :=
        getLast?_filter_eq_some hin' (by simpa using (textTarget_spec hnamed).2) fun x hx heq =>
          some.inj ((htext x hx (by simpa using heq)).2.symm.trans hnamed)
      rw [filter_append, getLast?_append, hfilter, some_or] at hlast
      rw [hnamed, hlast]
  · intro hcond
    refine getLast?_filter_eq_some (mem_append_left _ hin) (by simp) fun x hx heq => ?_
    have hx' : x.handle = member.handle := by simpa using heq
    rcases mem_append.mp hx with hx | hx
    · exact honly x hx hx'
    · obtain ⟨hhandle, hx⟩ := htext x hx hx'
      exact some.inj (hx.symm.trans (hcond hhandle))

/-! ### A handle that an Agent and a User share -/

def frankUser : MentionTarget := ⟨"member-frank-user", .user, "a1", "frank"⟩
def frankAgent : MentionTarget := ⟨"member-frank-agent", .agent, "b2", "frank"⟩

/-- The User and the Agent of one handle, both members. -/
def franks : Members := ⟨[frankUser, frankAgent], by decide⟩

/-- The User is bound and the text has the handle: it resolves to the Agent. -/
theorem bound_user_loses : ¬ ∀ (members : Members) (handles : List String)
    (binding : MentionSelectorInput) (member : MentionTarget),
    matched id members.targets binding = some member →
      (resolveMentionTargets id handles members.targets [binding]).target member.handle =
        some member := by
  intro h
  have hfrank := h franks ["frank"] ⟨.user, "a1", "frank"⟩ frankUser (by decide)
  exact absurd hfrank (by decide)

/-- The bound User wins when the text has no handle. -/
theorem target_eq_bound_frank :
    (resolveMentionTargets id [] franks.targets [⟨.user, "a1", "frank"⟩]).target "frank" =
      some frankUser :=
  (target_eq_bound_iff franks [] [] [] ⟨.user, "a1", "frank"⟩ frankUser (by decide)
    (by simp)).2.mpr (by simp)

end Coforge.Bodies
