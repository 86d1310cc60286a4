import Coforge.Attention.Arrivals
import Coforge.Attention.Coherence
import Mathlib

/-!
# The scope of a history read

A read of a direct conversation or a thread settles what it returned under every other spelling of
that conversation too. Which targets these are, the index knows from its deliveries: it lists the
targets of each conversation, and a thread by its root.

The ghost `Origins` is the conversation of the message that made a sequence pending. As long as a
target is listed for one conversation only, a read settles exactly what it returned: the sequences
whose message is of its conversation, in a target of its thread. A target that is recorded for a
second conversation stays listed for the first.
-/

namespace Coforge.Attention

open Transition

/-! ### Threads -/

/-- A message id begins with both roots, whatever their case. -/
def SameRoot (left right : String) : Prop :=
  ∃ id : List Char, left.toLower.toList <+: id ∧ right.toLower.toList <+: id

namespace Index

lemma sameThreadRoot_iff {left right : String} :
    sameThreadRoot (some left) right = true ↔ SameRoot left right := by
  simp only [sameThreadRoot, Bool.or_eq_true, decide_eq_true_iff]
  constructor
  · rintro (heq | hprefix)
    · exact ⟨_, List.prefix_rfl, by rw [heq]⟩
    · split_ifs at hprefix
      · exact ⟨_, String.startsWith_string_iff.mp hprefix, List.prefix_rfl⟩
      · exact ⟨_, List.prefix_rfl, String.startsWith_string_iff.mp hprefix⟩
  · rintro ⟨id, hleft, hright⟩
    refine Or.inr ?_
    split_ifs with hlt
    · refine String.startsWith_string_iff.mpr (List.prefix_of_prefix_length_le hleft hright ?_)
      rw [String.length_toList, String.length_toList]
      exact hlt.le
    · refine String.startsWith_string_iff.mpr (List.prefix_of_prefix_length_le hright hleft ?_)
      rw [String.length_toList, String.length_toList]
      exact not_lt.mp hlt

/-- A target of a direct conversation has no root, and one of a thread the root of the scope. -/
def ConsumptionScope.SameThread (scope : ConsumptionScope) (t : Target) : Prop :=
  match scope.channelType with
  | .dm     => threadRootTarget t = none
  | .thread => ∃ root scopeRoot, threadRootTarget t = some root ∧
      threadRootTarget scope.target = some scopeRoot ∧ SameRoot root scopeRoot

lemma ConsumptionScope.covers_iff {scope : ConsumptionScope} {t : Target} :
    scope.covers t = true ↔ scope.SameThread t := by
  rw [covers, SameThread]
  cases scope.channelType with
  | dm => exact Option.isNone_iff_eq_none
  | thread =>
    simp only [Option.any_eq_true]
    constructor
    · rintro ⟨scopeRoot, hscope, hsame⟩
      rcases hroot : threadRootTarget t with _ | root
      · rw [hroot] at hsame
        cases hsame
      · rw [hroot] at hsame
        exact ⟨root, scopeRoot, rfl, hscope, sameThreadRoot_iff.mp hsame⟩
    · rintro ⟨root, scopeRoot, hroot, hscope, hsame⟩
      exact ⟨scopeRoot, hscope, hroot ▸ sameThreadRoot_iff.mpr hsame⟩

end Index

/-! ### Where a pending message is from -/

/-- The conversation of the message that made a sequence of a target pending. -/
abbrev Origins := Target → Nat → String

def noteOrigin (o : Origins) (a : Arrival) : Origins :=
  fun t n => if t = a.target ∧ n = a.sequence then a.conversationId else o t n

def originStep (s : World × Origins) (l : Label) : Option (World × Origins) :=
  (step s.1 l).map fun w => (w, (s.1.recorded l).foldl noteOrigin s.2)

/-- A pending message is of the conversation recorded for its target, and a target is listed for
that one only. -/
structure Placed (o : Origins) (s : Index) : Prop where
  origin : ∀ t n, n ∈ (s.unreviewed t).pending → (s.unreviewed t).conversation = some (o t n)
  listed : ∀ c t, s.conversationTargets c t = true ↔ (s.unreviewed t).conversation = some c

namespace Placed

variable {o : Origins} {s s' : Index}

lemma init (o : Origins) (durable : Option ConsumedSeqState) : Placed o (.init durable) where
  origin t n hn := absurd hn (Finset.notMem_empty n)
  listed c t := by simp [Index.init, Unreviewed.empty]

lemma same (h : Placed o s) (hsame : s.SamePending s') : Placed o s' where
  origin t n := by
    rw [hsame.unreviewed]
    exact h.origin t n
  listed c t := by
    rw [hsame.unreviewed, hsame.conversations]
    exact h.listed c t

/-! ### Arrivals -/

/-- What recording a message does to its target, and to the list of its conversation. -/
structure Arrives (a : Arrival) (s s' : Index) : Prop where
  pending : ∀ t, (s'.unreviewed t).pending =
    if t = a.target then insert a.sequence (s.unreviewed t).pending else (s.unreviewed t).pending
  conversation : ∀ t, (s'.unreviewed t).conversation =
    if t = a.target then some a.conversationId else (s.unreviewed t).conversation
  listed : ∀ c t, s'.conversationTargets c t = true ↔
    c = a.conversationId ∧ t = a.target ∨ s.conversationTargets c t = true

/-- A target that is listed for no other conversation. -/
def ListedOnly (s : Index) (a : Arrival) : Prop :=
  ∀ c, s.conversationTargets c a.target = true → c = a.conversationId

lemma arrive {a : Arrival} (h : Placed o s) (hone : ListedOnly s a) (harrives : Arrives a s s') :
    Placed (noteOrigin o a) s' := by
  refine ⟨fun t n hn => ?_, fun c t => ?_⟩
  · rw [harrives.pending] at hn
    rw [harrives.conversation]
    by_cases ht : t = a.target
    · rw [if_pos ht] at hn ⊢
      by_cases hsequence : n = a.sequence
      · rw [noteOrigin, if_pos ⟨ht, hsequence⟩]
      · -- what was pending before is of the one conversation the target is listed for
        have horigin := h.origin t n ((Finset.mem_insert.mp hn).resolve_left hsequence)
        rw [noteOrigin, if_neg fun hboth => hsequence hboth.2]
        exact congrArg some (hone _ (ht ▸ (h.listed _ t).mpr horigin)).symm
    · rw [if_neg ht] at hn ⊢
      rw [noteOrigin, if_neg fun hboth => ht hboth.1]
      exact h.origin t n hn
  · rw [harrives.listed, harrives.conversation]
    by_cases ht : t = a.target
    · rw [if_pos ht]
      constructor
      · rintro (⟨rfl, -⟩ | hlisted)
        · rfl
        · rw [hone c (ht ▸ hlisted)]
      · intro heq
        exact Or.inl ⟨(Option.some.inj heq).symm, ht⟩
    · rw [if_neg ht, ← h.listed c t]
      exact ⟨fun hor => hor.resolve_left fun hboth => ht hboth.2, Or.inr⟩

lemma conversation_recordConversation (t t' : Target) (conversationId : String) :
    ((s.recordConversation t conversationId).unreviewed t').conversation =
      if t' = t then some conversationId else (s.unreviewed t').conversation := by
  simp only [Index.recordConversation, Index.withUnreviewed]
  by_cases ht : t' = t
  · subst ht
    rw [if_pos rfl]
    by_cases hsame : (s.unreviewed t').conversation = some conversationId
    · rw [if_pos hsame, hsame]
    · rw [if_neg hsame]
      exact congrArg Unreviewed.conversation (if_pos rfl)
  · split_ifs <;> simp [ht]

lemma listed_recordConversation {t : Target} {conversationId : String}
    (h : (s.unreviewed t).conversation = some conversationId →
      s.conversationTargets conversationId t = true) (c : String) (t' : Target) :
    (s.recordConversation t conversationId).conversationTargets c t' = true ↔
      c = conversationId ∧ t' = t ∨ s.conversationTargets c t' = true := by
  rw [Index.recordConversation]
  split_ifs with hsame
  · refine ⟨Or.inr, ?_⟩
    rintro (⟨rfl, rfl⟩ | hlisted)
    · exact h hsame
    · exact hlisted
  · simp

lemma arrives_recordAttention (h : Placed o s) (message : Delivery) (now : Nat) :
    Arrives message.arrival s (s.recordAttention message now) where
  pending := Index.pending_recordAttention message now
  conversation t := by
    rw [Index.recordAttention, conversation_recordConversation]
    by_cases ht : t = message.target
    · rw [if_pos ht]
      exact (if_pos ht).symm
    · rw [if_neg ht]
      simp [Index.withUnreviewed, ht, Delivery.arrival]
  listed c t := by
    refine listed_recordConversation (fun hsame => ?_) c t
    refine (h.listed _ _).mpr (Eq.trans ?_ hsame)
    simp [Index.withUnreviewed]

lemma arrives_recordRecovered (h : Placed o s) (message : RecoveryMessage) :
    Arrives message.arrival s (s.recordRecovered message) where
  pending := Index.pending_recordRecovered message
  conversation t := by
    have hconversation := @conversation_recordConversation s message.target t
      message.conversationId
    simp only [Index.recordRecovered, Index.withUnreviewed]
    by_cases ht : t = message.target
    · subst ht
      rw [if_pos rfl]
      exact hconversation
    · rw [if_neg ht]
      exact hconversation
  listed c t := listed_recordConversation (fun hsame => (h.listed _ _).mpr hsame) c t

end Placed

/-- The messages are of one conversation for each target, and of the one it is listed for. -/
structure OneConversation (s : Index) (arrivals : List Arrival) : Prop where
  together : arrivals.Pairwise fun a b => a.target = b.target → a.conversationId = b.conversationId
  listed : ∀ a ∈ arrivals, Placed.ListedOnly s a

lemma OneConversation.tail {s s' : Index} {a : Arrival} {arrivals : List Arrival}
    (h : OneConversation s (a :: arrivals)) (harrives : Placed.Arrives a s s') :
    OneConversation s' arrivals := by
  obtain ⟨hhead, hrest⟩ := List.pairwise_cons.mp h.together
  refine ⟨hrest, fun b hb c hc => ?_⟩
  rcases (harrives.listed c b.target).mp hc with ⟨rfl, htarget⟩ | hlisted
  · exact hhead b hb htarget.symm
  · exact h.listed b (List.mem_cons_of_mem _ hb) c hlisted

lemma Placed.recordAll (messages : List Delivery) (now : Nat) :
    ∀ {o : Origins} {s : Index}, Placed o s → OneConversation s (messages.map Delivery.arrival) →
      Placed ((messages.map Delivery.arrival).foldl noteOrigin o) (s.recordAll messages now) := by
  induction messages with
  | nil => exact fun h _ => h
  | cons message messages ih =>
    intro o s h hone
    have harrives := arrives_recordAttention h message now
    exact ih (h.arrive (hone.listed _ List.mem_cons_self) harrives) (hone.tail harrives)

lemma Placed.foldl_recordRecovered (messages : List RecoveryMessage) :
    ∀ {o : Origins} {s : Index}, Placed o s →
      OneConversation s (messages.map RecoveryMessage.arrival) →
      Placed ((messages.map RecoveryMessage.arrival).foldl noteOrigin o)
        (messages.foldl Index.recordRecovered s) := by
  induction messages with
  | nil => exact fun h _ => h
  | cons message messages ih =>
    intro o s h hone
    have harrives := arrives_recordRecovered h message
    exact ih (h.arrive (hone.listed _ List.mem_cons_self) harrives) (hone.tail harrives)

/-! ### Settling -/

lemma conversation_settleEntry (settled : Nat → Bool) (u : Unreviewed) :
    (Index.settleEntry settled u).conversation =
      if Index.settleClears settled u then none else u.conversation := by
  rcases ha : u.attention with _ | a
  · simp [Index.settleEntry, Index.settleClears, ha]
  · by_cases hempty : u.pending.filter (fun n => !settled n) = ∅
    · have hclears : Index.settleClears settled u = true := by
        simp only [Index.settleClears, ha, Option.isSome_some, Bool.true_and]
        exact decide_eq_true hempty
      rw [if_pos hclears]
      simp only [Index.settleEntry, ha, if_pos hempty]
      rfl
    · have hclears : ¬Index.settleClears settled u = true := by
        simp only [Index.settleClears, ha, Option.isSome_some, Bool.true_and]
        exact fun h => hempty (of_decide_eq_true h)
      rw [if_neg hclears]
      simp only [Index.settleEntry, ha, if_neg hempty]
      split_ifs <;> rfl

lemma pending_of_settleClears {settled : Nat → Bool} {u : Unreviewed} {n : Nat}
    (hclears : Index.settleClears settled u = true) :
    n ∉ (Index.settleEntry settled u).pending := by
  rw [Index.settleClears, Bool.and_eq_true] at hclears
  have hempty := of_decide_eq_true hclears.2
  intro hn
  have hkept := (Unreviewed.pending_settleEntry settled u n).mp hn
  have hmem : n ∈ u.pending.filter fun n => !settled n := by
    rw [Finset.mem_filter, hkept.2]
    exact ⟨hkept.1, rfl⟩
  rw [hempty] at hmem
  exact Finset.notMem_empty n hmem

lemma forgetConversations_iff {s : Index} {cleared : Target → Bool} {c : String} {t : Target} :
    s.forgetConversations cleared c t = true ↔ s.conversationTargets c t = true ∧
      ¬ (cleared t = true ∧ (s.unreviewed t).conversation = some c) := by
  rw [Index.forgetConversations]
  cases cleared t <;> simp

namespace Placed

variable {o : Origins} {s s' : Index}

lemma settleTargets (h : Placed o s) (targets : Target → Bool) (settled : Nat → Bool) :
    Placed o (s.settleTargets targets settled) := by
  refine ⟨fun t n hn => ?_, fun c t => ?_⟩
  · simp only [Index.settleTargets] at hn ⊢
    split_ifs at hn ⊢
    · have hkept := ((Unreviewed.pending_settleEntry settled _ n).mp hn).1
      rw [conversation_settleEntry, if_neg fun hclears => pending_of_settleClears hclears hn]
      exact h.origin t n hkept
    · exact h.origin t n hn
  · simp only [Index.settleTargets]
    rw [forgetConversations_iff, h.listed, Bool.and_eq_true]
    by_cases ht : targets t = true
    · rw [if_pos ht, conversation_settleEntry]
      by_cases hclears : Index.settleClears settled (s.unreviewed t) = true
      · simp [ht, hclears]
      · simp [hclears]
    · simp [ht]

lemma clearAll (h : Placed o s) (targets : Target → Bool) : Placed o (s.clearAll targets) := by
  refine ⟨fun t n hn => ?_, fun c t => ?_⟩
  · simp only [Index.clearAll] at hn ⊢
    split_ifs at hn ⊢
    · exact absurd hn (Finset.notMem_empty n)
    · exact h.origin t n hn
  · simp only [Index.clearAll]
    rw [forgetConversations_iff, h.listed]
    by_cases ht : targets t = true
    · simp [ht, Unreviewed.empty]
    · simp [ht]

lemma settles (h : Placed o s) (hsettles : s.Settles s') : Placed o s' :=
  @Index.Settles.keeps _ _ (Placed o) (fun _ _ hsame hs => hs.same hsame)
    (fun _ targets settled hs => hs.settleTargets targets settled)
    (fun _ targets hs => hs.clearAll targets) hsettles h

end Placed

/-! ### Every run -/

lemma placed_step {w w' : World} {o o' : Origins} {l : Label} (h : Placed o w.index)
    (hok : OneConversation w.index (w.recorded l)) (hstep : originStep (w, o) l = some (w', o')) :
    Placed o' w'.index := by
  obtain ⟨v, hv, heq⟩ := Option.map_eq_some_iff.mp hstep
  obtain ⟨rfl, rfl⟩ := Prod.mk.inj heq
  rcases World.pends_step hv with ⟨now, hnone, hsame⟩ | ⟨r, hsome, hindex⟩ |
    ⟨hnothing, hsettles⟩ | ⟨hnothing, hindex⟩
  · rw [World.recorded, hnone] at hok ⊢
    exact (Placed.recordAll _ now h hok).same hsame
  · rw [World.recorded, hsome] at hok ⊢
    rw [hindex]
    refine Placed.foldl_recordRecovered r.messages ?_ ⟨hok.together, hok.listed⟩
    exact ⟨h.origin, h.listed⟩
  · rw [hnothing]
    exact h.settles hsettles
  · have hforgot := Placed.init o w.index.durable
    rw [hnothing, hindex]
    exact ⟨hforgot.origin, hforgot.listed⟩

/-! ### What a read settles -/

namespace Index

variable {s s' s'' : Index} {target : Target}

/-- Every target but one is held as it was. -/
def SameElsewhere (target : Target) (s s' : Index) : Prop :=
  ∀ t, t ≠ target → s'.unreviewed t = s.unreviewed t ∧
    ∀ c, s'.conversationTargets c t = s.conversationTargets c t

lemma SamePending.elsewhere (h : SamePending s s') : SameElsewhere target s s' := fun t _ =>
  ⟨congrFun h.unreviewed t, fun c => congrFun (congrFun h.conversations c) t⟩

lemma SameElsewhere.trans (h : SameElsewhere target s s') (h' : SameElsewhere target s' s'') :
    SameElsewhere target s s'' := fun t ht =>
  ⟨(h' t ht).1.trans (h t ht).1, fun c => ((h' t ht).2 c).trans ((h t ht).2 c)⟩

lemma sameElsewhere_settlePending (s : Index) (target : Target) (settled : Nat → Bool) :
    SameElsewhere target s (s.settlePending target settled) := by
  intro t ht
  simp [settlePending, settleTargets, forgetConversations, ht]

lemma sameElsewhere_settleSeen (s : Index) (target : Target) :
    SameElsewhere target s (s.settleSeen target) := sameElsewhere_settlePending s target _

lemma sameElsewhere_advanceFrontier (s : Index) (target : Target) (sequence : Nat) :
    SameElsewhere target s (s.advanceFrontier target sequence).1 := by
  simp only [advanceFrontier]
  split_ifs
  · exact (samePending_refl s).elsewhere
  · have hconsumed (entry : ConsumedSeqEntry) : SamePending s (s.withConsumed target entry) :=
      ⟨rfl, rfl⟩
    exact (hconsumed _).elsewhere.trans (sameElsewhere_settlePending _ _ _)

/-- The index when a read has recorded what it showed, in front of its scope. -/
def readOf (s : Index) (read : HistoryRead) : Index :=
  let s := (s.hydrate.setAlias read.spelling read.target).1
  let s := (if 0 < read.through then s.advanceFrontier read.target read.through
    else (s, false)).1
  let s := (s.addExact read.target read.shown).1.settleSeen read.target
  match read.review with
  | none          => s
  | some sequence => s.takeReadOrder read.target sequence

lemma sameElsewhere_readOf (s : Index) (read : HistoryRead) :
    SameElsewhere read.target s (s.readOf read) := by
  have haliased : SameElsewhere read.target s (s.hydrate.setAlias read.spelling read.target).1 :=
    ((samePending_hydrate s).trans (samePending_setAlias _ _ _)).elsewhere
  have hmoved : SameElsewhere read.target s (if 0 < read.through
      then (s.hydrate.setAlias read.spelling read.target).1.advanceFrontier read.target read.through
      else ((s.hydrate.setAlias read.spelling read.target).1, false)).1 := by
    split_ifs
    · exact haliased.trans (sameElsewhere_advanceFrontier _ _ _)
    · exact haliased
  have hsettled := (hmoved.trans (samePending_addExact _ read.target read.shown).elsewhere).trans
    (sameElsewhere_settleSeen _ read.target)
  rw [readOf]
  rcases read.review with _ | sequence
  · exact hsettled
  · exact hsettled.trans (samePending_takeReadOrder _ _ _).elsewhere

lemma samePending_recordHistoryRead {read : HistoryRead} {scope : ConsumptionScope}
    (hscope : read.scope = some scope) (s : Index) :
    SamePending ((s.readOf read).settleScope scope read.shown read.target)
      (s.recordHistoryRead read) := by
  simp only [recordHistoryRead, readOf, hscope]
  exact samePending_persist_if _ _

/-- Another target after a read: settled if it is listed for the scope and covered by it. -/
lemma unreviewed_recordHistoryRead {read : HistoryRead} {scope : ConsumptionScope}
    (hscope : read.scope = some scope) (s : Index) {t : Target} (ht : t ≠ read.target) :
    (s.recordHistoryRead read).unreviewed t =
      if read.shown ≠ [] ∧ s.conversationTargets scope.conversationId t = true ∧
        scope.covers t = true
      then settleEntry (Ascending.holds read.shown) (s.unreviewed t) else s.unreviewed t := by
  obtain ⟨hentry, hlisted⟩ := sameElsewhere_readOf s read t ht
  rw [(samePending_recordHistoryRead hscope s).unreviewed, settleScope]
  by_cases hnil : read.shown = []
  · rw [if_pos hnil, if_neg fun h => h.1 hnil, hentry]
  · rw [if_neg hnil]
    change (if ((s.readOf read).conversationTargets scope.conversationId t &&
      decide (t ≠ read.target) && scope.covers t) = true
      then settleEntry (Ascending.holds read.shown) ((s.readOf read).unreviewed t)
      else (s.readOf read).unreviewed t) = _
    rw [hentry, hlisted]
    simp [ht, hnil]

end Index

/-- What a read of a scope leaves pending in the other targets. -/
structure SettlesExactly (before after : Index) (o : Origins) (target : Target)
    (scope : Index.ConsumptionScope) (shown : List Nat) : Prop where
  /-- What the read returned of its conversation and thread is settled, and nothing else. -/
  pending : ∀ t, t ≠ target → ∀ n, n ∈ (after.unreviewed t).pending ↔
    n ∈ (before.unreviewed t).pending ∧
      ¬ (o t n = scope.conversationId ∧ scope.SameThread t ∧ n ∈ shown)
  /-- A target of another conversation or thread is left as it is. -/
  untouched : ∀ t, t ≠ target →
    (¬ scope.SameThread t ∨ ∃ n ∈ (before.unreviewed t).pending, o t n ≠ scope.conversationId) →
      after.unreviewed t = before.unreviewed t

lemma Placed.settlesExactly {o : Origins} {s : Index} (h : Placed o s) {read : Index.HistoryRead}
    {scope : Index.ConsumptionScope} (hscope : read.scope = some scope)
    (hshown : read.shown.Pairwise (· < ·)) :
    SettlesExactly s (s.recordHistoryRead read) o read.target scope read.shown := by
  refine ⟨fun t ht n => ?_, fun t ht hother => ?_⟩
  · rw [Index.unreviewed_recordHistoryRead hscope s ht]
    by_cases hread : read.shown ≠ [] ∧ s.conversationTargets scope.conversationId t = true ∧
        scope.covers t = true
    · rw [if_pos hread, Unreviewed.pending_settleEntry]
      obtain ⟨-, hlisted, hcovers⟩ := hread
      refine and_congr_right fun hn => ?_
      -- what is pending is of the conversation the target is listed for
      have horigin : o t n = scope.conversationId :=
        Option.some.inj ((h.origin t n hn).symm.trans ((h.listed _ t).mp hlisted))
      have hsame := Index.ConsumptionScope.covers_iff.mp hcovers
      rw [← Bool.not_eq_true, Ascending.holds_iff hshown]
      exact ⟨fun hn hall => hn hall.2.2, fun hn hall => hn ⟨horigin, hsame, hall⟩⟩
    · rw [if_neg hread]
      refine (and_iff_left_of_imp fun hn hall => hread ?_).symm
      refine ⟨List.ne_nil_of_mem hall.2.2, ?_, Index.ConsumptionScope.covers_iff.mpr hall.2.1⟩
      rw [h.listed, h.origin t n hn, hall.1]
  · rw [Index.unreviewed_recordHistoryRead hscope s ht, if_neg]
    rintro ⟨-, hlisted, hcovers⟩
    rcases hother with hthread | ⟨n, hn, horigin⟩
    · exact hthread (Index.ConsumptionScope.covers_iff.mp hcovers)
    · exact horigin
        (Option.some.inj ((h.origin t n hn).symm.trans ((h.listed _ t).mp hlisted)))

/-- In every run that records each message for a target listed for no other conversation, a read
settles exactly what it returned, whatever its targets are spelled. -/
theorem scope_settles_exactly (ws : String) (durable : Option ConsumedSeqState) (o : Origins)
    (ls : List Label) (w : World) (o' : Origins)
    (hok : Permitted originStep (fun s l => OneConversation s.1.index (s.1.recorded l))
      (.init ws durable, o) ls) (hrun : run originStep (.init ws durable, o) ls = some (w, o'))
    (read : Index.HistoryRead) (scope : Index.ConsumptionScope) (hscope : read.scope = some scope)
    (hshown : read.shown.Pairwise (· < ·)) :
    SettlesExactly w.index (w.index.recordHistoryRead read) o' read.target scope read.shown := by
  have hplaced : Placed o' w.index :=
    @invariant _ _ _ _ (fun s : World × Origins => Placed s.2 s.1.index)
      (fun _ _ _ h hok hstep => placed_step h hok hstep) _ _ _ (Placed.init o durable) hok hrun
  exact hplaced.settlesExactly hscope hshown

/-! ### The maps of targets and conversations -/

/-- A target is a member of a conversation exactly if that is the one recorded for it. -/
def Index.Inverse (s : Index) : Prop :=
  ∀ c t, s.conversationTargets c t = true ↔ (s.unreviewed t).conversation = some c

/-- In every run that records each message for a target listed for no other conversation, the maps
are inverse, so a read leaves the other targets of other conversations as they are. -/
theorem conversations_inverse (ws : String) (durable : Option ConsumedSeqState) (ls : List Label)
    (w : World) (hok : Permitted step (fun w l => OneConversation w.index (w.recorded l))
      (.init ws durable) ls) (hrun : run step (.init ws durable) ls = some w) :
    w.index.Inverse ∧ ∀ (read : Index.HistoryRead) (scope : Index.ConsumptionScope) (t : Target),
      read.scope = some scope → t ≠ read.target →
        (w.index.unreviewed t).conversation ≠ some scope.conversationId →
          (w.index.recordHistoryRead read).unreviewed t = w.index.unreviewed t := by
  have hplaced : ∃ o, Placed o w.index := by
    refine @invariant _ _ _ _ (fun w : World => ∃ o, Placed o w.index) ?_ _ _ _
      ⟨fun _ _ => "", Placed.init _ durable⟩ hok hrun
    rintro s l u ⟨o, h⟩ hone hstep
    have hghost : originStep (s, o) l = some (u, (s.recorded l).foldl noteOrigin o) := by
      rw [originStep, hstep]
      rfl
    exact ⟨_, placed_step h hone hghost⟩
  obtain ⟨o, h⟩ := hplaced
  refine ⟨h.listed, fun read scope t hscope ht hother => ?_⟩
  rw [Index.unreviewed_recordHistoryRead hscope _ ht, if_neg]
  intro hsettled
  exact hother ((h.listed _ t).mp hsettled.2.1)

/-! ### A name that changes hands -/

/-- A message of the conversation `c1` under `@ann`. -/
def placedOnce : List Label := [.receive Drained.message false true 0]

/-- A read of `c1` under the user's new name. -/
def readOfFirst : Index.HistoryRead :=
  ⟨"@ann2", "@ann2", [1, 7], 0, none, some ⟨"c1", .dm, "@ann2"⟩⟩

lemma once_permitted : Permitted step (fun w l => OneConversation w.index (w.recorded l))
    (.init "w" none) placedOnce := by
  have hrecorded : (World.init "w" none).recorded (.receive Drained.message false true 0) =
      [Drained.message.arrival] := by decide +kernel
  refine ⟨?_, fun _ _ => trivial⟩
  show OneConversation _ ((World.init "w" none).recorded (.receive Drained.message false true 0))
  rw [hrecorded]
  refine ⟨List.pairwise_singleton _ _, fun a _ c hc => ?_⟩
  cases hc

theorem conversations_inverse_once : ∃ w, run step (.init "w" none) placedOnce = some w ∧
    w.index.Inverse := by
  have hrun : (run step (.init "w" none) placedOnce).isSome = true := by decide +kernel
  obtain ⟨w, hw⟩ := Option.isSome_iff_exists.mp hrun
  exact ⟨w, hw, (conversations_inverse "w" none placedOnce w once_permitted hw).1⟩

/-- The read settles the message of `c1` under the old name. -/
theorem scope_settles_placedOnce : ∃ w o, run originStep (.init "w" none, fun _ _ => "")
    placedOnce = some (w, o) ∧ 1 ∈ (w.index.unreviewed "@ann").pending ∧
      1 ∉ ((w.index.recordHistoryRead readOfFirst).unreviewed "@ann").pending := by
  have hok : Permitted originStep (fun s l => OneConversation s.1.index (s.1.recorded l))
      (.init "w" none, fun _ _ => "") placedOnce := ⟨once_permitted.1, fun _ _ => trivial⟩
  have hone : (run originStep (.init "w" none, fun _ _ => "") placedOnce).map (fun s =>
      ((s.1.index.unreviewed "@ann").pending, s.2 "@ann" 1)) = some ({1}, "c1") := by
    decide +kernel
  obtain ⟨⟨w, o⟩, hrun, hpair⟩ := Option.map_eq_some_iff.mp hone
  obtain ⟨hpending, horigin⟩ := Prod.mk.inj hpair
  have hmem : 1 ∈ (w.index.unreviewed "@ann").pending := by
    rw [show (w.index.unreviewed "@ann").pending = {1} from hpending]
    decide
  refine ⟨w, o, hrun, hmem, ?_⟩
  have hexact := scope_settles_exactly "w" none (fun _ _ => "") placedOnce w o hok hrun readOfFirst
    _ rfl (by decide)
  rw [hexact.pending "@ann" (by decide)]
  have hroot : threadRootTarget "@ann" = none := by decide
  have hshown : 1 ∈ readOfFirst.shown := by decide
  exact fun hstays => hstays.2 ⟨horigin, hroot, hshown⟩

/-- The name `@ann` is given to another user, whose message is of `c2`. -/
def placedTwice : List Label := placedOnce ++ [
  .receive { Drained.message with
    conversationId := "c2", messageId := "m7", deliveryId := "d7", sequence := 7 } false true 1]

/-- A target whose conversation was replaced stays a member of the former one. -/
theorem conversations_part :
    ¬ ∀ (ws : String) (durable : Option ConsumedSeqState) (ls : List Label) (w : World),
      run step (.init ws durable) ls = some w → w.index.Inverse := by
  intro h
  have htwice : (run step (.init "w" none) placedTwice).map (fun w =>
      ((w.index.unreviewed "@ann").conversation, w.index.conversationTargets "c1" "@ann")) =
      some (some "c2", true) := by
    decide +kernel
  obtain ⟨w, hrun, hpair⟩ := Option.map_eq_some_iff.mp htwice
  obtain ⟨hconversation, hlisted⟩ := Prod.mk.inj hpair
  have hfirst := (h "w" none placedTwice w hrun "c1" "@ann").mp hlisted
  rw [hconversation] at hfirst
  exact absurd (Option.some.inj hfirst) (by decide)

/-- The read of `c1` settles the message of `c2`. -/
theorem scope_settles_another :
    ¬ ∀ (ws : String) (durable : Option ConsumedSeqState) (o : Origins) (ls : List Label)
      (w : World) (o' : Origins), run originStep (.init ws durable, o) ls = some (w, o') →
      ∀ (read : Index.HistoryRead) (scope : Index.ConsumptionScope), read.scope = some scope →
        read.shown.Pairwise (· < ·) → SettlesExactly w.index (w.index.recordHistoryRead read) o'
          read.target scope read.shown := by
  intro h
  have htwice : (run originStep (.init "w" none, fun _ _ => "") placedTwice).map (fun s =>
      ((s.1.index.unreviewed "@ann").pending, s.2 "@ann" 7,
        s.1.index.conversationTargets "c1" "@ann")) = some ({1, 7}, "c2", true) := by
    decide +kernel
  obtain ⟨⟨w, o⟩, hrun, htriple⟩ := Option.map_eq_some_iff.mp htwice
  obtain ⟨hpending, hpair⟩ := Prod.mk.inj htriple
  obtain ⟨horigin, hlisted⟩ := Prod.mk.inj hpair
  have hmem : 7 ∈ (w.index.unreviewed "@ann").pending := by
    rw [show (w.index.unreviewed "@ann").pending = {1, 7} from hpending]
    decide
  have hexact := h "w" none (fun _ _ => "") placedTwice w o hrun readOfFirst
    ⟨"c1", .dm, "@ann2"⟩ rfl (by decide)
  have hcovers : Index.ConsumptionScope.covers ⟨"c1", .dm, "@ann2"⟩ "@ann" = true := by decide
  have hnil : readOfFirst.shown ≠ [] := by decide
  have hsettled : 7 ∉ ((w.index.recordHistoryRead readOfFirst).unreviewed "@ann").pending := by
    rw [Index.unreviewed_recordHistoryRead rfl _ (by decide), if_pos ⟨hnil, hlisted, hcovers⟩,
      Unreviewed.pending_settleEntry]
    exact fun hstays => absurd hstays.2 (by decide)
  rw [hexact.pending "@ann" (by decide)] at hsettled
  have hother : "c2" ≠ "c1" := by decide
  exact hsettled ⟨hmem, fun hall => hother (horigin.symm.trans hall.1)⟩

end Coforge.Attention
