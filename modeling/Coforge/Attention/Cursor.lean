import Coforge.Attention.ConsumedFile
import Coforge.Attention.Steps

/-!
# What the operations do to the consumed state

The `snapshot` of an index is the consumed state it would write now, or the one it is going to load
if it has not yet. Only the bookkeeping of reads and sends works on it, and it does so through four
operations: a frontier moves, sequences are recorded one by one, a target is reviewed, a spelling
becomes an alias. `ConsumedSeqState` has them as operations of its own, and each step of the world
is one of these, a clearing, or leaves the snapshot alone.
-/

namespace Coforge.Attention

open Transition

/-! ### Operations of the consumed state -/

namespace ConsumedSeqState

def withTarget (c : ConsumedSeqState) (t : Target) (entry : ConsumedSeqEntry) : ConsumedSeqState :=
  { c with targets := fun t' => if t' = t then entry else c.targets t' }

def moveFrontier (c : ConsumedSeqState) (t : Target) (n : Nat) : ConsumedSeqState :=
  let e := c.targets t
  if n ≤ e.seq then c else c.withTarget t { e with seq := n, exactSeqs := e.exactSeqs.above n }

def recordExact (c : ConsumedSeqState) (t : Target) (ns : List Nat) : ConsumedSeqState :=
  let e := c.targets t
  if ns = [] then c else c.withTarget t { e with exactSeqs := e.exactSeqs.merge e.seq ns }

def review (c : ConsumedSeqState) (t : Target) (n : Nat) : ConsumedSeqState :=
  let e := c.targets t
  { c.withTarget t { e with
      reviewedSeq := if 0 < n then max e.reviewedSeq n else e.reviewedSeq
      readOrder := some c.nextReadOrder } with
    nextReadOrder := c.nextReadOrder + 1 }

/-- The target that a new alias of `canonical` names. -/
def aliasTarget (c : ConsumedSeqState) (spelling canonical : Target) : Target :=
  let named := (c.aliases canonical).getD canonical
  if named = spelling then canonical else named

/-- The aliases without one of `canonical` that names the spelling. -/
def cutAliases (c : ConsumedSeqState) (spelling canonical : Target) : Target → Option Target :=
  if (c.aliases canonical).getD canonical = spelling then
    fun t => if t = canonical then none else c.aliases t
  else c.aliases

def addAlias (c : ConsumedSeqState) (spelling canonical : Target) : ConsumedSeqState :=
  if spelling = "" || canonical = "" || spelling = canonical then c
  else
    let cut := c.cutAliases spelling canonical
    let target := c.aliasTarget spelling canonical
    if cut spelling = some target then { c with aliases := cut }
    else { c with aliases := fun t =>
      if t = spelling || cut t = some spelling then some target else cut t }

/-- What one target of a `check` records. -/
def recordShown (c : ConsumedSeqState) (shown : Target × List Nat) : ConsumedSeqState :=
  if shown.1 = "" then c else c.recordExact shown.1 shown.2

def reviewIf (c : ConsumedSeqState) (t : Target) : Option Nat → ConsumedSeqState
  | none          => c
  | some sequence => c.review t sequence

/-- What a step of the bookkeeping makes of the consumed state. -/
def consume (c : ConsumedSeqState) : Bookkeeping → ConsumedSeqState
  | .recordModelSeen t n              => c.moveFrontier t n
  | .recordReadContext t n            => c.review t n
  | .recordExactSeen shown            => shown.foldl recordShown c
  | .recordHistoryRead read           =>
    (((c.addAlias read.spelling read.target).moveFrontier read.target read.through).recordExact
      read.target read.shown).reviewIf read.target read.review
  | .recordSendContext t through review =>
    if through < 1 then c else (c.moveFrontier t through).reviewIf t review
  | .recordTargetAlias spelling canonical => c.addAlias spelling canonical
  | _                                 => c

lemma moveFrontier_of_le {c : ConsumedSeqState} {t : Target} {n : Nat}
    (h : n ≤ (c.targets t).seq) : c.moveFrontier t n = c := by
  rw [moveFrontier, if_pos h]

lemma withTarget_self (c : ConsumedSeqState) (t : Target) : c.withTarget t (c.targets t) = c := by
  have htargets : (fun t' => if t' = t then c.targets t else c.targets t') = c.targets := by
    funext t'
    by_cases h : t' = t
    · rw [if_pos h, h]
    · rw [if_neg h]
  rw [withTarget, htargets]

end ConsumedSeqState

/-! ### The snapshot of an index -/

namespace Index

open ConsumedSeqState

/-- What `persist` writes. -/
def saved (s : Index) : ConsumedSeqState := ⟨s.consumed, s.aliases, s.readContextCounter + 1⟩

def snapshot (s : Index) : ConsumedSeqState := s.hydrate.saved

lemma snapshot_of_loaded {s : Index} (h : s.Loaded) : s.snapshot = s.saved := by
  rw [snapshot, hydrate_of_loaded h]

lemma hasSeen_iff_snapshot {s : Index} {t : Target} {n : Nat} :
    s.hasSeen t n ↔ (s.snapshot.targets t).Seen n := hasSeen_iff

lemma resolveTarget_eq (s : Index) (t : Target) :
    s.resolveTarget t = (s.snapshot.aliases t).getD t := rfl

/-- An operation that works on the consumed state as `f` does, and writes nothing. -/
structure Works (f : ConsumedSeqState → ConsumedSeqState) (s s' : Index) : Prop where
  loaded : s.Loaded → s'.Loaded
  saved : s'.saved = f s.saved
  durable : s'.durable = s.durable

variable {f g : ConsumedSeqState → ConsumedSeqState} {s s' s'' : Index}

lemma Works.trans (h : Works f s s') (h' : Works g s' s'') : Works (g ∘ f) s s'' where
  loaded := h'.loaded ∘ h.loaded
  saved := by rw [h'.saved, h.saved]; rfl
  durable := h'.durable.trans h.durable

lemma works_id : Works id s s := ⟨id, rfl, rfl⟩

lemma works_settleTargets (targets : Target → Bool) (settled : Nat → Bool) :
    Works id s (s.settleTargets targets settled) := ⟨id, rfl, rfl⟩

lemma works_settleSeen (t : Target) : Works id s (s.settleSeen t) := ⟨id, rfl, rfl⟩

lemma works_settleScope (scope : ConsumptionScope) (shown : List Nat) (settled : Target) :
    Works id s (s.settleScope scope shown settled) := by
  rw [settleScope]
  split_ifs
  · exact works_id
  · exact works_settleTargets _ _

lemma works_advanceFrontier (t : Target) (n : Nat) :
    Works (·.moveFrontier t n) s (s.advanceFrontier t n).1 := by
  simp only [advanceFrontier, moveFrontier]
  split_ifs with h
  · exact ⟨id, by simp [saved, h], rfl⟩
  · exact ⟨id, by simp [saved, h]; rfl, rfl⟩

lemma works_addExact (t : Target) (ns : List Nat) :
    Works (·.recordExact t ns) s (s.addExact t ns).1 := by
  simp only [addExact]
  split_ifs with hnil hsame
  · exact ⟨id, by simp [recordExact, hnil], rfl⟩
  · refine ⟨id, ?_, rfl⟩
    have hentry : ({ s.consumed t with
        exactSeqs := (s.consumed t).exactSeqs.merge (s.consumed t).seq ns } : ConsumedSeqEntry) =
          s.consumed t := by rw [hsame]
    simp only [recordExact, if_neg hnil]
    exact (s.saved.withTarget_self t).symm.trans (congrArg (s.saved.withTarget t) hentry.symm)
  · refine ⟨id, ?_, rfl⟩
    simp only [recordExact, if_neg hnil]
    rfl

lemma works_takeReadOrder (t : Target) (n : Nat) :
    Works (·.review t n) s (s.takeReadOrder t n) := ⟨id, rfl, rfl⟩

lemma works_setAlias (spelling canonical : Target) :
    Works (·.addAlias spelling canonical) s (s.setAlias spelling canonical).1 := by
  refine ⟨?_, ?_, ?_⟩
  · simp only [setAlias]
    split_ifs <;> exact id
  · by_cases hnamed : (s.aliases canonical).getD canonical = spelling
    · have hcut : s.saved.cutAliases spelling canonical =
          fun t => if t = canonical then none else s.aliases t := if_pos hnamed
      have htarget : s.saved.aliasTarget spelling canonical = canonical := if_pos hnamed
      simp only [setAlias, addAlias, hcut, htarget, if_pos hnamed]
      split_ifs <;> rfl
    · have hcut : s.saved.cutAliases spelling canonical = s.aliases := if_neg hnamed
      have htarget : s.saved.aliasTarget spelling canonical =
          (s.aliases canonical).getD canonical := if_neg hnamed
      simp only [setAlias, addAlias, hcut, htarget, if_neg hnamed]
      split_ifs <;> rfl
  · simp only [setAlias]
    split_ifs <;> rfl

/-- The snapshot goes the way of `f`, and what is written is the new snapshot. -/
structure Consumes (f : ConsumedSeqState → ConsumedSeqState) (s s' : Index) : Prop where
  snapshot : s'.snapshot = f s.snapshot
  durable : s'.durable = s.durable ∨ s'.durable = some s'.snapshot

lemma durable_hydrate (s : Index) : s.hydrate.durable = s.durable := by
  rw [hydrate]
  split
  · rfl
  · split_ifs <;> rfl

lemma Works.persist_if (h : Works f s.hydrate s') (changed : Bool) :
    Consumes f s (if changed then s'.persist else s') := by
  have hloaded := h.loaded (loaded_hydrate s)
  have hsame : Consumes f s s' :=
    ⟨(snapshot_of_loaded hloaded).trans h.saved, .inl (h.durable.trans (durable_hydrate s))⟩
  split_ifs
  · rw [persist]
    split_ifs with hstore
    · exact hsame
    · have hhydrated : s'.hydrated = true := by
        rcases hloaded with hnone | hhydrated
        · simp [hnone] at hstore
        · exact hhydrated
      have hsnapshot : Index.snapshot { s' with
          durable := some ⟨s'.consumed, s'.aliases, s'.readContextCounter + 1⟩ } = s'.saved :=
        snapshot_of_loaded (Or.inr hhydrated)
      exact ⟨hsnapshot.trans h.saved, .inr (congrArg some hsnapshot.symm)⟩
  · exact hsame

lemma snapshot_congr (hc : s'.consumed = s.consumed) (ha : s'.aliases = s.aliases)
    (hr : s'.readContextCounter = s.readContextCounter) (hd : s'.durable = s.durable)
    (hh : s'.hydrated = s.hydrated) : s'.snapshot = s.snapshot := by
  simp only [snapshot, hydrate, hd, hh]
  split
  · simp only [saved, hc, ha, hr]
  · split_ifs
    · simp only [saved, hc, ha, hr]
    · rfl

/-- Neither the consumed state nor its copy changes. -/
def Spares (s s' : Index) : Prop := s'.snapshot = s.snapshot ∧ s'.durable = s.durable

lemma spares_refl (s : Index) : Spares s s := ⟨rfl, rfl⟩

lemma Spares.trans (h : Spares s s') (h' : Spares s' s'') : Spares s s'' :=
  ⟨h'.1.trans h.1, h'.2.trans h.2⟩

lemma Spares.consumes (h : Spares s s') : Consumes id s s' := ⟨h.1, .inl h.2⟩

lemma spares_hydrate (s : Index) : Spares s s.hydrate := by
  refine ⟨?_, durable_hydrate s⟩
  rw [snapshot_of_loaded (loaded_hydrate s), snapshot]

lemma spares_recordAttention (s : Index) (message : Delivery) (now : Nat) :
    Spares s (s.recordAttention message now) := by
  simp only [recordAttention, recordConversation]
  split_ifs
  · exact ⟨snapshot_congr rfl rfl rfl rfl rfl, rfl⟩
  · exact ⟨snapshot_congr rfl rfl rfl rfl rfl, rfl⟩

lemma spares_clearAll (s : Index) (targets : Target → Bool) : Spares s (s.clearAll targets) :=
  ⟨snapshot_congr rfl rfl rfl rfl rfl, rfl⟩

lemma works_foldl_recordExactTarget (shown : List (Target × List Nat)) (r : Index × Bool) :
    Works (fun c => shown.foldl ConsumedSeqState.recordShown c) r.1
      (shown.foldl recordExactTarget r).1 := by
  induction shown generalizing r with
  | nil => exact works_id
  | cons target shown ih =>
    have hone : Works (·.recordShown target) r.1 (recordExactTarget r target).1 := by
      simp only [recordExactTarget, recordShown]
      split_ifs with hempty
      · exact ⟨id, rfl, rfl⟩
      · exact (works_addExact target.1 target.2).trans (works_settleSeen target.1)
      · exact works_addExact target.1 target.2
    exact hone.trans (ih _)

lemma works_reviewIf (t : Target) (review : Option Nat) :
    Works (·.reviewIf t review) s
      (match review with
        | none          => s
        | some sequence => s.takeReadOrder t sequence) := by
  cases review with
  | none => exact ⟨id, rfl, rfl⟩
  | some n => exact works_takeReadOrder t n

lemma works_settleScopeIf (t : Target) (scope : Option ConsumptionScope) (shown : List Nat) :
    Works id s (match scope with
      | none       => s
      | some scope => s.settleScope scope shown t) := by
  cases scope with
  | none => exact works_id
  | some scope => exact works_settleScope _ _ _

/-- The bookkeeping works on the snapshot as the operations of the consumed state do. -/
theorem consumes_apply (b : Bookkeeping) (s : Index) : Consumes (·.consume b) s (b.apply s) := by
  cases b with
  | look => exact (spares_hydrate s).consumes
  | recordModelSeen t n =>
    simp only [Bookkeeping.apply, recordModelSeen, consume]
    by_cases hzero : n < 1
    · rw [if_pos hzero]
      have hid : (fun c : ConsumedSeqState => c.moveFrontier t n) = id := by
        funext c
        exact moveFrontier_of_le (by omega)
      exact hid ▸ (spares_refl s).consumes
    · rw [if_neg hzero]
      exact (works_advanceFrontier t n).persist_if _
  | recordReadContext t n => exact (works_takeReadOrder t n).persist_if true
  | recordExactSeen shown => exact (works_foldl_recordExactTarget shown (s.hydrate, false)).persist_if _
  | recordHistoryRead read =>
    have halias := works_setAlias (s := s.hydrate) read.spelling read.target
    have hmove : ∀ s : Index, Works (·.moveFrontier read.target read.through) s
        (if 0 < read.through then s.advanceFrontier read.target read.through else (s, false)).1 := by
      intro s
      split_ifs with hpos
      · exact works_advanceFrontier _ _
      · refine ⟨id, ?_, rfl⟩
        exact (moveFrontier_of_le (by omega)).symm
    exact (((((halias.trans (hmove _)).trans (works_addExact _ _)).trans
      (works_settleSeen _)).trans (works_reviewIf _ _)).trans (works_settleScopeIf _ _ _)).persist_if _
  | recordSendContext t through review =>
    simp only [Bookkeeping.apply, recordSendContext, consume]
    by_cases hzero : through < 1
    · simp only [if_pos hzero]
      exact (spares_refl s).consumes
    · simp only [if_neg hzero]
      exact ((works_advanceFrontier t through).trans (works_reviewIf t review)).persist_if _
  | recordTargetAlias spelling canonical => exact (works_setAlias spelling canonical).persist_if _
  | clear t => exact (spares_clearAll s _).consumes
  | clearThrough t n =>
    simp only [Bookkeeping.apply, clearThrough]
    split
    · exact (spares_clearAll s _).consumes
    · split_ifs
      · exact (spares_clearAll s _).consumes
      · exact (spares_refl s).consumes
  | clearTargets targets => exact (spares_clearAll s _).consumes
  | disk fails => exact ⟨snapshot_congr rfl rfl rfl rfl rfl, .inl rfl⟩

end Index

/-! ### Steps -/

namespace World

open Index

variable {w w' : World}

lemma spares_receive (message : Delivery) (hold session : Bool) (now : Nat) :
    w.index.Spares (w.receive message hold session now).index := by
  simp only [receive]
  split_ifs
  · exact spares_refl _
  · exact spares_refl _
  · exact spares_refl _
  · rw [index_announceAgain]
    exact spares_refl _
  · exact spares_hydrate _
  · exact (spares_hydrate _).trans (spares_recordAttention _ _ _)
  · rw [index_notifyAndAwait]
    exact (spares_hydrate _).trans (spares_recordAttention _ _ _)

lemma spares_announce (message : Delivery) (session : Bool) (now : Nat) :
    w.index.Spares (w.announce message session now).index := by
  simp only [announce]
  split_ifs
  · exact spares_refl _
  · exact spares_refl _
  · rw [index_announceAgain]
    exact spares_refl _
  · rw [index_notifyAndAwait]
    exact spares_recordAttention _ _ _

lemma spares_flushOne (now : Nat) (r : World × List String) (message : Delivery) :
    r.1.index.Spares (flushOne now r message).1.index := by
  simp only [flushOne]
  split_ifs
  · exact spares_refl _
  · exact spares_hydrate _
  · exact (spares_hydrate _).trans (spares_recordAttention _ _ _)

lemma spares_foldl_flushOne (now : Nat) (messages : List Delivery) (r : World × List String) :
    r.1.index.Spares (messages.foldl (flushOne now) r).1.index := by
  induction messages generalizing r with
  | nil => exact spares_refl _
  | cons message messages ih => exact (spares_flushOne now r message).trans (ih _)

lemma spares_flush (held : List Delivery) (session : Bool) (now : Nat) :
    w.index.Spares (w.flush held session now).index := by
  simp only [flush]
  split_ifs
  · exact spares_refl _
  · have hfold := spares_foldl_flushOne now (held.filter hasDeliveryScope)
      (w.withGeneration w.current, [])
    split
    · exact hfold
    · rw [index_notifyAndAwait]
      exact hfold

lemma spares_recordRecovered (message : RecoveryMessage) :
    w.index.Spares (w.recordRecovered message).index := by
  simp only [recordRecovered, recordConversation]
  split_ifs
  · exact ⟨snapshot_congr rfl rfl rfl rfl rfl, rfl⟩
  · exact ⟨snapshot_congr rfl rfl rfl rfl rfl, rfl⟩

lemma spares_foldl_recordRecovered (messages : List RecoveryMessage) (w : World) :
    w.index.Spares (messages.foldl recordRecovered w).index := by
  induction messages generalizing w with
  | nil => exact spares_refl _
  | cons message messages ih => exact (spares_recordRecovered message).trans (ih _)

lemma spares_answerRecovery {i : Nat} {accepted : Bool}
    (h : w.answerRecovery i accepted = some w') : w.index.Spares w'.index := by
  obtain ⟨r, -, rfl⟩ := answerRecovery_eq h
  split_ifs
  · refine Spares.trans ?_ (spares_foldl_recordRecovered r.messages _)
    exact ⟨snapshot_congr rfl rfl rfl rfl rfl, rfl⟩
  · exact spares_refl _

/-- What a step makes of the consumed state. The durable copy is what is left after a clearing. -/
def consume (w : World) (c : ConsumedSeqState) : Label → ConsumedSeqState
  | .bookkeeping b => c.consume b
  | .clearAgent    => (Index.init w.index.durable).snapshot
  | _              => c

/-- A step works on the snapshot as `consume` says, and what it writes is the new snapshot. -/
theorem consumes_step {l : Label} (h : step w l = some w') :
    Consumes (w.consume · l) w.index w'.index := by
  cases l with
  | receive message hold session now =>
    cases h
    exact (spares_receive message hold session now).consumes
  | announce message session now =>
    cases h
    exact (spares_announce message session now).consumes
  | flush held session now =>
    cases h
    exact (spares_flush held session now).consumes
  | recover messages unreadSummary session =>
    cases h
    rw [index_recover]
    exact (spares_refl _).consumes
  | answer notice accepted =>
    rw [index_answer h]
    exact (spares_refl _).consumes
  | forget notice =>
    rw [index_forget h]
    exact (spares_refl _).consumes
  | resume call =>
    rw [index_resume h]
    exact (spares_refl _).consumes
  | answerRecovery recovery accepted => exact (spares_answerRecovery h).consumes
  | bookkeeping b =>
    cases h
    exact consumes_apply b w.index
  | clearAgent =>
    cases h
    exact ⟨snapshot_congr rfl rfl rfl rfl rfl, .inl rfl⟩

end World

/-! ### Reachable consumed states -/

/-- The state of an index none of whose operations has run is the one it is going to load. -/
lemma snapshot_init {c : ConsumedSeqState} (h : 0 < c.nextReadOrder) :
    (Index.init (some c)).snapshot = c := by
  have hnext : c.nextReadOrder - 1 + 1 = c.nextReadOrder := Nat.sub_add_cancel h
  have hsnapshot : (Index.init (some c)).snapshot =
      ⟨c.targets, c.aliases, c.nextReadOrder - 1 + 1⟩ := rfl
  rw [hsnapshot, hnext]

/-- A condition on the bookkeeping among the steps. -/
def Label.Meets (ok : Bookkeeping → Prop) : Label → Prop
  | .bookkeeping b => ok b
  | _              => True

/-- A property of consumed states that holds of what is loaded and is kept by the operations. -/
structure Lasting (ok : Bookkeeping → Prop) (P : ConsumedSeqState → Prop) : Prop where
  empty : P .empty
  next : ∀ c, P c → 0 < c.nextReadOrder
  consume : ∀ b c, ok b → P c → P (c.consume b)

/-- The snapshot has the property, and so has the durable copy. -/
structure Holds (P : ConsumedSeqState → Prop) (s : Index) : Prop where
  snapshot : P s.snapshot
  durable : ∀ c, s.durable = some c → P c

variable {ok : Bookkeeping → Prop} {P : ConsumedSeqState → Prop}

lemma holds_init (hP : Lasting ok P) {durable : Option ConsumedSeqState}
    (h : ∀ c, durable = some c → P c) : Holds P (Index.init durable) := by
  refine ⟨?_, h⟩
  cases durable with
  | none => exact hP.empty
  | some c =>
    rw [snapshot_init (hP.next c (h c rfl))]
    exact h c rfl

lemma Holds.step (hP : Lasting ok P) {w w' : World} {l : Label} (h : Holds P w.index)
    (hok : l.Meets ok) (hstep : Attention.step w l = some w') : Holds P w'.index := by
  obtain ⟨hsnapshot, hdurable⟩ := World.consumes_step hstep
  have hnew : P w'.index.snapshot := by
    rw [hsnapshot]
    cases l with
    | bookkeeping b => exact hP.consume b _ hok h.snapshot
    | clearAgent => exact (holds_init hP h.durable).snapshot
    | _ => exact h.snapshot
  refine ⟨hnew, fun c hc => ?_⟩
  rcases hdurable with hsame | hwritten
  · exact h.durable c (hsame.symm.trans hc)
  · exact Option.some.inj (hwritten.symm.trans hc) ▸ hnew

/-- What is lasting holds of every reachable consumed state. -/
theorem holds_run (hP : Lasting ok P) {ws : String} {durable : Option ConsumedSeqState}
    {ls : List Label} {w : World} (hdurable : ∀ c, durable = some c → P c)
    (hok : Permitted step (fun _ l => l.Meets ok) (.init ws durable) ls)
    (hrun : run step (.init ws durable) ls = some w) : Holds P w.index :=
  @invariant _ _ _ _ (fun w => Holds P w.index) (fun _ _ _ h hok hstep => h.step hP hok hstep)
    _ _ _ (holds_init hP hdurable) hok hrun

end Coforge.Attention
