import Coforge.Display.Scripts
import Coforge.Lib.Run
import Coforge.Lib.Trace

/-!
# Revisions grow

A revision exceeds the counter of its scope, which keeps the last one that was issued, so the
revisions of a scope grow, as long as doubles have successors. In a batch the counter that is read
is the one of the first scope. What a batch issues is still what single snapshots would, wherever
the clock, the state or the first counter comes to the same as the scope's own counter does.
-/

namespace Coforge.Display

open Transition Trace

inductive Operation where
  | observeStatus (frame : AgentStatus) (now : Nat)
  | observeActivity (frame : AgentActivity) (fence : Fence) (now : Nat)
  | putContextUsage (frame : AgentContextUsage) (now : Nat)
  | snapshotMany (scopes : List Scope) (now : Nat)
  | sweepStale (scope : Scope) (probeId : String) (timeoutMs now : Nat)
  /-- The 24 hours of a display state are over. -/
  | expire (scope : Scope)
  deriving DecidableEq, Repr

section Runs

variable (time : Nat → Nat)

def step (db : Store) : Operation → Option Store
  | .observeStatus frame now => some (observeStatus time frame now db).1
  | .observeActivity frame fence now => some (observeActivity time frame fence now db).1
  | .putContextUsage frame now => some (putContextUsage time frame now db).1
  | .snapshotMany scopes now => some (snapshotMany time scopes now db).1
  | .sweepStale scope probeId timeoutMs now => some (sweepStale time scope probeId timeoutMs now db).1
  | .expire scope => some { db with states := Function.update db.states scope none }

/-- Each scope's snapshot taken alone, in order. -/
def snapshotsAlone (now : Nat) : List Scope → Store → Store × List AgentDisplaySnapshot
  | [], db => (db, [])
  | scope :: scopes, db =>
    let (db, shown) := snapshotMany time [scope] now db
    let (db, rest) := snapshotsAlone now scopes db
    (db, shown ++ rest)

/-- Each revision exceeds those issued for its scope before. -/
def Growing (issued : List (Scope × Nat)) : Prop :=
  Each (fun past x => ∀ y ∈ past, y.1 = x.1 → y.2 < x.2) issued

/-- A batch returns and stores what the single snapshots do. -/
def AsAlone (db : Store) : Operation → Prop
  | .snapshotMany scopes now => snapshotMany time scopes now db = snapshotsAlone time now scopes db
  | _ => True

/-! ### When the batch can be told from single snapshots -/

def Store.counter (db : Store) (scope : Scope) : Nat := (db.revisions scope).getD 0

/-- A snapshot of the scope takes a revision. -/
def Takes (db : Store) (scope : Scope) (now : Nat) : Prop :=
  (db.states scope).all fun state => (state.projection now).isSome

/-- At its turn each scope that takes a revision has a counter that doubles can count on from, and
gets from the first scope's counter what it would get from its own. -/
def Sound (first : Scope) (now : Nat) : List Scope → Store → Prop
  | [], _ => True
  | scope :: scopes, db =>
    (Takes db scope now → db.counter scope < doubleLimit ∧
      nextRevision (time db.reads) (db.counter first) (db.state scope) =
        nextRevision (time db.reads) (db.counter scope) (db.state scope)) ∧
      Sound first now scopes (takeSnapshot time first scope now db).1

/-- The counter of the scope and the revision of its state leave room for two more. -/
def Room (db : Store) (scope : Scope) : Prop :=
  db.counter scope + 1 < doubleLimit ∧ (db.state scope).revision.getD 0 + 1 < doubleLimit

/-- What keeps the revisions of a step growing. -/
def Grows (db : Store) : Operation → Prop
  | .observeStatus frame _ => Room db frame.scope
  | .observeActivity frame _ _ => Room db frame.scope
  | .putContextUsage frame _ => Room db frame.scope
  | .sweepStale scope _ _ _ => Room db scope
  | .snapshotMany [] _ => True
  | .snapshotMany (first :: scopes) now => Sound time first now (first :: scopes) db
  | .expire _ => True

end Runs

/-! ### One revision -/

/-- The revisions grew so far, and the counters keep the last ones. -/
structure Good (db : Store) : Prop where
  growing : Growing db.issued
  counted : ∀ x ∈ db.issued, x.2 ≤ db.counter x.1

section Revision

variable {time : Nat → Nat} {db : Store} {scope readKey : Scope} {state : DisplayState} {now : Nat}

lemma Good.congr {db' : Store} (h : Good db) (hissued : db'.issued = db.issued)
    (hrevisions : db'.revisions = db.revisions) : Good db' := by
  constructor
  · rw [hissued]
    exact h.growing
  · rw [hissued]
    intro x hx
    rw [Store.counter, hrevisions]
    exact h.counted x hx

lemma lt_successor {n : Nat} (h : n < doubleLimit) : n < successor n := by
  rw [successor]
  omega

lemma lt_nextRevision {clock counter : Nat} (h : counter < doubleLimit) :
    counter < nextRevision clock counter state := by
  have hsucc := lt_successor h
  rw [nextRevision]
  omega

lemma good_revision (h : Good db) (hroom : db.counter scope < doubleLimit)
    (hsame : nextRevision (time db.reads) (db.counter readKey) state =
      nextRevision (time db.reads) (db.counter scope) state) :
    Good (revision time readKey scope db state).1 := by
  have hlt : db.counter scope < nextRevision (time db.reads) (db.counter scope) state :=
    lt_nextRevision hroom
  rw [← hsame] at hlt
  constructor
  · refine ⟨fun y hy hscope => ?_, h.growing⟩
    have hle := h.counted y hy
    rw [show y.1 = scope from hscope] at hle
    exact lt_of_le_of_lt hle hlt
  · intro x hx
    rcases List.mem_cons.mp hx with rfl | hx
    · simp [Store.counter, revision]
    · have hle := h.counted x hx
      by_cases hscope : x.1 = scope
      · rw [hscope] at hle ⊢
        simp only [Store.counter, revision, Function.update_self, Option.getD_some]
        exact le_of_lt (lt_of_le_of_lt hle hlt)
      · simp only [Store.counter, revision, Function.update_of_ne hscope]
        exact hle

lemma good_revision_own (h : Good db) (hroom : db.counter scope < doubleLimit) :
    Good (revision time scope scope db state).1 := good_revision h hroom rfl

lemma projection_revision {projected : DisplayState} (h : state.projection now = some projected) :
    projected.revision = state.revision := by
  obtain ⟨process, -, h⟩ := Option.bind_eq_some_iff.mp h
  split_ifs at h
  · cases h
    rfl
  · obtain ⟨activity, -, h⟩ := Option.bind_eq_some_iff.mp h
    split_ifs at h
    cases h
    rfl

lemma nextRevision_congr {clock counter : Nat} {state state' : DisplayState}
    (h : state.revision = state'.revision) :
    nextRevision clock counter state = nextRevision clock counter state' := by
  rw [nextRevision, nextRevision, h]

lemma good_project (now : Nat) (htime : ∀ n, time n < doubleLimit) (h : Good db) (hroom : Room db scope)
    (hstate : state = db.state scope) : Good (project time scope scope now db state).1 ∧
      (project time scope scope now db state).1.counter scope < doubleLimit := by
  subst hstate
  obtain ⟨hcounter, hrevision⟩ := hroom
  rw [project]
  split
  case h_1 projected hprojected =>
    refine ⟨good_revision_own h (by omega), ?_⟩
    have hclock := htime db.reads
    simp only [Store.counter, revision, Function.update_self, Option.getD_some, nextRevision,
      projection_revision hprojected, successor]
    simp only [Store.counter] at hcounter
    omega
  case h_2 => exact ⟨h, Nat.lt_of_succ_lt hcounter⟩

end Revision

/-! ### One operation -/

section Step

variable {time : Nat → Nat} {db : Store}

lemma good_reject {scope : Scope} {projected : Bool} {state : DisplayState} (h : Good db) :
    Good (reject scope projected db state) := by
  rw [reject]
  split_ifs
  · exact h.congr rfl rfl
  · exact h

lemma good_observeStatus (htime : ∀ n, time n < doubleLimit) {frame : AgentStatus} {now : Nat}
    (h : Good db) (hroom : Room db frame.scope) : Good (observeStatus time frame now db).1 := by
  have hproject := good_project now htime h hroom rfl
  simp only [observeStatus]
  rcases heq : project time frame.scope frame.scope now db (db.state frame.scope) with
    ⟨db', state, projected⟩
  rw [heq] at hproject
  obtain ⟨hgood, hlt⟩ := hproject
  simp only
  by_cases haccepts : state.acceptsStatus frame
  · rw [if_pos haccepts]
    by_cases hinactive : frame.status = .inactive
    · rw [if_pos hinactive]
      have hremoved : Good (db'.zrem frame.scope) := hgood.congr rfl rfl
      exact (good_revision_own hremoved hlt).congr rfl rfl
    · rw [if_neg hinactive]
      exact (good_revision_own hgood hlt).congr rfl rfl
  · rw [if_neg haccepts]
    exact good_reject hgood

lemma good_observeActivity (htime : ∀ n, time n < doubleLimit) {frame : AgentActivity}
    {fence : Fence} {now : Nat} (h : Good db) (hroom : Room db frame.scope) :
    Good (observeActivity time frame fence now db).1 := by
  have hproject := good_project now htime h hroom rfl
  rw [observeActivity]
  cases activityKindForObservation frame with
  | none => exact h
  | some kind =>
    simp only
    rcases heq : project time frame.scope frame.scope now db (db.state frame.scope) with
      ⟨db', state, projected⟩
    rw [heq] at hproject
    obtain ⟨hgood, hlt⟩ := hproject
    simp only
    by_cases haccepts : state.acceptsActivity frame fence now
    · rw [if_pos haccepts]
      have hindexed : Good (if kind.busy then db'.zadd frame.scope (now + workingLeaseMs)
          else db'.zrem frame.scope) := by
        split_ifs
        · exact hgood.congr rfl rfl
        · exact hgood.congr rfl rfl
      have hcounter : (if kind.busy then db'.zadd frame.scope (now + workingLeaseMs)
          else db'.zrem frame.scope).counter frame.scope < doubleLimit := by
        split_ifs
        · exact hlt
        · exact hlt
      by_cases hchanges : !frame.isFiller || state.visiblyChanges frame kind
      · rw [if_pos hchanges]
        exact (good_revision_own hindexed hcounter).congr rfl rfl
      · rw [if_neg hchanges]
        exact hindexed.congr rfl rfl
    · rw [if_neg haccepts]
      exact good_reject hgood

lemma good_putContextUsage (htime : ∀ n, time n < doubleLimit) {frame : AgentContextUsage}
    {now : Nat} (h : Good db) (hroom : Room db frame.scope) :
    Good (putContextUsage time frame now db).1 := by
  have hproject := good_project now htime h hroom rfl
  simp only [putContextUsage]
  rcases heq : project time frame.scope frame.scope now db (db.state frame.scope) with
    ⟨db', state, projected⟩
  rw [heq] at hproject
  obtain ⟨hgood, hlt⟩ := hproject
  simp only
  by_cases haccepts : state.acceptsUsage frame
  · rw [if_pos haccepts]
    by_cases hchanges : state.usageChanges frame
    · rw [if_pos hchanges]
      exact (good_revision_own hgood hlt).congr rfl rfl
    · rw [if_neg hchanges]
      exact hgood.congr rfl rfl
  · rw [if_neg haccepts]
    exact good_reject hgood

lemma good_sweepStale {scope : Scope} {probeId : String} {timeoutMs now : Nat} (h : Good db)
    (hroom : Room db scope) : Good (sweepStale time scope probeId timeoutMs now db).1 := by
  have hlt : db.counter scope < doubleLimit := Nat.lt_of_succ_lt hroom.1
  rw [sweepStale]
  simp only
  split
  · exact h.congr rfl rfl
  · split_ifs
    · exact h.congr rfl rfl
    · split
      · split_ifs
        · exact h
        · exact (good_revision_own h hlt).congr rfl rfl
      · exact h.congr rfl rfl

/-! ### Batches -/

lemma project_congr {readKey scope : Scope} {now : Nat} {state : DisplayState}
    (h : (state.projection now).isSome → nextRevision (time db.reads) (db.counter readKey) state =
        nextRevision (time db.reads) (db.counter scope) state) :
    project time readKey scope now db state = project time scope scope now db state := by
  rw [project, project]
  cases hprojection : state.projection now with
  | none => rfl
  | some projected =>
    have hnext := h (by rw [hprojection]; rfl)
    have hsame : ∀ counter, nextRevision (time db.reads) counter projected =
        nextRevision (time db.reads) counter state :=
      fun counter => nextRevision_congr (projection_revision hprojection)
    simp only [Store.counter, ← hsame] at hnext
    simp only [revision, hnext]

/-- At its turn a scope gets from the first scope's counter what it gets from its own. -/
lemma takeSnapshot_congr {readKey scope : Scope} {now : Nat}
    (h : Takes db scope now → nextRevision (time db.reads) (db.counter readKey) (db.state scope) =
      nextRevision (time db.reads) (db.counter scope) (db.state scope)) :
    takeSnapshot time readKey scope now db = takeSnapshot time scope scope now db := by
  rw [takeSnapshot, takeSnapshot]
  cases hstate : db.states scope with
  | none =>
    have hnext := h (by rw [Takes, hstate]; rfl)
    simp only [Store.counter, Store.state, hstate, Option.getD_none] at hnext
    simp only [revision, hnext]
  | some state =>
    have hproject : project time readKey scope now db state =
        project time scope scope now db state := by
      refine project_congr fun htakes => ?_
      have hnext := h (by rw [Takes, hstate]; exact htakes)
      rwa [Store.state, hstate] at hnext
    simp only [hproject]

lemma snapshotMany_one (scope : Scope) (now : Nat) : snapshotMany time [scope] now db =
      ((takeSnapshot time scope scope now db).1, [(takeSnapshot time scope scope now db).2]) := rfl

lemma takeSnapshots_eq {first : Scope} {now : Nat} {scopes : List Scope}
    (h : Sound time first now scopes db) :
    takeSnapshots time first now scopes db = snapshotsAlone time now scopes db := by
  induction scopes generalizing db with
  | nil => rfl
  | cons scope scopes ih =>
    obtain ⟨hturn, hrest⟩ := h
    have hsame := takeSnapshot_congr fun htakes => (hturn htakes).2
    rw [hsame] at hrest
    simp only [takeSnapshots, snapshotsAlone, snapshotMany_one, hsame, ih hrest]
    rfl

lemma good_project_from {readKey scope : Scope} {now : Nat} {state : DisplayState} (h : Good db)
    (hturn : (state.projection now).isSome → db.counter scope < doubleLimit ∧
      nextRevision (time db.reads) (db.counter readKey) state =
        nextRevision (time db.reads) (db.counter scope) state) :
    Good (project time readKey scope now db state).1 := by
  rw [project]
  cases hprojection : state.projection now with
  | none => exact h
  | some projected =>
    obtain ⟨hlt, hnext⟩ := hturn (by rw [hprojection]; rfl)
    have hsame : ∀ counter, nextRevision (time db.reads) counter projected =
        nextRevision (time db.reads) counter state :=
      fun counter => nextRevision_congr (projection_revision hprojection)
    simp only [← hsame] at hnext
    exact good_revision h hlt hnext

lemma good_takeSnapshot {readKey scope : Scope} {now : Nat} (h : Good db)
    (hturn : Takes db scope now → db.counter scope < doubleLimit ∧
      nextRevision (time db.reads) (db.counter readKey) (db.state scope) =
        nextRevision (time db.reads) (db.counter scope) (db.state scope)) :
    Good (takeSnapshot time readKey scope now db).1 := by
  rw [takeSnapshot]
  cases hstate : db.states scope with
  | none =>
    obtain ⟨hlt, hnext⟩ := hturn (by rw [Takes, hstate]; rfl)
    rw [Store.state, hstate] at hnext
    exact (good_revision h hlt hnext).congr rfl rfl
  | some state =>
    have hproject : Good (project time readKey scope now db state).1 := by
      refine good_project_from h fun htakes => ?_
      have hnext := hturn (by rw [Takes, hstate]; exact htakes)
      rwa [Store.state, hstate] at hnext
    rcases heq : project time readKey scope now db state with ⟨db', state', changed⟩
    rw [heq] at hproject
    simp only [heq]
    split_ifs
    · exact hproject.congr rfl rfl
    · exact hproject

lemma good_takeSnapshots {first : Scope} {now : Nat} {scopes : List Scope} (h : Good db)
    (hsound : Sound time first now scopes db) : Good (takeSnapshots time first now scopes db).1 := by
  induction scopes generalizing db with
  | nil => exact h
  | cons scope scopes ih => exact ih (good_takeSnapshot h hsound.1) hsound.2

theorem good_step (htime : ∀ n, time n < doubleLimit) {op : Operation} {db' : Store} (h : Good db)
    (hgrows : Grows time db op) (hstep : step time db op = some db') :
    Good db' ∧ AsAlone time db op := by
  cases op with
  | observeStatus frame now =>
    cases hstep
    exact ⟨good_observeStatus htime h hgrows, trivial⟩
  | observeActivity frame fence now =>
    cases hstep
    exact ⟨good_observeActivity htime h hgrows, trivial⟩
  | putContextUsage frame now =>
    cases hstep
    exact ⟨good_putContextUsage htime h hgrows, trivial⟩
  | sweepStale scope probeId timeoutMs now =>
    cases hstep
    exact ⟨good_sweepStale h hgrows, trivial⟩
  | expire scope =>
    cases hstep
    exact ⟨h.congr rfl rfl, trivial⟩
  | snapshotMany scopes now =>
    cases hstep
    cases scopes with
    | nil => exact ⟨h, rfl⟩
    | cons first scopes => exact ⟨good_takeSnapshots h hgrows, takeSnapshots_eq hgrows⟩

end Step

/-- Along a run in which doubles leave the revisions room to grow, and the scopes of a batch get
from the first one's counter what they get from their own, the revisions of each scope grow, and
each batch returns and stores what the single snapshots do. -/
theorem revisions_grow {time : Nat → Nat} {db db' : Store} {ops : List Operation}
    (htime : ∀ n, time n < doubleLimit) (hnew : db.issued = [])
    (hok : Permitted (step time) (Grows time) db ops) (hrun : run (step time) db ops = some db') :
    Growing db'.issued ∧ Permitted (step time) (AsAlone time) db ops := by
  have hgood : Good db := by
    constructor
    · rw [hnew]
      trivial
    · rw [hnew]
      exact nofun
  have hkept : ∀ s op t, Good s → Grows time s op → step time s op = some t → Good t :=
    fun s op t hs hgrows hstep => (good_step htime hs hgrows hstep).1
  refine ⟨(invariant hkept hgood hok hrun).growing, ?_⟩
  refine Permitted.imp hkept (fun s op hs hgrows => ?_) hgood hok
  obtain ⟨t, ht⟩ : ∃ t, step time s op = some t := by cases op <;> exact ⟨_, rfl⟩
  exact (good_step htime hs hgrows ht).2

/-! ### Two scopes -/

def firstScope : Scope := ⟨"workspace", "computer", "first"⟩
def secondScope : Scope := ⟨"workspace", "computer", "second"⟩

/-- A batch of two scopes that are new, by a clock that moves on. -/
theorem new_scopes_grow : Growing [(secondScope, 6), (firstScope, 5)] ∧
      Permitted (step fun n => if n = 0 then 5 else 6) (AsAlone fun n => if n = 0 then 5 else 6)
        Store.empty [.snapshotMany [firstScope, secondScope] 0] := by
  have htime : ∀ n, (fun n => if n = 0 then 5 else 6) n < doubleLimit := by
    intro n
    show (if n = 0 then 5 else 6) < doubleLimit
    split_ifs <;> decide
  have hgrows : Grows (fun n => if n = 0 then 5 else 6) Store.empty
      (.snapshotMany [firstScope, secondScope] 0) :=
    ⟨fun _ => ⟨by decide, rfl⟩, fun _ => ⟨by decide, by decide⟩, trivial⟩
  have hok : Permitted (step fun n => if n = 0 then 5 else 6)
      (Grows fun n => if n = 0 then 5 else 6) Store.empty
      [.snapshotMany [firstScope, secondScope] 0] := ⟨hgrows, fun _ _ => trivial⟩
  exact revisions_grow htime rfl hok rfl

/-- The clock went back and the second scope's state is over: in a batch behind a scope that is new,
it gets a revision below the one it had. -/
theorem batch_goes_back : ∃ db, run (step fun n => if n = 0 then 100 else 1) Store.empty
        [.snapshotMany [secondScope] 0, .expire secondScope,
          .snapshotMany [firstScope, secondScope] 0] = some db ∧
      db.issued = [(secondScope, 2), (firstScope, 1), (secondScope, 100)] ∧ ¬Growing db.issued := by
  refine ⟨_, rfl, by decide, fun h => ?_⟩
  exact absurd (h.1 (secondScope, 100) (by decide) rfl) (by decide)

end Coforge.Display
