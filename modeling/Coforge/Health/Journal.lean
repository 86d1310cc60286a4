import Coforge.Lib.Json
import Coforge.Lib.Run

/-!
# The health journal of a Workspace

`WorkspaceHealthJournal` keeps the crashes and latches of one Workspace in a file. Each of its
operations reads the whole record, and later puts an edited one in its place at once. The Workspace
process and the Coordinator both do so, and nothing keeps one from reading before the other has
written.

A park is to last until `clearParked`. `Fresh` is the condition that no operation writes over it
with what it read before the journal was parked.
-/

namespace Coforge.Health

open Transition

/-! ### The record -/

/-- What JavaScript makes of a number that is no integer, or is too large for one: whether it is
finite, and whether it lies in the crash window before an instant. -/
structure Numerals where
  finite : String → Bool
  recent : Int → String → Bool

/-- `DaemonConnectRejectionReason`. -/
inductive RejectionReason where
  | workspaceDeleted | computerUnlinked
deriving DecidableEq

def RejectionReason.text : RejectionReason → String
  | .workspaceDeleted => "workspace_deleted"
  | .computerUnlinked => "computer_unlinked"

/-- `WORKSPACE_HEALTH_CRASH_WINDOW_MS`. -/
def crashWindow : Int := 60000

/-- `WORKSPACE_HEALTH_DEGRADED_THRESHOLD`. -/
def degradedThreshold : Nat := 3

def emptyRecord : Json :=
  .obj [("schemaVersion", .int 1), ("live", .bool false), ("crashes", .arr [])]

section Record

variable (n : Numerals)

/-- `Number.isFinite`. -/
def isFinite : Option Json → Bool
  | some (.int _)       => true
  | some (.real digits) => n.finite digits
  | _                   => false

/-- The value is `1`. -/
def isOne (value : Option Json) : Bool :=
  match value with
  | some (.int k) => k = 1
  | _             => false

def validCrashes : Option Json → Bool
  | some (.arr crashes) => crashes.all fun crash => isFinite n (some crash)
  | _                   => false

def validTerminal (terminal : Json) : Bool :=
  (Json.text? (terminal.get? "reason")).isSome && isFinite n (terminal.get? "at")

/-- `isDaemonConnectRejectionReason`. -/
def isRejectionReason (value : Option Json) : Bool :=
  Json.isStr value "workspace_deleted" || Json.isStr value "computer_unlinked"

def validParked (parked : Json) : Bool :=
  isRejectionReason (parked.get? "reason") && isFinite n (parked.get? "at")

def validDegraded (degraded : Json) : Bool :=
  isFinite n (degraded.get? "crashCount") && isFinite n (degraded.get? "at")

/-- A field that is missing or passes. -/
def optional (value : Option Json) (check : Json → Bool) : Bool :=
  match value with
  | none   => true
  | some v => check v

def valid (record : Json) : Bool :=
  isOne (record.get? "schemaVersion") && Json.isBool (record.get? "live") &&
    validCrashes n (record.get? "crashes") &&
    optional (record.get? "terminal") (validTerminal n) &&
    optional (record.get? "parked") (validParked n) &&
    optional (record.get? "degraded") (validDegraded n)

/-- `#read`: what is missing or no journal reads as an empty one. -/
def readFile (file : Option Json) : Json :=
  match file with
  | none       => emptyRecord
  | some value => if valid n value then value else emptyRecord

/-- A crash lies in the window before this instant. -/
def isRecent (now : Int) : Json → Bool
  | .int crash   => now - crash < crashWindow
  | .real digits => n.recent now digits
  | _            => false

def pruneWindow (crashes : List Json) (now : Int) : List Json := crashes.filter (isRecent n now)

/-- `WorkspaceHealthState`. `since` is the number of which the source makes a text. -/
inductive HealthState where
  | ok
  | degraded (reason : String) (crashCount : Option Json) (since : Option Json)
  | parked (reason : Option Json) (since : Option Json)

def crashLoopReason : String := "this Workspace exited unexpectedly 3 times within 60s"

def state (record : Json) (now : Int) : HealthState :=
  match record.get? "parked" with
  | some parked => .parked (parked.get? "reason") (parked.get? "at")
  | none =>
    match record.get? "terminal" with
    | some terminal =>
      .degraded (Json.textOf (terminal.get? "reason"))
        (some (.int (pruneWindow n (Json.items (record.get? "crashes")) now).length))
        (terminal.get? "at")
    | none =>
      match record.get? "degraded" with
      | some degraded =>
        .degraded crashLoopReason (degraded.get? "crashCount") (degraded.get? "at")
      | none => .ok

/-! ### Operations -/

/-- The operations that write. -/
inductive Operation where
  | recordStart
  | recordGracefulStop
  | recordCrash (instant : Int)
  | markTerminal (reason : String)
  | markParked (reason : RejectionReason)
  | clearParked
  | clear
deriving DecidableEq

/-- The crashes of a record with one more. -/
def crashesWith (record : Json) (instant now : Int) : List Json :=
  pruneWindow n (Json.items (record.get? "crashes") ++ [.int instant]) now

/-- The record with one more crash, and the latch where there are too many. -/
def withCrash (record : Json) (instant now : Int) : Json :=
  let crashes := crashesWith n record instant now
  if degradedThreshold ≤ crashes.length then
    (record.set "crashes" (.arr crashes)).set "degraded"
      (.obj [("crashCount", .int crashes.length), ("at", .int instant)])
  else record.set "crashes" (.arr crashes)

/-- What an operation puts in the place of the record it has read, unless it leaves it. -/
def Operation.edit (now : Int) (record : Json) : Operation → Option Json
  | .recordStart => some (record.set "live" (.bool true))
  | .recordGracefulStop => some (record.set "live" (.bool false))
  | .recordCrash instant =>
    if (record.get? "terminal").isSome || (record.get? "degraded").isSome then none
    else some (withCrash n record instant now)
  | .markTerminal reason =>
    some (record.set "terminal" (.obj [("reason", .str reason), ("at", .int now)]))
  | .markParked reason =>
    some (record.set "parked" (.obj [("reason", .str reason.text), ("at", .int now)]))
  | .clearParked =>
    some ((((record.set "crashes" (.arr [])).erase "terminal").erase "degraded").erase "parked")
  | .clear => some (((record.set "crashes" (.arr [])).erase "terminal").erase "degraded")

end Record

def Operation.parks : Operation → Bool
  | .markParked _ => true
  | _             => false

section Edits

variable {n : Numerals} {record next : Json} {now : Int}

lemma valid_emptyRecord : valid n emptyRecord := rfl

lemma isRecord_of_valid (h : valid n record) : record.isRecord := by
  cases record with
  | obj _ => rfl
  | _ => cases h

lemma valid_readFile (file : Option Json) : valid n (readFile n file) := by
  cases file with
  | none => exact valid_emptyRecord
  | some value =>
    simp only [readFile]
    split_ifs with h
    · exact h
    · exact valid_emptyRecord

lemma readFile_of_valid (h : valid n record) : readFile n (some record) = record := by
  rw [readFile, if_pos h]

lemma optional_none {check : Json → Bool} : optional none check := rfl

lemma optional_some {v : Json} {check : Json → Bool} : optional (some v) check = check v := rfl

lemma valid_latches (reason : String) (park : RejectionReason) (crashCount instant : Int) :
    validTerminal n (.obj [("reason", .str reason), ("at", .int instant)]) ∧
      validParked n (.obj [("reason", .str park.text), ("at", .int instant)]) ∧
      validDegraded n (.obj [("crashCount", .int crashCount), ("at", .int instant)]) := by
  refine ⟨rfl, ?_, rfl⟩
  cases park <;> rfl

lemma validCrashes_crashesWith (h : validCrashes n (record.get? "crashes")) (instant : Int) :
    validCrashes n (some (.arr (crashesWith n record instant now))) := by
  rw [validCrashes, List.all_eq_true]
  intro crash hcrash
  obtain ⟨hmem, -⟩ := List.mem_filter.mp hcrash
  rcases List.mem_append.mp hmem with hold | hnew
  · cases hcrashes : record.get? "crashes" with
    | none =>
      rw [hcrashes] at hold
      cases hold
    | some value =>
      rw [hcrashes] at h hold
      cases value with
      | arr crashes => exact List.all_eq_true.mp h crash hold
      | _ => cases hold
  · rw [List.mem_singleton.mp hnew]
    rfl

lemma valid_edit {op : Operation} (h : valid n record) (hedit : op.edit n now record = some next) :
    valid n next := by
  have hrecord := isRecord_of_valid h
  simp only [valid, Bool.and_eq_true] at h ⊢
  obtain ⟨⟨⟨⟨⟨hversion, hlive⟩, hcrashes⟩, hterminal⟩, hparked⟩, hdegraded⟩ := h
  cases op with
  | recordStart =>
    cases hedit
    simp [Json.get?_set hrecord, hversion, hcrashes, hterminal, hparked, hdegraded, Json.isBool]
  | recordGracefulStop =>
    cases hedit
    simp [Json.get?_set hrecord, hversion, hcrashes, hterminal, hparked, hdegraded, Json.isBool]
  | recordCrash instant =>
    obtain ⟨-, hedit⟩ := Option.ite_none_left_eq_some.mp hedit
    cases hedit
    have hkept := @validCrashes_crashesWith n _ now hcrashes instant
    have hlatch := (valid_latches (n := n) "" .workspaceDeleted
      (crashesWith n record instant now).length instant).2.2
    rw [withCrash]
    split_ifs
    · simp [Json.get?_set, hrecord, hversion, hlive, hkept, hterminal, hparked, optional_some, hlatch]
    · simp [Json.get?_set, hrecord, hversion, hlive, hkept, hterminal, hparked, hdegraded]
  | markTerminal reason =>
    cases hedit
    have hlatch := (valid_latches (n := n) reason .workspaceDeleted 0 now).1
    simp [Json.get?_set hrecord, hversion, hlive, hcrashes, hparked, hdegraded, optional_some, hlatch]
  | markParked reason =>
    cases hedit
    have hlatch := (valid_latches (n := n) "" reason 0 now).2.1
    simp [Json.get?_set hrecord, hversion, hlive, hcrashes, hterminal, hdegraded, optional_some,
      hlatch]
  | clearParked =>
    cases hedit
    simp [Json.get?_set hrecord, hversion, hlive, optional_none, validCrashes]
  | clear =>
    cases hedit
    simp [Json.get?_set hrecord, hversion, hlive, hparked, optional_none, validCrashes]

/-- Only `clearParked` lifts a park that the record had. -/
lemma parked_edit {op : Operation} (h : valid n record) (hop : op ≠ .clearParked)
    (hparked : (record.get? "parked").isSome) (hedit : op.edit n now record = some next) :
    (next.get? "parked").isSome := by
  have hrecord := isRecord_of_valid h
  cases op with
  | recordCrash instant =>
    obtain ⟨-, hedit⟩ := Option.ite_none_left_eq_some.mp hedit
    cases hedit
    rw [withCrash]
    split_ifs <;> simp [Json.get?_set, hrecord, hparked]
  | clearParked => exact absurd rfl hop
  | _ => cases hedit; simp [Json.get?_set hrecord, hparked]

/-- `markParked` parks whatever it has read. -/
lemma parked_parks {op : Operation} (h : valid n record) (hop : op.parks)
    (hedit : op.edit n now record = some next) : (next.get? "parked").isSome := by
  cases op with
  | markParked reason =>
    cases hedit
    simp [Json.get?_set (isRecord_of_valid h)]
  | _ => cases hop

lemma state_of_parked (h : (record.get? "parked").isSome) :
    ∃ reason since, state n record now = .parked reason since := by
  obtain ⟨parked, hparked⟩ := Option.isSome_iff_exists.mp h
  exact ⟨_, _, by rw [state, hparked]⟩

end Edits

/-! ### Two processes and one file -/

/-- An operation on its way: it has still to read, or it holds the record it is going to write.
`sawPark` is whether the journal was parked when it read it. -/
inductive Stage where
  | reading (op : Operation)
  | writing (op : Operation) (next : Json) (sawPark : Bool)

/-- The file, and the operations of both processes. `held` is whether a park is to last. -/
structure Journal where
  file : Option Json
  clock : Int
  running : List Stage
  held : Bool

/-- An operation begins, reads the file (or fails to, and takes it for an empty one), replaces it,
or ends without: its write failed, or its process did. -/
inductive Step where
  | call (op : Operation)
  | read (index : Nat) (fails : Bool)
  | replace (index : Nat)
  | abandon (index : Nat)
  | tick (milliseconds : Nat)
deriving DecidableEq

/-- Whether a park is to last after this operation has written. -/
def Operation.holds (held : Bool) : Operation → Bool
  | .markParked _ => true
  | .clearParked  => false
  | _             => held

def Journal.step (n : Numerals) (s : Journal) : Step → Option Journal
  | .call op => some { s with running := s.running ++ [.reading op] }
  | .read index fails =>
    match s.running[index]? with
    | some (.reading op) =>
      let record := if fails then emptyRecord else readFile n s.file
      match op.edit n s.clock record with
      | none => some { s with running := s.running.eraseIdx index }
      | some next =>
        some { s with
          running := s.running.set index (.writing op next (record.get? "parked").isSome) }
    | _ => none
  | .replace index =>
    match s.running[index]? with
    | some (.writing op next _) =>
      some { s with
        file := some next
        running := s.running.eraseIdx index
        held := op.holds s.held }
    | _ => none
  | .abandon index =>
    if index < s.running.length then some { s with running := s.running.eraseIdx index } else none
  | .tick milliseconds => some { s with clock := s.clock + milliseconds }

def Journal.init (file : Option Json) (clock : Int) : Journal := ⟨file, clock, [], false⟩

/-- While a park is to last, an operation that does not park or lift it replaces the journal only
with what it read of a parked one. -/
def Fresh (s : Journal) : Step → Prop
  | .replace index =>
    match s.running[index]? with
    | some (.writing op _ sawPark) =>
      s.held → sawPark ∨ op = .clearParked ∨ op.parks
    | _ => True
  | _ => True

instance (s : Journal) : ∀ step, Decidable (Fresh s step)
  | .replace index =>
    match h : s.running[index]? with
    | some (.writing op _ sawPark) =>
      decidable_of_iff (s.held → sawPark ∨ op = .clearParked ∨ op.parks) (by simp [Fresh, h])
    | some (.reading _) => isTrue (by simp [Fresh, h])
    | none => isTrue (by simp [Fresh, h])
  | .call _ | .read _ _ | .abandon _ | .tick _ => isTrue trivial

/-- What is about to be written is valid, and keeps the park it has read or makes. -/
structure Stage.Sound (n : Numerals) (stage : Stage) : Prop where
  valid : ∀ op next sawPark, stage = .writing op next sawPark → valid n next
  parked : ∀ op next sawPark, stage = .writing op next sawPark →
    op.parks ∨ (sawPark ∧ op ≠ .clearParked) → (next.get? "parked").isSome

/-- A park that is to last is in the file. -/
structure Journal.Sound (n : Numerals) (s : Journal) : Prop where
  running : ∀ stage ∈ s.running, stage.Sound n
  held : s.held → ((readFile n s.file).get? "parked").isSome

section Steps

variable {n : Numerals} {s t : Journal}

lemma sound_reading (op : Operation) : (Stage.reading op).Sound n :=
  ⟨fun _ _ _ h => (nomatch h), fun _ _ _ h => (nomatch h)⟩

lemma sound_writing {op : Operation} {record next : Json} {now : Int} (h : valid n record)
    (hedit : op.edit n now record = some next) :
    (Stage.writing op next (record.get? "parked").isSome).Sound n := by
  constructor
  · rintro _ _ _ ⟨⟩
    exact valid_edit h hedit
  · rintro _ _ _ ⟨⟩ (hparks | ⟨hsaw, hop⟩)
    · exact parked_parks h hparks hedit
    · exact parked_edit h hop hsaw hedit

lemma sound_replace {index : Nat} {op : Operation} {next : Json} {sawPark : Bool}
    (h : s.Sound n) (hstage : s.running[index]? = some (.writing op next sawPark))
    (hfresh : s.held → sawPark ∨ op = .clearParked ∨ op.parks)
    (hheld : op.holds s.held) : ((readFile n (some next)).get? "parked").isSome := by
  have hsound := h.running _ (List.mem_of_getElem? hstage)
  rw [readFile_of_valid (hsound.valid op next sawPark rfl)]
  apply hsound.parked op next sawPark rfl
  cases op with
  | markParked reason => exact .inl rfl
  | clearParked => cases hheld
  | _ =>
    rcases hfresh hheld with hsaw | hop | hparks
    · exact .inr ⟨hsaw, by simp⟩
    · cases hop
    · exact .inl hparks

lemma sound_step {step : Step} (h : s.Sound n) (hok : Fresh s step)
    (hstep : s.step n step = some t) : t.Sound n := by
  cases step with
  | call op =>
    cases hstep
    refine ⟨fun stage hstage => ?_, h.held⟩
    rcases List.mem_append.mp hstage with hold | hnew
    · exact h.running stage hold
    · rw [List.mem_singleton.mp hnew]
      exact sound_reading op
  | read index fails =>
    have hrecord : valid n (if fails then emptyRecord else readFile n s.file) := by
      split_ifs
      · exact valid_emptyRecord
      · exact valid_readFile s.file
    simp only [Journal.step] at hstep
    split at hstep
    · next op hop =>
      split at hstep
      · cases hstep
        exact ⟨fun stage hstage => h.running stage (List.mem_of_mem_eraseIdx hstage), h.held⟩
      · next next hedit =>
        cases hstep
        refine ⟨fun stage hstage => ?_, h.held⟩
        rcases List.mem_or_eq_of_mem_set hstage with hold | rfl
        · exact h.running stage hold
        · exact sound_writing hrecord hedit
    · cases hstep
  | replace index =>
    simp only [Journal.step] at hstep
    split at hstep
    · next op next sawPark hstage =>
      cases hstep
      have hfresh : s.held → sawPark ∨ op = .clearParked ∨ op.parks := by
        simpa only [Fresh, hstage] using hok
      refine ⟨fun stage hmem => h.running stage (List.mem_of_mem_eraseIdx hmem), fun hheld => ?_⟩
      exact sound_replace h hstage hfresh hheld
    · cases hstep
  | abandon index =>
    obtain ⟨-, hstep⟩ := Option.ite_none_right_eq_some.mp hstep
    cases hstep
    exact ⟨fun stage hmem => h.running stage (List.mem_of_mem_eraseIdx hmem), h.held⟩
  | tick milliseconds =>
    cases hstep
    exact ⟨h.running, h.held⟩

end Steps

/-- While no operation writes over a park with what it read before it, a park that `markParked` has
written is read at any time until `clearParked` has written. -/
theorem park_survives {n : Numerals} {file : Option Json} {clock : Int} {steps : List Step}
    {s : Journal} (hok : Permitted (Journal.step n) Fresh (.init file clock) steps)
    (hrun : run (Journal.step n) (.init file clock) steps = some s) (hheld : s.held) (now : Int) :
    ∃ reason since, state n (readFile n s.file) now = .parked reason since := by
  have hinit : (Journal.init file clock).Sound n :=
    ⟨fun _ hstage => (nomatch hstage), fun h => (nomatch h)⟩
  have hsound : s.Sound n :=
    invariant (fun _ _ _ hs hok hstep => sound_step hs hok hstep) hinit hok hrun
  exact state_of_parked (hsound.held hheld)

def sampleNumerals : Numerals := ⟨fun _ => true, fun _ _ => true⟩

/-- An operator starts a Workspace that has been parked. -/
def clearedAfterPark : List Step :=
  [.call (.markParked .workspaceDeleted), .read 0 false, .replace 0, .call .clear, .read 0 false,
    .replace 0]

theorem park_survives_clear :
    ∃ s, run (Journal.step sampleNumerals) (.init none 0) clearedAfterPark = some s ∧ s.held ∧
      ∃ reason since, state sampleNumerals (readFile sampleNumerals s.file) 0 =
        .parked reason since := by
  obtain ⟨s, hrun, hheld⟩ := (Option.any_eq_true _ _).mp
    (show (run (Journal.step sampleNumerals) (.init none 0) clearedAfterPark).any (·.held) by
      decide)
  exact ⟨s, hrun, hheld, park_survives (by decide) hrun hheld 0⟩

/-- An operator starts a Workspace while it is being parked. -/
def clearedBesidePark : List Step :=
  [.call .clear, .read 0 false, .call (.markParked .workspaceDeleted), .read 1 false, .replace 1,
    .replace 0]

theorem park_lost_to_clear :
    ¬ ∀ (n : Numerals) file clock steps s now, run (Journal.step n) (.init file clock) steps = some s →
      s.held → ∃ reason since, state n (readFile n s.file) now = .parked reason since := by
  intro h
  obtain ⟨s, hrun, hlost⟩ := (Option.any_eq_true _ _).mp
    (show (run (Journal.step sampleNumerals) (.init none 0) clearedBesidePark).any (fun s =>
      s.held && (state sampleNumerals (readFile sampleNumerals s.file) 0 matches .ok)) by decide)
  rw [Bool.and_eq_true] at hlost
  obtain ⟨reason, since, hparked⟩ := h _ _ _ _ s 0 hrun hlost.1
  rw [hparked] at hlost
  cases hlost.2

end Coforge.Health
