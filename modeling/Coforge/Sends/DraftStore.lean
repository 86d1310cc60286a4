import Coforge.Installer.Installed
import Coforge.Sends.Settlement
import Mathlib

/-!
# The message draft store

One private file per Agent holds the draft of each target. Its operations run one after another,
and each of them reads the file, edits the entry of one target and writes the file back, so that an
operation is one step of the file. It can fail before its write or, when the file is in place
already, after it.

Beside each entry the model keeps how many sends had begun when it was written.
-/

namespace Coforge.Sends

/-- `AGENT_MESSAGE_DRAFT_TTL_MS`. -/
def draftTtlMs : Nat := 10 * 60 * 1000

/-- The continuation state of one held send. -/
structure AgentMessageDraftContent where
  content : String
  attachmentIds : List String
  idempotencyKey : String
  mentions : List AgentMention
  seenUpToSeq : Option Nat
  seenExactSeqs : List Nat
deriving DecidableEq

/-- A draft as the file holds it. `writtenAt` is no part of the file. -/
structure AgentMessageDraft extends AgentMessageDraftContent where
  reholdCount : Nat
  savedAt : Nat
  writtenAt : Nat
deriving DecidableEq

/-- What a lookup found for one target. -/
inductive AgentMessageDraftLookup where
  | found (draft : AgentMessageDraft)
  | missing
  | expired (content : String) (savedAt : Nat)
deriving DecidableEq

/-- How an operation of the store ends. -/
inductive Ending where
  | done
  | failedBefore
  | failedAfter
deriving DecidableEq

/-- The write is in place. -/
def Ending.effective : Ending → Bool
  | .failedBefore => false
  | _             => true

/-- The file, and the clock the store reads. -/
structure DraftStore where
  targets : String → Option AgentMessageDraft
  now : Nat

namespace DraftStore

def empty (now : Nat) : DraftStore := ⟨fun _ => none, now⟩

/-- An entry whose key is blank names no send. -/
def named (draft : AgentMessageDraft) : Bool :=
  !draft.idempotencyKey.toList.all Installer.Updater.isWhitespace

/-- The entries a read finds. -/
def read (s : DraftStore) (target : String) : Option AgentMessageDraft :=
  (s.targets target).filter named

def expired (s : DraftStore) (draft : AgentMessageDraft) : Bool :=
  draftTtlMs < s.now - draft.savedAt

/-- Every entry that was read is written back, with that of one target replaced. -/
def write (s : DraftStore) (target : String) (draft : Option AgentMessageDraft) : DraftStore :=
  { s with targets := Function.update s.read target draft }

/-- The operation's write, as far as it takes effect. -/
def written (s : DraftStore) (ending : Ending) (target : String)
    (draft : Option AgentMessageDraft) : DraftStore :=
  if ending.effective then s.write target draft else s

/-- What an operation that writes answers. -/
def answered {α : Type} (ending : Ending) (value : α) : Except Failure α :=
  if ending = .done then .ok value else .error (.other "the draft file could not be written")

/-- An operation that does not write can only fail before. -/
def unwritten {α : Type} (s : DraftStore) (ending : Ending) (value : α) :
    Except Failure α × DraftStore :=
  (answered ending value, s)

def lookup (s : DraftStore) (target : String) (ending : Ending) :
    Except Failure AgentMessageDraftLookup × DraftStore :=
  match s.read target with
  | none       => s.unwritten ending .missing
  | some draft =>
    if s.expired draft then
      (answered ending (.expired draft.content draft.savedAt), s.written ending target none)
    else s.unwritten ending (.found draft)

/-- The entry `#writeDraft` writes, while `begun` sends have begun. -/
def entry (s : DraftStore) (draft : AgentMessageDraftContent) (reholdCount begun : Nat) :
    AgentMessageDraft :=
  { draft with reholdCount := reholdCount, savedAt := s.now, writtenAt := begun }

def writeDraft (s : DraftStore) (target : String) (draft : AgentMessageDraftContent)
    (reholdCount begun : Nat) (ending : Ending) : Except Failure Unit × DraftStore :=
  (answered ending (), s.written ending target (some (s.entry draft reholdCount begun)))

/-- The clear after an accepted send: only the send whose key the draft holds consumes it. -/
def clearIfIdempotencyKeyMatches (s : DraftStore) (target idempotencyKey : String)
    (ending : Ending) : Except Failure Bool × DraftStore :=
  match s.read target with
  | none       => s.unwritten ending false
  | some draft =>
    -- an expired draft is left to be reported as expired
    if s.expired draft ∨ draft.idempotencyKey ≠ idempotencyKey then s.unwritten ending false
    else (answered ending true, s.written ending target none)

/-! ### What the operations do to a draft -/

variable {s : DraftStore} {target : String} {draft : AgentMessageDraft} {ending : Ending}

@[simp] lemma write_targets_self (d : Option AgentMessageDraft) :
    (s.write target d).targets target = d := Function.update_self ..

lemma written_of_effective (h : ending.effective = true) (d : Option AgentMessageDraft) :
    s.written ending target d = s.write target d := if_pos h

lemma written_of_not_effective (h : ending.effective = false) (d : Option AgentMessageDraft) :
    s.written ending target d = s := if_neg (by simp [h])

lemma read_eq_some :
    s.read target = some draft ↔ s.targets target = some draft ∧ named draft = true := by
  simp [read, Option.filter_eq_some_iff]

lemma lookup_keeps_iff (h : s.targets target = some draft) :
    (s.lookup target ending).2.targets target = some draft ↔
      ¬(named draft = true ∧ s.expired draft = true ∧ ending.effective = true) := by
  by_cases hnamed : named draft = true
  · have hread : s.read target = some draft := read_eq_some.mpr ⟨h, hnamed⟩
    simp only [lookup, hread, hnamed, true_and]
    by_cases hexpired : s.expired draft = true
    · rw [if_pos hexpired]
      by_cases heffective : ending.effective = true
      · simp [written_of_effective heffective, hexpired, heffective]
      · rw [Bool.not_eq_true] at heffective
        simpa [written_of_not_effective heffective, heffective] using h
    · simpa [unwritten, hexpired] using h
  · have hread : s.read target = none := by
      simpa [read, h] using hnamed
    simpa [lookup, hread, unwritten, hnamed] using h

lemma writeDraft_keeps_iff {d : AgentMessageDraftContent} {reholdCount begun : Nat}
    (h : s.targets target = some draft) (hkey : draft.idempotencyKey ≠ d.idempotencyKey) :
    (s.writeDraft target d reholdCount begun ending).2.targets target = some draft ↔
      ending.effective = false := by
  by_cases heffective : ending.effective = true
  · simp only [writeDraft, written_of_effective heffective, write_targets_self, heffective,
      Option.some.injEq, Bool.true_eq_false, iff_false]
    intro heq
    exact hkey (congrArg (·.idempotencyKey) heq).symm
  · rw [Bool.not_eq_true] at heffective
    simpa [writeDraft, written_of_not_effective heffective, heffective] using h

lemma clear_keeps {key : String} (h : s.targets target = some draft)
    (hkey : draft.idempotencyKey ≠ key) :
    (s.clearIfIdempotencyKeyMatches target key ending).2.targets target = some draft := by
  simp only [clearIfIdempotencyKeyMatches]
  cases hread : s.read target with
  | none => exact h
  | some d =>
    obtain rfl : d = draft := Option.some.inj ((read_eq_some.mp hread).1.symm.trans h)
    simpa [hkey, unwritten] using h

end DraftStore

end Coforge.Sends
