import Coforge.Attention.Coherence

/-!
# The seen report of a send

A send tells the server which messages of its target the Agent has seen: a boundary, and the
messages above it that were shown one by one. The boundary is the one of the target's draft, where
there is a draft that has one. The exact messages are those of the draft and those of the index.

The index forgets an exact message once its own frontier reaches it, and a draft's boundary can be
older than that frontier. What lies between the two is then reported by neither half.
-/

namespace Coforge.Attention

open Transition

/-- What a saved draft says of the messages it accounts for. -/
structure DraftSeen where
  seenUpToSeq : Option Nat
  seenExactSeqs : Option Exact

structure SeenReport where
  seenUpToSeq : Option Nat
  seenExactSeqs : Option (List Nat)
deriving DecidableEq

namespace SeenReport

def Covers (r : SeenReport) (n : Nat) : Prop :=
  n ≤ r.seenUpToSeq.getD 0 ∨ n ∈ r.seenExactSeqs.getD []

instance (r : SeenReport) (n : Nat) : Decidable (r.Covers n) :=
  inferInstanceAs (Decidable (_ ∨ _))

end SeenReport

/-- The `seenExactSeqs` a send reports: its draft's and the index's, above the boundary. -/
def sendSeenExactSeqs (draft : Option (List Nat)) (shown : List Nat) (seenUpToSeq : Option Nat) :
    Option (List Nat) :=
  let reported := mergeSeenExactSeqs (seenUpToSeq.getD 0) (draft.getD []) shown
  if reported = [] then none else some reported

/-- The exact messages a draft carries. -/
def draftExact (draft : Option DraftSeen) : Exact := (draft.bind DraftSeen.seenExactSeqs).getD ∅

namespace Index

/-- The boundary a send to a target reports. -/
def reportedBoundary (s : Index) (target : Target) (draft : Option DraftSeen) : Option Nat :=
  let modelSeenSequence := s.modelSeenSequence target
  (draft.bind DraftSeen.seenUpToSeq).or
    (if 0 < modelSeenSequence then some modelSeenSequence else none)

/-- What a send to a target reports, with the draft it re-sends or replaces. -/
def seenReport (s : Index) (target : Target) (draft : Option DraftSeen) : SeenReport :=
  let seenUpToSeq := s.reportedBoundary target draft
  { seenUpToSeq := seenUpToSeq
    seenExactSeqs := sendSeenExactSeqs
      ((draft.bind DraftSeen.seenExactSeqs).map Exact.seqs) (s.seenExactSequences target)
      seenUpToSeq }

/-- The sequences a report is cut from: all the exact ones above its boundary. -/
def reportable (s : Index) (target : Target) (draft : Option DraftSeen) : List Nat :=
  Ascending.mergeAbove ((s.reportedBoundary target draft).getD 0) (draftExact draft).seqs
    (s.seenExactSequences target)

/-- The oldest reportable sequences, which do not fit into the report. -/
def surplus (s : Index) (target : Target) (draft : Option DraftSeen) : List Nat :=
  (s.reportable target draft).take ((s.reportable target draft).length - seenExactSeqsLimit)

variable {s : Index} {t : Target} {draft : Option DraftSeen} {n : Nat}

lemma pairwise_reportable (s : Index) (t : Target) (draft : Option DraftSeen) :
    (s.reportable t draft).Pairwise (· < ·) :=
  Ascending.pairwise_mergeAbove _ ((draftExact draft).ascending.imp fun h => h.le)
    ((s.hydrate.consumed t).exactSeqs.ascending.imp fun h => h.le)

lemma mem_reportable : n ∈ s.reportable t draft ↔
    (n ∈ draftExact draft ∨ n ∈ (s.effective t).exactSeqs) ∧
      (s.reportedBoundary t draft).getD 0 < n :=
  Ascending.mem_mergeAbove ((draftExact draft).ascending.imp fun h => h.le)
    ((s.hydrate.consumed t).exactSeqs.ascending.imp fun h => h.le)

lemma seenExactSeqs_seenReport : (s.seenReport t draft).seenExactSeqs.getD [] =
      History.sliceLast seenExactSeqsLimit (s.reportable t draft) := by
  have hdraft : ((draft.bind DraftSeen.seenExactSeqs).map Exact.seqs).getD [] =
      (draftExact draft).seqs := by
    rw [draftExact]
    cases draft.bind DraftSeen.seenExactSeqs <;> rfl
  have hmerge : mergeSeenExactSeqs ((s.reportedBoundary t draft).getD 0) (draftExact draft).seqs
      (s.seenExactSequences t) = History.sliceLast seenExactSeqsLimit (s.reportable t draft) := rfl
  rw [← hmerge]
  have hleft (xs : List Nat) : (if xs = [] then none else some xs).getD [] = xs := by
    by_cases h : xs = [] <;> simp [h]
  simp only [seenReport, sendSeenExactSeqs, hdraft, hleft]

lemma mem_seenReport : n ∈ (s.seenReport t draft).seenExactSeqs.getD [] ↔
    n ∈ s.reportable t draft ∧ n ∉ s.surplus t draft := by
  rw [seenExactSeqs_seenReport, History.sliceLast, surplus]
  have hnodup : (s.reportable t draft).Nodup :=
    (pairwise_reportable s t draft).imp fun h => h.ne
  generalize (s.reportable t draft).length - seenExactSeqsLimit = k
  constructor
  · intro hn
    exact ⟨List.mem_of_mem_drop hn, fun htake =>
      List.disjoint_take_drop hnodup (le_refl k) htake hn⟩
  · rintro ⟨hn, hnot⟩
    rw [← List.take_append_drop k (s.reportable t draft)] at hn
    exact (List.mem_append.mp hn).resolve_left hnot

/-- The report taken of the index `s` misses nothing that is seen in `s'`: a draft whose boundary
is below the frontier lists what lies between them, what was seen since the report was taken is
in the draft, and the surplus was not seen. -/
structure Reported (s s' : Index) (t : Target) (draft : Option DraftSeen) : Prop where
  frontier : ∀ n, (s.reportedBoundary t draft).getD 0 < n → n ≤ s.modelSeenSequence t →
    s'.hasSeen t n → n ∈ draftExact draft ∨ n ∈ s.seenExactSequences t
  meanwhile : ∀ n, (s.reportedBoundary t draft).getD 0 < n → s'.hasSeen t n →
    s.hasSeen t n = false → n ∈ draftExact draft
  surplus : ∀ n ∈ s.surplus t draft, s'.hasSeen t n = false

end Index

/-- The draft a fresh send saves before it is issued. -/
def savedDraft (r : SeenReport) : DraftSeen := ⟨r.seenUpToSeq, none⟩

end Coforge.Attention
