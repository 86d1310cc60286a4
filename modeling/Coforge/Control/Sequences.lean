import Coforge.Control.System
import Coforge.Lib.Trace

/-!
# The sequences of a control epoch

Each result and each session report of an epoch takes the next sequence of the record, and the
record keeps what it may have to send again. What goes out is therefore one of two things: a
repetition of something that went out before, or above everything of its epoch that did. The
record holds one result back: when the wake of a rebound Start fails, its result is first sent
when it is asked for, and session reports may have gone out by then.

A Start that is refused is answered with a result that the record knows nothing of.
-/

namespace Coforge.Control

open Async Async.Prog Transition List Option

/-- The result refuses a Start. -/
def AgentControlResult.refuses (result : AgentControlResult) : Prop :=
  result.phase = .failed ∧ (result.errorCode = some agentLaunchIdRequired ∨
    result.errorCode = some agentAlreadyRunning)

instance (result : AgentControlResult) : Decidable result.refuses :=
  inferInstanceAs (Decidable (_ ∧ _))

/-- The epoch and the sequence of what went out, unless it refuses a Start. -/
def Entry.stamp : Entry → Option (Nat × Nat)
  | .accepted _      => none
  | .reported result => if result.refuses then none else some (result.epoch, result.sequence)
  | .session report  => some (report.epoch, report.sequence)

/-- The sequence is above all that went out in the epoch. -/
def Above (past : List Entry) (epoch sequence : Nat) : Prop :=
  ∀ x ∈ past, ∀ n, x.stamp = some (epoch, n) → n < sequence

/-- The started result with the first sequence of an epoch that has no result yet. -/
def FirstResult (past : List Entry) (result : AgentControlResult) : Prop :=
  result.phase = .started ∧ result.sequence = 1 ∧
    ∀ y, .reported y ∈ past → ¬ y.refuses → y.epoch ≠ result.epoch

/-- What goes out repeats something, or is above all of its epoch, or is the result that was held
back. -/
def Emitted (past : List Entry) (x : Entry) : Prop :=
  ∀ epoch sequence, x.stamp = some (epoch, sequence) → x ∈ past ∨ Above past epoch sequence ∨
    ∃ result, x = .reported result ∧ FirstResult past result

/-- The epoch is over for the record, or the record has come to the sequence. -/
def Within (record : AgentRuntimeRecord) (epoch sequence : Nat) : Prop :=
  epoch < record.scope.epoch ∨ (epoch = record.scope.epoch ∧ sequence ≤ record.sequence)

/-- The result of a rebound Start that did not go out. -/
def Held (past : List Entry) (record : AgentRuntimeRecord) (result : AgentControlResult) : Prop :=
  FirstResult past result ∧ ∀ x ∈ record.report, x.epoch = result.epoch → 1 < x.sequence

/-- The record has come as far as what went out, and what it keeps went out or may go out next. -/
structure Kept (past : List Entry) (record : AgentRuntimeRecord) : Prop where
  within : ∀ x ∈ past, ∀ epoch sequence, x.stamp = some (epoch, sequence) →
    Within record epoch sequence
  stop : ∀ y ∈ record.stopResult, .reported y ∈ past
  reset : ∀ y ∈ record.workspaceResetResult, .reported y ∈ past
  start : ∀ y ∈ record.startResult, .reported y ∈ past ∨ record.lastResult = some y
  last : ∀ y ∈ record.lastResult, .reported y ∈ past ∨ Held past record y
  report : ∀ x ∈ record.report, .session x ∈ past ∨ Above past x.epoch x.sequence
  lastWithin : ∀ y ∈ record.lastResult, Within record y.epoch y.sequence
  reportWithin : ∀ x ∈ record.report, Within record x.epoch x.sequence
  starting : record.phase = .starting → record.startResult = none

/-- What holds of what went out and of the record together. -/
structure Consistent (past : List Entry) (record : Option AgentRuntimeRecord) : Prop where
  ordered : Trace.Each Emitted past
  kept : ∀ r ∈ record, Kept past r
  missing : record = none → ∀ x ∈ past, x.stamp = none

def Sequenced (s : AgentState) : Prop := Consistent s.history s.record

/-! ### What goes out -/

section Past

variable {past : List Entry} {record : AgentRuntimeRecord} {x : Entry}
  {result : AgentControlResult} {report : AgentSessionSnapshot}

lemma stamp_of_not_refuses (h : ¬ result.refuses) :
    (Entry.reported result).stamp = some (result.epoch, result.sequence) := if_neg h

lemma stamp_reported {epoch sequence : Nat}
    (h : (Entry.reported result).stamp = some (epoch, sequence)) :
    ¬ result.refuses ∧ result.epoch = epoch ∧ result.sequence = sequence := by
  simp only [Entry.stamp] at h
  split_ifs at h with hrefuses
  exact ⟨hrefuses, by simpa using h⟩

lemma Kept.above (h : Kept past record) {sequence : Nat} (hlt : record.sequence < sequence) :
    Above past record.scope.epoch sequence := by
  intro x hx n hstamp
  rcases h.within x hx _ _ hstamp with hepoch | ⟨-, hle⟩
  · exact absurd hepoch (Nat.lt_irrefl _)
  · exact Nat.lt_of_le_of_lt hle hlt

lemma Kept.of_stamps {past' : List Entry} (h : Kept past record) (hsub : past ⊆ past')
    (hnew : ∀ x ∈ past', x ∈ past ∨ x.stamp = none) : Kept past' record := by
  have habove {epoch sequence : Nat} (h : Above past epoch sequence) :
      Above past' epoch sequence := by
    intro x hx n hstamp
    rcases hnew x hx with hold | hnone
    · exact h x hold n hstamp
    · rw [hnone] at hstamp
      cases hstamp
  refine ⟨fun x hx epoch sequence hstamp => ?_, fun y hy => hsub (h.stop y hy),
    fun y hy => hsub (h.reset y hy), fun y hy => (h.start y hy).imp_left (@hsub _),
    fun y hy => ?_, fun x hx => ?_, h.lastWithin, h.reportWithin, h.starting⟩
  · rcases hnew x hx with hold | hnone
    · exact h.within x hold epoch sequence hstamp
    · rw [hnone] at hstamp
      cases hstamp
  · rcases h.last y hy with hsent | ⟨⟨hphase, hfirst, hnone⟩, hreport⟩
    · exact .inl (hsub hsent)
    · refine .inr ⟨⟨hphase, hfirst, fun z hz hrefuses => ?_⟩, hreport⟩
      rcases hnew _ hz with hold | hstamp
      · exact hnone z hold hrefuses
      · rw [stamp_of_not_refuses hrefuses] at hstamp
        cases hstamp
  · rcases h.report x hx with hsent | hnext
    · exact .inl (hsub hsent)
    · exact .inr (habove hnext)

lemma Consistent.cons_none {record : Option AgentRuntimeRecord} (h : Consistent past record)
    (hx : x.stamp = none) : Consistent (x :: past) record := by
  refine ⟨⟨fun epoch sequence hstamp => ?_, h.ordered⟩, fun r hr => ?_, fun hnone y hy => ?_⟩
  · rw [hx] at hstamp
    cases hstamp
  · refine (h.kept r hr).of_stamps (subset_cons_self x past) fun y hy => ?_
    rcases mem_cons.mp hy with rfl | hy
    · exact .inr hx
    · exact .inl hy
  · rcases mem_cons.mp hy with rfl | hy
    · exact hx
    · exact h.missing hnone y hy

lemma Consistent.cons_repeat {record : Option AgentRuntimeRecord} (h : Consistent past record)
    (hx : x ∈ past) : Consistent (x :: past) record := by
  refine ⟨⟨fun _ _ _ => .inl hx, h.ordered⟩, fun r hr => ?_, fun hnone y hy => ?_⟩
  · refine (h.kept r hr).of_stamps (subset_cons_self x past) fun y hy => .inl ?_
    rcases mem_cons.mp hy with rfl | hy
    · exact hx
    · exact hy
  · rcases mem_cons.mp hy with rfl | hy
    · exact h.missing hnone _ hx
    · exact h.missing hnone y hy

lemma Consistent.cons_last (h : Consistent past (some record))
    (hresult : record.lastResult = some result) :
    Consistent (.reported result :: past) (some record) := by
  have hkept := h.kept record rfl
  rcases hkept.last result hresult with hsent | ⟨hfirst, hreport⟩
  · exact h.cons_repeat hsent
  have hmem {y : Entry} (hy : y ∈ past) : y ∈ Entry.reported result :: past :=
    mem_cons_of_mem _ hy
  refine ⟨⟨fun _ _ _ => .inr (.inr ⟨result, rfl, hfirst⟩), h.ordered⟩, fun r hr => ?_, nofun⟩
  obtain rfl : record = r := some.inj hr
  refine ⟨fun x hx epoch sequence hstamp => ?_, fun y hy => hmem (hkept.stop y hy),
    fun y hy => hmem (hkept.reset y hy), fun y hy => .inl ?_, fun y hy => .inl ?_, fun x hx => ?_,
    hkept.lastWithin, hkept.reportWithin, hkept.starting⟩
  · rcases mem_cons.mp hx with rfl | hx
    · obtain ⟨-, rfl, rfl⟩ := stamp_reported hstamp
      exact hkept.lastWithin result hresult
    · exact hkept.within x hx epoch sequence hstamp
  · rcases hkept.start y hy with hsent | hlast
    · exact hmem hsent
    · obtain rfl : result = y := some.inj (hresult.symm.trans hlast)
      exact mem_cons_self
  · obtain rfl : result = y := some.inj (hresult.symm.trans hy)
    exact mem_cons_self
  · rcases hkept.report x hx with hsent | hnext
    · exact .inl (hmem hsent)
    · refine .inr fun y hy n hstamp => ?_
      rcases mem_cons.mp hy with rfl | hy
      · obtain ⟨-, hepoch, rfl⟩ := stamp_reported hstamp
        rw [hfirst.2.1]
        exact hreport x hx hepoch.symm
      · exact hnext y hy n hstamp

lemma Consistent.cons_report (h : Consistent past (some record))
    (hreport : record.report = some report) :
    Consistent (.session report :: past) (some record) := by
  have hkept := h.kept record rfl
  rcases hkept.report report hreport with hsent | hnext
  · exact h.cons_repeat hsent
  have hmem {y : Entry} (hy : y ∈ past) : y ∈ Entry.session report :: past :=
    mem_cons_of_mem _ hy
  refine ⟨⟨fun epoch sequence hstamp => ?_, h.ordered⟩, fun r hr => ?_, nofun⟩
  · cases hstamp
    exact .inr (.inl hnext)
  obtain rfl : record = r := some.inj hr
  refine ⟨fun x hx epoch sequence hstamp => ?_, fun y hy => hmem (hkept.stop y hy),
    fun y hy => hmem (hkept.reset y hy), fun y hy => (hkept.start y hy).imp_left hmem,
    fun y hy => ?_, fun x hx => .inl ?_, hkept.lastWithin, hkept.reportWithin, hkept.starting⟩
  · rcases mem_cons.mp hx with rfl | hx
    · cases hstamp
      exact hkept.reportWithin report hreport
    · exact hkept.within x hx epoch sequence hstamp
  · rcases hkept.last y hy with hsent | ⟨⟨hphase, hfirst, hnone⟩, hlater⟩
    · exact .inl (hmem hsent)
    · refine .inr ⟨⟨hphase, hfirst, fun z hz => ?_⟩, hlater⟩
      rcases mem_cons.mp hz with hz | hz
      · cases hz
      · exact hnone z hz
  · obtain rfl : report = x := some.inj (hreport.symm.trans hx)
    exact mem_cons_self

end Past

/-! ### What the record takes -/

section Record

variable {past : List Entry} {record next : AgentRuntimeRecord} {result : AgentControlResult}

lemma Within.of_le {epoch sequence : Nat} (h : Within record epoch sequence)
    (hepoch : next.scope.epoch = record.scope.epoch) (hle : record.sequence ≤ next.sequence) :
    Within next epoch sequence := by
  rcases h with hlt | ⟨heq, hseq⟩
  · exact .inl (hepoch ▸ hlt)
  · exact .inr ⟨heq.trans hepoch.symm, Nat.le_trans hseq hle⟩

lemma Kept.capture (h : Kept past record) (identity : Option SessionIdentity) :
    Kept past (record.capture identity) := by
  have hsame {i : Option SessionIdentity} : Kept past { record with identity := i } :=
    ⟨h.within, h.stop, h.reset, h.start, h.last, h.report, h.lastWithin, h.reportWithin, h.starting⟩
  unfold AgentRuntimeRecord.capture
  split
  next i launchId _ =>
    split_ifs
    · have hwithin {epoch sequence : Nat} {next : AgentRuntimeRecord}
          (hepoch : next.scope.epoch = record.scope.epoch)
          (hseq : next.sequence = record.sequence + 1) (hw : Within record epoch sequence) :
          Within next epoch sequence := hw.of_le hepoch (by omega)
      refine ⟨fun x hx epoch sequence hstamp => hwithin rfl rfl (h.within x hx epoch sequence hstamp),
        h.stop, h.reset, h.start, fun y hy => ?_, fun x hx => .inr ?_,
        fun y hy => hwithin rfl rfl (h.lastWithin y hy), fun x hx => ?_, h.starting⟩
      · rcases h.last y hy with hsent | ⟨hfirst, -⟩
        · exact .inl hsent
        · refine .inr ⟨hfirst, fun x hx hepoch => ?_⟩
          cases hx
          have hle := h.lastWithin y hy
          rw [hfirst.2.1] at hle
          have hnow : record.scope.epoch = y.epoch := hepoch
          rcases hle with hlt | ⟨-, hle⟩
          · omega
          · exact Nat.lt_succ_of_le hle
      · cases hx
        exact h.above (Nat.lt_succ_self _)
      · cases hx
        exact .inr ⟨rfl, Nat.le_refl _⟩
    · exact hsame
  next => exact hsame

/-- A new result of the epoch is the last, and goes out before anything else is sent. -/
lemma Kept.takes (h : Kept past record) (hepoch : next.scope.epoch = record.scope.epoch)
    (hsequence : next.sequence = record.sequence + 1)
    (hresult : result.epoch = record.scope.epoch ∧ result.sequence = record.sequence + 1)
    (hlast : next.lastResult = some result)
    (hstop : ∀ y ∈ next.stopResult, y = result ∨ record.stopResult = some y)
    (hreset : ∀ y ∈ next.workspaceResetResult, y = result ∨ record.workspaceResetResult = some y)
    (hstart : ∀ y ∈ next.startResult, y = result)
    (hreport : ∀ x ∈ next.report, record.report = some x ∧ x.epoch < record.scope.epoch)
    (hphase : next.phase ≠ .starting) : Kept (.reported result :: past) next := by
  have hmem {y : Entry} (hy : y ∈ past) : y ∈ Entry.reported result :: past :=
    mem_cons_of_mem _ hy
  have hself {y : AgentControlResult} (hy : y = result) :
      Entry.reported y ∈ Entry.reported result :: past := hy ▸ mem_cons_self
  refine ⟨fun x hx epoch sequence hstamp => ?_, fun y hy => ?_, fun y hy => ?_,
    fun y hy => .inl (hself (hstart y hy)), fun y hy => .inl (hself ?_), fun x hx => ?_,
    fun y hy => ?_, fun x hx => ?_, fun h => absurd h hphase⟩
  · rcases mem_cons.mp hx with rfl | hx
    · obtain ⟨-, rfl, rfl⟩ := stamp_reported hstamp
      exact .inr ⟨hresult.1.trans hepoch.symm, Nat.le_of_eq (hresult.2.trans hsequence.symm)⟩
    · exact (h.within x hx epoch sequence hstamp).of_le hepoch (by omega)
  · exact (hstop y hy).elim hself fun hold => hmem (h.stop y hold)
  · exact (hreset y hy).elim hself fun hold => hmem (h.reset y hold)
  · exact (some.inj (hlast.symm.trans hy)).symm
  · obtain ⟨hold, hlt⟩ := hreport x hx
    refine (h.report x hold).imp hmem fun hnext y hy n hstamp => ?_
    rcases mem_cons.mp hy with rfl | hy
    · obtain ⟨-, heq, -⟩ := stamp_reported hstamp
      rw [← heq, hresult.1] at hlt
      exact absurd hlt (Nat.lt_irrefl _)
    · exact hnext y hy n hstamp
  · obtain rfl : result = y := some.inj (hlast.symm.trans hy)
    exact .inr ⟨hresult.1.trans hepoch.symm, Nat.le_of_eq (hresult.2.trans hsequence.symm)⟩
  · exact .inl (hepoch ▸ (hreport x hx).2)

lemma Consistent.takes (hordered : Trace.Each Emitted past) (h : Kept past record)
    (hresult : result.epoch = record.scope.epoch ∧ result.sequence = record.sequence + 1)
    (hnext : Kept (.reported result :: past) next) :
    Consistent (.reported result :: past) (some next) := by
  refine ⟨⟨fun epoch sequence hstamp => .inr (.inl ?_), hordered⟩, fun r hr => ?_, nofun⟩
  · obtain ⟨-, rfl, rfl⟩ := stamp_reported hstamp
    rw [hresult.1]
    exact h.above (by omega)
  · obtain rfl : next = r := some.inj hr
    exact hnext

lemma Kept.holds (h : Kept past record) (hepoch : next.scope.epoch = record.scope.epoch)
    (hsequence : next.sequence = record.sequence + 1)
    (hresult : result.epoch = record.scope.epoch ∧ result.sequence = record.sequence + 1)
    (hfirst : FirstResult past result)
    (hlast : next.lastResult = some result) (hstop : next.stopResult = none)
    (hreset : next.workspaceResetResult = none) (hstart : next.startResult = some result)
    (hreport : ∀ x ∈ next.report, record.report = some x ∧ x.epoch < record.scope.epoch)
    (hphase : next.phase ≠ .starting) : Kept past next := by
  have hwithin : Within next result.epoch result.sequence :=
    .inr ⟨hresult.1.trans hepoch.symm, Nat.le_of_eq (hresult.2.trans hsequence.symm)⟩
  refine ⟨fun x hx epoch sequence hstamp => ?_, fun y hy => ?_, fun y hy => ?_, fun y hy => .inr ?_,
    fun y hy => .inr ?_, fun x hx => ?_, fun y hy => ?_, fun x hx => ?_, fun h => absurd h hphase⟩
  · exact (h.within x hx epoch sequence hstamp).of_le hepoch (by omega)
  · rw [hstop] at hy
    cases hy
  · rw [hreset] at hy
    cases hy
  · rw [hlast, ← hstart]
    exact hy
  · obtain rfl : result = y := some.inj (hlast.symm.trans hy)
    refine ⟨hfirst, fun x hx hsame => ?_⟩
    have hlt := (hreport x hx).2
    rw [hsame, hresult.1] at hlt
    exact absurd hlt (Nat.lt_irrefl _)
  · exact h.report x (hreport x hx).1
  · obtain rfl : result = y := some.inj (hlast.symm.trans hy)
    exact hwithin
  · exact .inl (hepoch ▸ (hreport x hx).2)

lemma Kept.settled (h : Kept past record) {phase : Phase} (hphase : phase ≠ .starting) :
    Kept past { record with phase := phase } :=
  ⟨h.within, h.stop, h.reset, h.start, h.last, h.report, h.lastWithin, h.reportWithin,
    fun hstarting => absurd hstarting hphase⟩

lemma Kept.empty (hwithin : ∀ x ∈ past, ∀ epoch sequence, x.stamp = some (epoch, sequence) →
      Within next epoch sequence) (hstop : next.stopResult = none)
    (hreset : next.workspaceResetResult = none) (hstart : next.startResult = none)
    (hlast : next.lastResult = none) (hreport : next.report = none) : Kept past next := by
  refine ⟨hwithin, ?_, ?_, ?_, ?_, ?_, ?_, ?_, fun _ => hstart⟩ <;> simp_all

lemma Kept.launching (h : Kept past record) (hepoch : next.scope.epoch = record.scope.epoch)
    (hsequence : next.sequence = record.sequence) (hstop : next.stopResult = record.stopResult)
    (hreset : next.workspaceResetResult = record.workspaceResetResult)
    (hstart : next.startResult = none)
    (hlast : next.lastResult = record.lastResult) (hreport : next.report = none) :
    Kept past next := by
  have hwithin {epoch sequence : Nat} (hw : Within record epoch sequence) :
      Within next epoch sequence := hw.of_le hepoch (Nat.le_of_eq hsequence.symm)
  refine ⟨fun x hx epoch sequence hstamp => hwithin (h.within x hx epoch sequence hstamp),
    hstop ▸ h.stop, hreset ▸ h.reset, fun y hy => ?_, fun y hy => ?_, fun x hx => ?_,
    fun y hy => hwithin (h.lastWithin y (hlast ▸ hy)), fun x hx => ?_, fun _ => hstart⟩
  · rw [hstart] at hy
    cases hy
  · refine (h.last y (hlast ▸ hy)).imp_right fun hheld => ⟨hheld.1, fun x hx => ?_⟩
    rw [hreport] at hx
    cases hx
  · rw [hreport] at hx
    cases hx
  · rw [hreport] at hx
    cases hx

lemma Kept.rebound (h : Kept past record) (hepoch : record.scope.epoch < next.scope.epoch)
    (hstop : next.stopResult = none) (hreset : next.workspaceResetResult = none)
    (hstart : next.startResult = none) (hlast : next.lastResult = record.lastResult)
    (hreport : next.report = record.report) : Kept past next := by
  have hwithin {epoch sequence : Nat} (hw : Within record epoch sequence) :
      Within next epoch sequence := by
    refine .inl ?_
    rcases hw with hlt | ⟨rfl, -⟩
    · exact Nat.lt_trans hlt hepoch
    · exact hepoch
  refine ⟨fun x hx epoch sequence hstamp => hwithin (h.within x hx epoch sequence hstamp),
    fun y hy => ?_, fun y hy => ?_, fun y hy => ?_, fun y hy => ?_,
    fun x hx => h.report x (hreport ▸ hx), fun y hy => hwithin (h.lastWithin y (hlast ▸ hy)),
    fun x hx => hwithin (h.reportWithin x (hreport ▸ hx)), fun _ => hstart⟩
  · rw [hstop] at hy
    cases hy
  · rw [hreset] at hy
    cases hy
  · rw [hstart] at hy
    cases hy
  · refine (h.last y (hlast ▸ hy)).imp_right fun hheld => ⟨hheld.1, fun x hx => ?_⟩
    exact hheld.2 x (hreport ▸ hx)

lemma Consistent.of_kept (hordered : Trace.Each Emitted past) (h : Kept past record) :
    Consistent past (some record) := by
  refine ⟨hordered, fun r hr => ?_, nofun⟩
  obtain rfl : record = r := some.inj hr
  exact h

end Record

end Coforge.Control
