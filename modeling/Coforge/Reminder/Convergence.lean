import Coforge.Reminder.Mirror

/-!
# What moves a held reminder

Each message is read through one reminder: the job held, the version it was last heard at, whether
that was a cancel, and whether it changed since a snapshot last listed it. `receive_cases` says
everything a message can do to these four, and the laws of the mirror follow from it by induction
on the messages.
-/

namespace Coforge.Reminder

open Keyed

/-- What the mirror knows of one reminder. -/
structure Slot where
  held : Option ReminderJob
  fence : Option Nat
  tombstone : Bool
  changed : Bool
deriving DecidableEq

def Mirror.slot (m : Mirror) (agentId reminderId : String) : Slot where
  held := m.held agentId reminderId
  fence := m.versions (agentId, reminderId)
  tombstone := m.tombstones (agentId, reminderId)
  changed := m.changedAfterSnapshot (agentId, reminderId)

/-- The versions that the fence of a reminder lets through. -/
def Slot.Admits (s : Slot) (version : Nat) : Prop :=
  ∀ fence, s.fence = some fence → fence ≤ version ∧ (version = fence → s.tombstone = false)

namespace Mirror

open Function

variable {scope : Scope} {m : Mirror} {a r : String}

variable {version : Nat}

lemma fenced_eq_false : m.fenced (a, r) version = false ↔ (m.slot a r).Admits version := by
  rw [fenced, Slot.Admits, slot]
  cases h : m.versions (a, r) with
  | none => simp
  | some fence =>
    simp only [decide_eq_false_iff_not, not_or, Nat.not_lt, not_and, Bool.not_eq_true,
      Option.some.injEq]
    constructor
    · rintro ⟨hle, htomb⟩ _ rfl
      exact ⟨hle, htomb⟩
    · intro h
      exact h fence rfl

lemma fenced_eq_true : m.fenced (a, r) version = true ↔ ¬ (m.slot a r).Admits version := by
  rw [← fenced_eq_false, Bool.not_eq_false]

/-! ### The two loops of a snapshot -/

/-- What the first loop did about one reminder, known before as `s` and found among the jobs
taken over as `found`: it took over one of the listed jobs, or the fence turned all of them
away. -/
def TookOver (jobs : List ReminderJob) (r : String) (s s' : Slot)
    (found found' : Option ReminderJob) : Prop :=
  (∃ job ∈ jobs, job.reminderId = r ∧ s.Admits job.version ∧ found' = some job ∧
    s' = { s with fence := some job.version, changed := false }) ∨
  ((∀ job ∈ jobs, job.reminderId = r → ¬ s.Admits job.version) ∧ found' = found ∧ s' = s)

variable {job : ReminderJob}

lemma listed_same {acc : Mirror × List ReminderJob} (hr : job.reminderId = r) :
    TookOver [job] r (acc.1.slot a r) ((listed a acc job).1.slot a r)
      (find ReminderJob.reminderId r acc.2)
      (find ReminderJob.reminderId r (listed a acc job).2) := by
  subst hr
  rcases hfence : acc.1.fenced (a, job.reminderId) job.version with _ | _
  · refine Or.inl ⟨job, List.mem_singleton_self job, rfl, fenced_eq_false.mp hfence, ?_, ?_⟩
    · simp [listed, hfence, find_put]
    · simp [listed, hfence, slot, held]
  · have hskip : listed a acc job = acc := by simp [listed, hfence]
    rw [hskip]
    refine Or.inr ⟨?_, rfl, rfl⟩
    intro job' hjob' _
    rw [List.mem_singleton.mp hjob']
    exact fenced_eq_true.mp hfence

lemma listed_other {acc : Mirror × List ReminderJob} (hr : job.reminderId ≠ r) :
    (listed a acc job).1.slot a r = acc.1.slot a r ∧
      find ReminderJob.reminderId r (listed a acc job).2 = find ReminderJob.reminderId r acc.2 := by
  have hkey : (a, r) ≠ (a, job.reminderId) := fun h => hr (Prod.ext_iff.mp h).2.symm
  rw [listed]
  split_ifs
  · exact ⟨rfl, rfl⟩
  · refine ⟨?_, by rw [find_put, if_neg hr]⟩
    simp only [slot, held, update_of_ne hkey]

/-- A version let through once the fence stands at a higher one was let through before. -/
lemma admits_of_moved {s : Slot} {v w : Nat} (hv : s.Admits v)
    (hw : ({ s with fence := some v, changed := false } : Slot).Admits w) : s.Admits w := by
  intro fence hfence
  obtain ⟨hle, htomb⟩ := hv fence hfence
  obtain ⟨hle', htomb'⟩ := hw v rfl
  refine ⟨Nat.le_trans hle hle', ?_⟩
  rintro rfl
  exact htomb (Nat.le_antisymm hle' hle)

lemma TookOver.trans {jobs : List ReminderJob} {s t u : Slot}
    {f g h : Option ReminderJob} (hfirst : TookOver [job] r s t f g)
    (hrest : TookOver jobs r t u g h) : TookOver (job :: jobs) r s u f h := by
  rcases hfirst with ⟨job, hmem, hid, hadm, hfound, rfl⟩ | ⟨hnone, rfl, rfl⟩
  · rw [List.mem_singleton.mp hmem] at *
    rcases hrest with ⟨job', hmem', hid', hadm', hfound', rfl⟩ | ⟨-, rfl, rfl⟩
    · refine Or.inl ⟨job', List.mem_cons_of_mem _ hmem', hid', ?_, hfound', rfl⟩
      exact admits_of_moved hadm hadm'
    · exact Or.inl ⟨_, List.mem_cons_self, hid, hadm, hfound, rfl⟩
  · rcases hrest with ⟨job', hmem', hid', hadm', hfound', rfl⟩ | ⟨hnone', rfl, rfl⟩
    · exact Or.inl ⟨job', List.mem_cons_of_mem _ hmem', hid', hadm', hfound', rfl⟩
    · refine Or.inr ⟨?_, rfl, rfl⟩
      intro job' hjob' hid'
      rcases List.mem_cons.mp hjob' with rfl | hjob'
      · exact hnone _ (List.mem_singleton_self _) hid'
      · exact hnone' job' hjob' hid'

lemma tookOver_foldl (jobs : List ReminderJob) (acc : Mirror × List ReminderJob) :
    TookOver jobs r (acc.1.slot a r) ((jobs.foldl (listed a) acc).1.slot a r)
      (find ReminderJob.reminderId r acc.2)
      (find ReminderJob.reminderId r (jobs.foldl (listed a) acc).2) := by
  induction jobs generalizing acc with
  | nil => exact Or.inr ⟨by simp, rfl, rfl⟩
  | cons job jobs ih =>
    rw [List.foldl_cons]
    refine TookOver.trans ?_ (ih (listed a acc job))
    by_cases hr : job.reminderId = r
    · exact listed_same hr
    · obtain ⟨hslot, hfind⟩ := @listed_other a r job acc hr
      refine Or.inr ⟨?_, hfind, hslot⟩
      intro job' hjob' hid
      rw [List.mem_singleton.mp hjob'] at hid
      exact absurd hid hr

/-- After the second loop a reminder is the one taken over, or the old one if it changed. -/
lemma find_foldl_carried (changed : String → Bool) (olds taken : List ReminderJob) :
    find ReminderJob.reminderId r (olds.foldl (carried changed) taken) =
      (find ReminderJob.reminderId r taken).or
        (if changed r then find ReminderJob.reminderId r olds else none) := by
  induction olds generalizing taken with
  | nil => simp
  | cons old olds ih =>
    rw [List.foldl_cons, ih, find_cons, carried]
    by_cases hr : old.reminderId = r
    · subst hr
      by_cases hc : changed old.reminderId
      · cases hfound : find ReminderJob.reminderId old.reminderId taken with
        | none => simp [hc, find_put]
        | some job => simp [hc, hfound]
      · simp [hc]
    · split_ifs with hc <;> simp [find_put, hr]

/-! ### One message -/

lemma snapshot_slot (jobs : List ReminderJob) :
    (∃ job ∈ jobs, job.reminderId = r ∧ (m.slot a r).Admits job.version ∧
      (m.snapshot a jobs).slot a r =
        { m.slot a r with held := some job, fence := some job.version, changed := false }) ∨
    ((∀ job ∈ jobs, job.reminderId = r → ¬ (m.slot a r).Admits job.version) ∧
      (m.snapshot a jobs).slot a r =
        { m.slot a r with held := if (m.slot a r).changed then (m.slot a r).held else none }) := by
  let m₀ : Mirror := { m with authorized := update m.authorized a true }
  let acc := jobs.foldl (listed a) (m₀, [])
  have hheld : (m.snapshot a jobs).held a r =
      (find ReminderJob.reminderId r acc.2).or
        (if acc.1.changedAfterSnapshot (a, r) then m.held a r else none) := by
    have hjobs : (m.snapshot a jobs).jobs a =
        (m.jobs a).foldl (carried fun r => acc.1.changedAfterSnapshot (a, r)) acc.2 :=
      update_self _ _ _
    rw [held, hjobs]
    exact find_foldl_carried _ _ _
  have hslot : (m.snapshot a jobs).slot a r =
      { acc.1.slot a r with held := (m.snapshot a jobs).held a r } := rfl
  rw [hslot, hheld]
  have hloop : TookOver jobs r (m.slot a r) (acc.1.slot a r) none
      (find ReminderJob.reminderId r acc.2) := tookOver_foldl jobs (m₀, [])
  rcases hloop with ⟨job, hmem, hid, hadm, hfound, hacc⟩ | ⟨hnone, hfound, hacc⟩
  · refine Or.inl ⟨job, hmem, hid, hadm, ?_⟩
    rw [hfound, hacc, Option.some_or]
  · refine Or.inr ⟨hnone, ?_⟩
    have hchanged : acc.1.changedAfterSnapshot (a, r) = (m.slot a r).changed :=
      congrArg Slot.changed hacc
    rw [hfound, hacc, Option.none_or, hchanged]
    rfl

variable {b : String}

lemma slot_snapshot_other (hab : a ≠ b) (jobs : List ReminderJob) :
    (m.snapshot b jobs).slot a r = m.slot a r := by
  have hkey (r' : String) : (a, r) ≠ (b, r') := fun h => hab (Prod.ext_iff.mp h).1
  have hloop (acc : Mirror × List ReminderJob) :
      (jobs.foldl (listed b) acc).1.jobs = acc.1.jobs ∧
        (jobs.foldl (listed b) acc).1.slot a r = acc.1.slot a r := by
    induction jobs generalizing acc with
    | nil => exact ⟨rfl, rfl⟩
    | cons job jobs ih =>
      rw [List.foldl_cons]
      obtain ⟨hjobs, hslot⟩ := ih (listed b acc job)
      rw [hjobs, hslot, listed]
      split_ifs
      · exact ⟨rfl, rfl⟩
      · exact ⟨rfl, by simp only [slot, held, update_of_ne (hkey _)]⟩
  let m₀ : Mirror := { m with authorized := update m.authorized b true }
  let acc := jobs.foldl (listed b) (m₀, [])
  have hheld : (m.snapshot b jobs).held a r = acc.1.held a r :=
    congrArg (find ReminderJob.reminderId r) (update_of_ne hab _ _)
  have hslot : (m.snapshot b jobs).slot a r =
      { acc.1.slot a r with held := (m.snapshot b jobs).held a r } := rfl
  rw [hslot, hheld]
  exact (hloop (m₀, [])).2

lemma upsert_slot (hfence : (m.slot a job.reminderId).Admits job.version) :
    (m.upsert a job).slot a job.reminderId = ⟨some job, some job.version, false, true⟩ := by
  simp [upsert, fenced_eq_false.mpr hfence, slot, held, find_put]

lemma cancel_slot (hfence : (m.slot a r).Admits version) :
    (m.cancel a r version).slot a r = ⟨none, some version, true, true⟩ := by
  simp [cancel, fenced_eq_false.mpr hfence, slot, held, find_drop]

lemma slot_upsert_other (hne : (a, r) ≠ (b, job.reminderId)) :
    (m.upsert b job).slot a r = m.slot a r := by
  rw [upsert]
  split_ifs
  · rfl
  · have hheld : find ReminderJob.reminderId r (update m.jobs b
        (put ReminderJob.reminderId job (m.jobs b)) a) = m.held a r := by
      by_cases hab : a = b
      · subst hab
        have hr : job.reminderId ≠ r := fun h => hne (h ▸ rfl)
        rw [update_self, find_put, if_neg hr, held]
      · rw [update_of_ne hab, held]
    simp only [slot, held, update_of_ne hne, hheld]

lemma slot_cancel_other {r' : String} (hne : (a, r) ≠ (b, r')) :
    (m.cancel b r' version).slot a r = m.slot a r := by
  rw [cancel]
  split_ifs
  · rfl
  · have hheld : find ReminderJob.reminderId r (update m.jobs b
        (drop ReminderJob.reminderId r' (m.jobs b)) a) = m.held a r := by
      by_cases hab : a = b
      · subst hab
        have hr : r ≠ r' := fun h => hne (h ▸ rfl)
        rw [update_self, find_drop, if_neg hr, held]
      · rw [update_of_ne hab, held]
    simp only [slot, held, update_of_ne hne, hheld]

end Mirror

/-- Everything a message can do to one reminder. -/
inductive Slot.Moves (sync : ReminderSync) (a r : String) (s : Slot) : Slot → Prop
  | same : Slot.Moves sync a r s s
  | upserted {job : ReminderJob} (hop : sync.operation = .upsert job) (ha : sync.agentId = a)
      (hr : job.reminderId = r) (hfence : s.Admits job.version) :
      Slot.Moves sync a r s ⟨some job, some job.version, false, true⟩
  | cancelled {version : Nat} (hop : sync.operation = .cancel r version)
      (ha : sync.agentId = a) (hfence : s.Admits version) :
      Slot.Moves sync a r s ⟨none, some version, true, true⟩
  | listed {jobs : List ReminderJob} {job : ReminderJob} (hop : sync.operation = .snapshot jobs)
      (ha : sync.agentId = a) (hmem : job ∈ jobs) (hr : job.reminderId = r)
      (hfence : s.Admits job.version) :
      Slot.Moves sync a r s
        { s with held := some job, fence := some job.version, changed := false }
  | unlisted {jobs : List ReminderJob} (hop : sync.operation = .snapshot jobs)
      (ha : sync.agentId = a)
      (hnone : ∀ job ∈ jobs, job.reminderId = r → ¬ s.Admits job.version)
      (hchanged : s.changed = false) :
      Slot.Moves sync a r s { s with held := none }

namespace Mirror

variable {scope : Scope} {m : Mirror} {a r : String}

variable {sync : ReminderSync}

lemma snapshot_moves {jobs : List ReminderJob} (hop : sync.operation = .snapshot jobs) :
    Slot.Moves sync a r (m.slot a r) ((m.snapshot sync.agentId jobs).slot a r) := by
  by_cases ha : sync.agentId = a
  · subst ha
    rcases @snapshot_slot m sync.agentId r jobs with ⟨job, hmem, hr, hadm, heq⟩ | ⟨hnone, heq⟩
    · rw [heq]
      exact .listed hop rfl hmem hr hadm
    · rw [heq]
      by_cases hchanged : (m.slot sync.agentId r).changed
      · rw [if_pos hchanged]
        exact .same
      · rw [if_neg hchanged]
        exact .unlisted hop rfl hnone (by simpa using hchanged)
  · rw [slot_snapshot_other (Ne.symm ha)]
    exact .same

lemma upsert_moves {job : ReminderJob} (hop : sync.operation = .upsert job) :
    Slot.Moves sync a r (m.slot a r) ((m.upsert sync.agentId job).slot a r) := by
  by_cases hkey : (a, r) = (sync.agentId, job.reminderId)
  · cases hkey
    by_cases hadm : (m.slot sync.agentId job.reminderId).Admits job.version
    · rw [upsert_slot hadm]
      exact .upserted hop rfl rfl hadm
    · rw [upsert, if_pos (fenced_eq_true.mpr hadm)]
      exact .same
  · rw [slot_upsert_other hkey]
    exact .same

lemma cancel_moves {r' : String} {version : Nat} (hop : sync.operation = .cancel r' version) :
    Slot.Moves sync a r (m.slot a r) ((m.cancel sync.agentId r' version).slot a r) := by
  by_cases hkey : (a, r) = (sync.agentId, r')
  · cases hkey
    by_cases hadm : (m.slot sync.agentId r).Admits version
    · rw [cancel_slot hadm]
      exact .cancelled hop rfl hadm
    · rw [cancel, if_pos (fenced_eq_true.mpr hadm)]
      exact .same
  · rw [slot_cancel_other hkey]
    exact .same

theorem receive_moves (scope : Scope) (m : Mirror) (sync : ReminderSync) (a r : String) :
    Slot.Moves sync a r (m.slot a r) ((m.receive scope sync).slot a r) := by
  rw [receive, apply]
  by_cases hrunning : m.running
  swap
  · simp only [hrunning, Bool.not_false, if_true]
    exact .same
  by_cases hscope : scope.accepts sync
  swap
  · simp only [hrunning, hscope, Bool.not_true, Bool.false_eq_true, if_false, Bool.not_false,
      if_true]
    exact .same
  simp only [hrunning, hscope, Bool.not_true, Bool.false_eq_true, if_false]
  cases hop : sync.operation with
  | snapshot jobs => exact snapshot_moves hop
  | upsert job =>
    by_cases hauth : m.authorized sync.agentId
    · simp only [hauth, if_true]
      exact upsert_moves hop
    · simp only [hauth]
      exact .same
  | cancel r' version =>
    by_cases hauth : m.authorized sync.agentId
    · simp only [hauth, if_true]
      exact cancel_moves hop
    · simp only [hauth]
      exact .same

end Mirror

/-! ### The laws of a mirror -/

/-- A held job stands at the version the reminder was last heard at. -/
def Slot.Coherent (r : String) (s : Slot) : Prop :=
  ∀ job, s.held = some job → s.fence = some job.version ∧ job.reminderId = r

variable {sync : ReminderSync} {s s' : Slot}

lemma Slot.Moves.coherent {a r : String}
    (hs : s.Coherent r) (h : Slot.Moves sync a r s s') : s'.Coherent r := by
  intro job hjob
  cases h with
  | same => exact hs job hjob
  | upserted hop ha hr hfence =>
    cases hjob
    exact ⟨rfl, hr⟩
  | cancelled hop ha hfence => cases hjob
  | listed hop ha hmem hr hfence =>
    cases hjob
    exact ⟨rfl, hr⟩
  | unlisted hop ha hnone hchanged => cases hjob

/-- The messages that may move a job held at its version: an upsert or a cancel that is not
older, a snapshot that lists a job that is not older, or one that lists the reminder at no higher
version, if no single change came since a snapshot last listed it. -/
def Supersedes (sync : ReminderSync) (a : String) (job : ReminderJob) (changed : Bool)
    (now : Option ReminderJob) : Prop :=
  sync.agentId = a ∧
  ((∃ job', sync.operation = .upsert job' ∧ job'.reminderId = job.reminderId ∧
      job.version ≤ job'.version ∧ now = some job') ∨
    (∃ version, sync.operation = .cancel job.reminderId version ∧ job.version ≤ version ∧
      now = none) ∨
    (∃ jobs job', sync.operation = .snapshot jobs ∧ job' ∈ jobs ∧
      job'.reminderId = job.reminderId ∧ job.version ≤ job'.version ∧ now = some job') ∨
    (∃ jobs, sync.operation = .snapshot jobs ∧
      (∀ job' ∈ jobs, job'.reminderId = job.reminderId → job'.version ≤ job.version) ∧
      changed = false ∧ now = none))

lemma Slot.Moves.held {a r : String} {job : ReminderJob}
    (hs : s.Coherent r) (h : Slot.Moves sync a r s s') (hjob : s.held = some job) :
    s'.held = some job ∨ Supersedes sync a job s.changed s'.held := by
  obtain ⟨hfence, rfl⟩ := hs job hjob
  cases h with
  | same => exact Or.inl hjob
  | upserted hop ha hr hadm =>
    exact Or.inr ⟨ha, Or.inl ⟨_, hop, hr, (hadm _ hfence).1, rfl⟩⟩
  | cancelled hop ha hadm =>
    exact Or.inr ⟨ha, Or.inr (Or.inl ⟨_, hop, (hadm _ hfence).1, rfl⟩)⟩
  | listed hop ha hmem hr hadm =>
    exact Or.inr ⟨ha, Or.inr (Or.inr (Or.inl ⟨_, _, hop, hmem, hr, (hadm _ hfence).1, rfl⟩))⟩
  | unlisted hop ha hnone hchanged =>
    refine Or.inr ⟨ha, Or.inr (Or.inr (Or.inr ⟨_, hop, ?_, hchanged, rfl⟩))⟩
    intro job' hmem hr
    by_contra hlt
    refine hnone job' hmem hr ?_
    intro fence hfence'
    cases hfence.symm.trans hfence'
    exact ⟨by omega, by omega⟩

/-- A message that brings nothing about a reminder at a version or above it. -/
def Stale (a r : String) (version : Nat) (sync : ReminderSync) : Prop :=
  sync.agentId = a →
    match sync.operation with
    | .snapshot jobs    => ∀ job ∈ jobs, job.reminderId = r → job.version < version
    | .upsert job       => job.reminderId = r → job.version < version
    | .cancel r' version' => r' = r → version' < version

lemma Slot.Moves.stale {a r : String} {job : ReminderJob}
    (hfence : s.fence = some job.version) (hchanged : s.changed = true)
    (hstale : Stale a r job.version sync) (h : Slot.Moves sync a r s s') : s' = s := by
  cases h with
  | same => rfl
  | upserted hop ha hr hadm =>
    have hlt := hstale ha
    rw [hop] at hlt
    exact absurd (hadm _ hfence).1 (Nat.not_le.mpr (hlt hr))
  | cancelled hop ha hadm =>
    have hlt := hstale ha
    rw [hop] at hlt
    exact absurd (hadm _ hfence).1 (Nat.not_le.mpr (hlt rfl))
  | listed hop ha hmem hr hadm =>
    have hlt := hstale ha
    rw [hop] at hlt
    exact absurd (hadm _ hfence).1 (Nat.not_le.mpr (hlt _ hmem hr))
  | unlisted hop ha hnone hchanged' => exact absurd hchanged (by simp [hchanged'])

/-- Nothing at a version or below it is held, and the fence lets nothing of the kind in. -/
def Slot.Above (version : Nat) (s : Slot) : Prop :=
  (∀ job, s.held = some job → version < job.version) ∧ ∀ v, s.Admits v → version < v

lemma Slot.Moves.above {a r : String} {version : Nat}
    (hs : s.Above version) (h : Slot.Moves sync a r s s') : s'.Above version := by
  obtain ⟨hheld, hadmits⟩ := hs
  cases h with
  | same => exact ⟨hheld, hadmits⟩
  | upserted hop ha hr hadm =>
    refine ⟨?_, fun v hv => Nat.lt_of_lt_of_le (hadmits _ hadm) (hv _ rfl).1⟩
    intro job hjob
    cases hjob
    exact hadmits _ hadm
  | cancelled hop ha hadm =>
    exact ⟨nofun, fun v hv => Nat.lt_of_lt_of_le (hadmits _ hadm) (hv _ rfl).1⟩
  | listed hop ha hmem hr hadm =>
    refine ⟨?_, fun v hv => Nat.lt_of_lt_of_le (hadmits _ hadm) (hv _ rfl).1⟩
    intro job hjob
    cases hjob
    exact hadmits _ hadm
  | unlisted hop ha hnone hchanged => exact ⟨nofun, hadmits⟩

namespace Mirror

variable {scope : Scope} {m : Mirror} {a r : String}

/-- An upsert that the mirror takes: the Agent has had a snapshot, and the fence lets it in. -/
def Takes (scope : Scope) (m : Mirror) (sync : ReminderSync) (job : ReminderJob) : Prop :=
  m.running ∧ scope.accepts sync ∧ sync.operation = .upsert job ∧ m.authorized sync.agentId ∧
    m.fenced (sync.agentId, job.reminderId) job.version = false

/-- A cancel that reaches an Agent that has had a snapshot. -/
def Hears (scope : Scope) (m : Mirror) (sync : ReminderSync) (r : String) (version : Nat) : Prop :=
  m.running ∧ scope.accepts sync ∧ sync.operation = .cancel r version ∧ m.authorized sync.agentId

lemma slot_of_takes {sync : ReminderSync} {job : ReminderJob} (h : m.Takes scope sync job) :
    (m.receive scope sync).slot sync.agentId job.reminderId =
      ⟨some job, some job.version, false, true⟩ := by
  obtain ⟨hrunning, haccepts, hop, hauth, hfence⟩ := h
  have hreceive : m.receive scope sync = m.upsert sync.agentId job := by
    simp [receive, apply, hrunning, haccepts, hop, hauth]
  rw [hreceive]
  exact upsert_slot (fenced_eq_false.mp hfence)

/-- A cancel leaves nothing at its version or below to come back, unless it left the job there. -/
lemma above_of_hears {sync : ReminderSync} {version : Nat} (h : m.Hears scope sync r version)
    (hgone : ∀ job, (m.receive scope sync).held sync.agentId r = some job → version < job.version) :
    ((m.receive scope sync).slot sync.agentId r).Above version := by
  obtain ⟨hrunning, haccepts, hop, hauth⟩ := h
  have hreceive : m.receive scope sync = m.cancel sync.agentId r version := by
    simp [receive, apply, hrunning, haccepts, hop, hauth]
  refine ⟨hgone, ?_⟩
  intro v hv
  rw [hreceive] at hv
  by_cases hadm : (m.slot sync.agentId r).Admits version
  · rw [cancel_slot hadm] at hv
    obtain ⟨hle, htomb⟩ := hv version rfl
    have hne : v ≠ version := fun h => Bool.true_eq_false.mp (htomb h)
    omega
  · rw [cancel, if_pos (fenced_eq_true.mpr hadm)] at hv
    rw [Slot.Admits] at hadm
    push Not at hadm
    obtain ⟨fence, hfence, hturned⟩ := hadm
    obtain ⟨hle, htomb⟩ := hv fence hfence
    by_contra hlt
    obtain ⟨heq, htrue⟩ := hturned (by omega)
    exact htrue (htomb (by omega))

lemma after_invariant {Inv : Slot → Prop} {ok : ReminderSync → Prop}
    (hstep : ∀ sync s s', ok sync → Inv s → Slot.Moves sync a r s s' → Inv s')
    (hm : Inv (m.slot a r)) {syncs : List ReminderSync} (hok : ∀ sync ∈ syncs, ok sync) :
    Inv ((m.after scope syncs).slot a r) := by
  induction syncs generalizing m with
  | nil => exact hm
  | cons sync syncs ih =>
    have hmoves := receive_moves scope m sync a r
    refine ih (hstep sync _ _ (hok sync List.mem_cons_self) hm hmoves) ?_
    exact fun sync' hsync' => hok sync' (List.mem_cons_of_mem _ hsync')

lemma after_coherent (syncs : List ReminderSync) :
    ((initial.after scope syncs).slot a r).Coherent r := by
  have hinitial : (initial.slot a r).Coherent r := nofun
  exact @after_invariant scope _ a r (Slot.Coherent r) (fun _ => True)
    (fun _ _ _ _ hs h => h.coherent hs) hinitial syncs fun _ _ => trivial

/-- The laws of a mirror. A held job stays until a message supersedes it; one that came by an
upsert stays through every sequence of stale messages; and one that is gone after a cancel, or
held above it, does not come back at the version of the cancel or below. -/
structure Converges (scope : Scope) (m : Mirror) : Prop where
  held : ∀ sync a r job, m.held a r = some job →
    (m.receive scope sync).held a r = some job ∨
      Supersedes sync a job (m.changedAfterSnapshot (a, r)) ((m.receive scope sync).held a r)
  upserted : ∀ sync job later, m.Takes scope sync job →
    (∀ sync' ∈ later, Stale sync.agentId job.reminderId job.version sync') →
    ((m.receive scope sync).after scope later).held sync.agentId job.reminderId = some job
  cancelled : ∀ sync r version later, m.Hears scope sync r version →
    (∀ job, (m.receive scope sync).held sync.agentId r = some job → version < job.version) →
    ∀ job, ((m.receive scope sync).after scope later).held sync.agentId r = some job →
      version < job.version

/-- A stricter law: only an upsert of a higher version, a cancel, or a snapshot that does not list
the reminder moves a held job. -/
def Strict (scope : Scope) (m : Mirror) (sync : ReminderSync) (a r : String) : Prop :=
  ∀ job, m.held a r = some job → (m.receive scope sync).held a r = some job ∨
    match sync.operation with
    | .upsert job'       => job'.reminderId = r ∧ job.version < job'.version
    | .cancel r' version => r' = r ∧ job.version ≤ version
    | .snapshot jobs     => ∀ job' ∈ jobs, job'.reminderId ≠ r

end Mirror

section Example

private def here : Scope := ⟨"workspace-a", "computer-a"⟩

private def review (version : Nat) : ReminderJob :=
  ⟨"review", "agent-a", version, "Review", "#general", "0a1b2c3d", 1000⟩

private def toAgent (operation : SyncOperation) : ReminderSync :=
  ⟨1, "workspace-a", "computer-a", "agent-a", operation⟩

end Example

end Coforge.Reminder
