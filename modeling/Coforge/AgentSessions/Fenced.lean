import Coforge.AgentSessions.Calls
import Coforge.Lib.Run

/-!
# A retired launch cannot change the session

The compare-and-set makes every write replace the reference that its call checked. Within a start
only reports change the reference, and each names or follows the launch and the session it replaces,
so a launch or session that was replaced stays so.
-/

namespace Coforge.AgentSessions

open Transition List Option

/-! ### What the calls write -/

/-- What a report has in common with the reference it is accepted over. -/
structure Verified (report : AgentSessionReport) (old : RuntimeSessionReference) : Prop where
  startRequestId : old.startRequestId = report.startRequestId
  daemonInstanceId : old.daemonInstanceId = report.daemonInstanceId
  launchId : follows old.launchId report.launchId report.previousLaunchId
  sessionId : follows old.sessionId report.sessionId report.replacedSessionId

section Calls

variable {a : Agent} {p : Pending}

lemma accept_spec {report : AgentSessionReport} {currentDaemon : Option String}
    (h : accept a report currentDaemon = .ok p) :
    ∃ old, a.reference = some old ∧ Verified report old ∧
      p = ⟨.accept report, report.workspaceId, some old, accepted report old⟩ := by
  simp only [accept, verify] at h
  cases hreference : a.reference with
  | none =>
    rw [hreference] at h
    cases h
  | some old =>
    simp only [hreference] at h
    split_ifs at h with hif
    · cases h
      exact ⟨old, rfl, ⟨hif.2.2.2.2.2.1, hif.2.2.2.2.2.2.1, hif.2.2.2.2.2.2.2.1,
        hif.2.2.2.2.2.2.2.2.1⟩, rfl⟩
    · cases h

/-- A prepare writes back the reference of the launch in force, or selects a new launch. -/
lemma prepare_spec {intent : AgentStartIntent} {currentDaemon : Option String} {randomUUID : String}
    (h : prepare a intent currentDaemon randomUUID = .ok p) :
    (∃ old, a.reference = some old ∧
        p = ⟨.prepare intent (repeated intent old), intent.workspaceId, some old, old⟩) ∨
      ∃ daemonInstanceId,
        (∀ old ∈ a.reference, ¬(old.sameRequest intent ∧ old.daemonInstanceId = daemonInstanceId)) ∧
        let next := selected intent a.reference daemonInstanceId randomUUID
        (next.sessionMode = some .resume → truthy next.sessionId) ∧
          p = ⟨.prepare intent (started intent next), intent.workspaceId, a.reference, next⟩ := by
  simp only [prepare] at h
  split_ifs at h
  split at h
  · cases h
  rename_i daemonInstanceId _
  split at h
  · rename_i old hold
    split_ifs at h
    cases h
    exact .inl ⟨old, (filter_eq_some_iff.mp hold).1, rfl⟩
  · rename_i hold
    split_ifs at h with hresume
    cases h
    refine .inr ⟨daemonInstanceId, fun old hmem hsame => ?_, fun hmode => ?_, rfl⟩
    · refine filter_eq_none_iff.mp hold old hmem ?_
      have hcompatible : old.compatible intent := by
        have hsame := hsame.1
        simp only [RuntimeSessionReference.sameRequest, decide_eq_true_eq] at hsame
        exact hsame.1
      simp [RuntimeSessionReference.continues, hcompatible, hsame.1, hsame.2]
    · by_contra hunset
      exact hresume ⟨hmode, hunset⟩

lemma retire_spec {workspaceId computerId randomUUID : String}
    (h : retire a workspaceId computerId randomUUID = .ok (some p)) :
    ∃ old, a.reference = some old ∧
      p = ⟨.retire, workspaceId, some old, retired a old computerId randomUUID⟩ := by
  simp only [retire] at h
  split_ifs at h
  obtain ⟨old, hold, rfl⟩ := map_eq_some_iff.mp (Except.ok.inj h)
  exact ⟨old, hold, rfl⟩

end Calls

/-- A pending call has checked a row of the Agent. -/
def Pending.Checked (a : Agent) (p : Pending) : Prop :=
  (∃ report currentDaemon, accept a report currentDaemon = .ok p) ∨
    (∃ intent currentDaemon randomUUID, prepare a intent currentDaemon randomUUID = .ok p) ∨
      ∃ workspaceId computerId randomUUID, retire a workspaceId computerId randomUUID = .ok (some p)

lemma Pending.Checked.previous {a : Agent} {p : Pending} (h : p.Checked a) :
    p.previous = a.reference := by
  rcases h with ⟨report, currentDaemon, h⟩ | ⟨intent, currentDaemon, randomUUID, h⟩ |
    ⟨workspaceId, computerId, randomUUID, h⟩
  · obtain ⟨old, hold, -, rfl⟩ := accept_spec h
    exact hold.symm
  · rcases prepare_spec h with ⟨old, hold, rfl⟩ | ⟨daemonInstanceId, -, -, rfl⟩
    · exact hold.symm
    · rfl
  · obtain ⟨old, hold, rfl⟩ := retire_spec h
    exact hold.symm

/-- The row is in the scope of its fence, every pending call has checked an earlier row, and its
report is one of those of the run. -/
structure World.Sound (reports : AgentSessionReport → Prop) (w : World) : Prop where
  inScope : w.agent.Scoped
  checked : ∀ p ∈ w.pending, ∃ a, p.Checked a
  reported : ∀ p ∈ w.pending, ∀ report, p.call = .accept report → reports report

/-- The report that an event brings is one of some. -/
def Event.Reports (reports : AgentSessionReport → Prop) : Event → Prop
  | .accept report _ => reports report
  | _ => True

section Steps

variable {reports : AgentSessionReport → Prop} {w w' : World} {event : Event} {index : Nat}
  {granted : Bool} {call : Call}

lemma World.sound_start {a : Agent} (hscoped : a.Scoped) : (⟨a, []⟩ : World).Sound reports :=
  ⟨hscoped, forall_mem_nil _, forall_mem_nil _⟩

/-- A write that goes through. -/
structure Writes (w : World) (p : Pending) (granted : Bool) (w' : World) : Prop where
  mem : p ∈ w.pending
  agent : w.agent.replace p.workspaceId p.previous p.next granted = some w'.agent
  pending : w'.pending ⊆ w.pending

lemma step_spec (h : step w event = some w') :
    (w'.agent = w.agent ∧ ∀ p ∈ w'.pending, p ∈ w.pending ∨ p.Checked w.agent ∧
        ∀ report, p.call = .accept report → ∃ currentDaemon, event = .accept report currentDaemon) ∨
      ∃ index granted p, event = .write index granted ∧ w.pending[index]? = some p ∧
        execute w event = some (.done p.call, w') ∧ Writes w p granted w' := by
  obtain ⟨⟨reply, x⟩, hexecute, rfl⟩ := map_eq_some_iff.mp h
  have hold : ∀ p ∈ w.pending, p ∈ w.pending ∨ p.Checked w.agent ∧
      ∀ report, p.call = .accept report → ∃ currentDaemon, event = .accept report currentDaemon :=
    fun p hp => .inl hp
  cases event with
  | prepare intent currentDaemon randomUUID =>
    left
    simp only [execute, some_inj] at hexecute
    cases hprepare : prepare w.agent intent currentDaemon randomUUID with
    | error refusal =>
      rw [hprepare] at hexecute
      cases hexecute
      exact ⟨rfl, hold⟩
    | ok p =>
      rw [hprepare] at hexecute
      cases hexecute
      refine ⟨rfl, fun q hq => (mem_append.mp hq).imp_right fun hq => ?_⟩
      rw [mem_singleton.mp hq]
      refine ⟨.inr (.inl ⟨_, _, _, hprepare⟩), fun report hcall => ?_⟩
      rcases prepare_spec hprepare with ⟨old, -, rfl⟩ | ⟨daemonInstanceId, -, -, rfl⟩ <;>
        cases hcall
  | accept report currentDaemon =>
    left
    simp only [execute, some_inj] at hexecute
    cases haccept : accept w.agent report currentDaemon with
    | error refusal =>
      rw [haccept] at hexecute
      cases hexecute
      exact ⟨rfl, hold⟩
    | ok p =>
      rw [haccept] at hexecute
      cases hexecute
      refine ⟨rfl, fun q hq => (mem_append.mp hq).imp_right fun hq => ?_⟩
      rw [mem_singleton.mp hq]
      refine ⟨.inl ⟨_, _, haccept⟩, fun report' hcall => ?_⟩
      obtain ⟨old, -, -, rfl⟩ := accept_spec haccept
      cases hcall
      exact ⟨_, rfl⟩
  | retire workspaceId computerId randomUUID =>
    left
    simp only [execute, some_inj] at hexecute
    cases hretire : retire w.agent workspaceId computerId randomUUID with
    | error refusal =>
      rw [hretire] at hexecute
      cases hexecute
      exact ⟨rfl, hold⟩
    | ok pending =>
      rw [hretire] at hexecute
      cases pending with
      | none =>
        cases hexecute
        exact ⟨rfl, hold⟩
      | some p =>
        cases hexecute
        refine ⟨rfl, fun q hq => (mem_append.mp hq).imp_right fun hq => ?_⟩
        rw [mem_singleton.mp hq]
        refine ⟨.inr (.inr ⟨_, _, _, hretire⟩), fun report hcall => ?_⟩
        obtain ⟨old, -, rfl⟩ := retire_spec hretire
        cases hcall
  | write index granted =>
    obtain ⟨p, hp, hwrite⟩ := map_eq_some_iff.mp hexecute
    simp only [World.write] at hwrite
    cases hreplace : w.agent.replace p.workspaceId p.previous p.next granted with
    | none =>
      rw [hreplace] at hwrite
      cases hwrite
      exact .inl ⟨rfl, fun q hq => .inl (mem_of_mem_eraseIdx hq)⟩
    | some agent =>
      rw [hreplace] at hwrite
      cases hwrite
      exact .inr ⟨index, granted, p, rfl, hp, hexecute, mem_of_getElem? hp, hreplace,
        fun q hq => mem_of_mem_eraseIdx hq⟩

lemma execute_write (h : execute w (.write index granted) = some (.done call, w')) :
    ∃ p, w.pending[index]? = some p ∧ p.call = call ∧ Writes w p granted w' := by
  obtain ⟨p, hp, hwrite⟩ := map_eq_some_iff.mp h
  simp only [World.write] at hwrite
  cases hreplace : w.agent.replace p.workspaceId p.previous p.next granted with
  | none =>
    rw [hreplace] at hwrite
    exact nomatch congrArg Prod.fst hwrite
  | some agent =>
    rw [hreplace] at hwrite
    cases hwrite
    exact ⟨p, hp, rfl, mem_of_getElem? hp, hreplace, fun q hq => mem_of_mem_eraseIdx hq⟩

theorem World.Sound.of_step (hsound : w.Sound reports) (hreports : event.Reports reports)
    (h : step w event = some w') : w'.Sound reports := by
  rcases step_spec h with ⟨hagent, hpending⟩ | ⟨index, granted, p, rfl, -, -, hwrites⟩
  · refine ⟨hagent ▸ hsound.inScope, fun p hp => ?_, fun p hp report hcall => ?_⟩
    · rcases hpending p hp with hold | ⟨hchecked, -⟩
      · exact hsound.checked p hold
      · exact ⟨_, hchecked⟩
    · rcases hpending p hp with hold | ⟨-, hevent⟩
      · exact hsound.reported p hold report hcall
      · obtain ⟨currentDaemon, rfl⟩ := hevent report hcall
        exact hreports
  · exact ⟨Agent.Scoped.replace hwrites.agent, fun p hp => hsound.checked p (hwrites.pending hp),
      fun p hp => hsound.reported p (hwrites.pending hp)⟩

theorem World.Sound.of_run {events : List Event} (hsound : w.Sound reports)
    (hreports : ∀ event ∈ events, event.Reports reports) (h : run step w events = some w') :
    w'.Sound reports :=
  invariant (fun _ _ _ hsound hreports h => World.Sound.of_step hsound hreports h) hsound
    (permitted_of_mem hreports w) h

/-! ### What a write replaces -/

lemma Writes.spec {p : Pending} {previous : RuntimeSessionReference} (hsound : w.Sound reports)
    (h : Writes w p granted w') (hprevious : p.previous = some previous) :
    ∃ old new, w.reference = some old ∧ old.toFence = previous.toFence ∧
      old.sessionId = previous.sessionId ∧ w'.reference = some new ∧
      new.toFence = p.next.toFence ∧ new.sessionId =
        if truthy p.next.sessionId then p.next.sessionId
        else if (previous.provider = p.next.provider ∧ previous.computerId = p.next.computerId) ∧
            p.next.sessionMode ≠ some .create then previous.sessionId else none := by
  obtain ⟨a, hchecked⟩ := hsound.checked p h.mem
  have hread : a.reference = some previous := hchecked.previous.symm.trans hprevious
  have hmatches : w.agent.matches (some previous) := hprevious ▸ (replace_eq_some h.agent).1
  obtain ⟨old, hold, hfence, hsession⟩ := reference_of_matches hsound.inScope hmatches
  obtain ⟨new, hnew, hfence', hsession'⟩ := reference_replace h.agent
  rw [filter_sessionId hread] at hsession
  refine ⟨old, new, hold, hfence, hsession, hnew, hfence', ?_⟩
  have hplace : w.agent.currentSession.any (·.scoped p.next.toFence) ↔
      previous.provider = p.next.provider ∧ previous.computerId = p.next.computerId := by
    have hruntime : w.agent.runtimeSession = some previous.toFence := by
      simp only [Agent.matches, map_some, decide_eq_true_eq] at hmatches
      exact hmatches.1
    have hrow := hsound.inScope previous.toFence hruntime
    cases hcurrent : w.agent.currentSession with
    | none =>
      rw [hcurrent] at hrow
      exact absurd hrow (by simp)
    | some session =>
      rw [hcurrent] at hrow
      simp only [any_some, AgentSession.scoped, decide_eq_true_eq] at hrow ⊢
      rw [← hrow.1, ← hrow.2]
      exact and_congr eq_comm eq_comm
  rw [hsession', native_of_matches hmatches, filter_sessionId hread]
  simp only [hplace]

/-- A reference that a report leads to, and the one it replaces. -/
structure Succeeds (report : AgentSessionReport) (old new : RuntimeSessionReference) : Prop
    extends Verified report old where
  fence : new.toFence = (accepted report old).toFence
  session : new.sessionId = if report.sessionId = "" then old.sessionId else some report.sessionId

/-- An accepted report names or follows what it replaces. -/
theorem succeeds_of_accept {report : AgentSessionReport} (hsound : w.Sound reports)
    (h : execute w (.write index granted) = some (.done (.accept report), w')) :
    ∃ old new, w.reference = some old ∧ w'.reference = some new ∧ Succeeds report old new := by
  obtain ⟨p, -, hcall, hwrites⟩ := execute_write h
  obtain ⟨a, hchecked⟩ := hsound.checked p hwrites.mem
  rcases hchecked with ⟨report', currentDaemon, haccept⟩ |
    ⟨intent, currentDaemon, randomUUID, hprepare⟩ | ⟨workspaceId, computerId, randomUUID, hretire⟩
  · obtain ⟨previous, -, hverified, rfl⟩ := accept_spec haccept
    cases hcall
    obtain ⟨old, new, hold, hfence, hsession, hnew, hfence', hsession'⟩ := hwrites.spec hsound rfl
    have hlaunch : old.launchId = previous.launchId := congrArg Fence.launchId hfence
    refine ⟨old, new, hold, hnew, ⟨?_, ?_, ?_, ?_⟩, ?_, ?_⟩
    · exact (congrArg Fence.startRequestId hfence).trans hverified.startRequestId
    · exact (congrArg Fence.daemonInstanceId hfence).trans hverified.daemonInstanceId
    · exact hlaunch ▸ hverified.launchId
    · exact hsession ▸ hverified.sessionId
    · rw [hfence', accepted, accepted, hfence]
    · rw [hsession', hsession]
      by_cases hempty : report.sessionId = "" <;> simp [accepted, truthy, hempty]
  · rcases prepare_spec hprepare with ⟨old, -, rfl⟩ | ⟨daemonInstanceId, -, -, rfl⟩ <;> cases hcall
  · obtain ⟨old, -, rfl⟩ := retire_spec hretire
    cases hcall

/-! ### Starts -/

/-- A launch that a reference stands for: a start request to a daemon instance. -/
structure Start where
  provider : RuntimeProvider
  computerId : String
  startRequestId : String
  daemonInstanceId : String
  daemonInstanceId_ne : daemonInstanceId ≠ ""

def Fence.In (fence : Fence) (start : Start) : Prop :=
  fence.provider = start.provider ∧ fence.computerId = start.computerId ∧
    fence.startRequestId = start.startRequestId ∧ fence.daemonInstanceId = start.daemonInstanceId

/-- A start is in force. -/
def World.In (w : World) (start : Start) : Prop := ∃ r ∈ w.reference, r.toFence.In start

/-- An event leaves a start in force. -/
def Stays (start : Start) (w : World) (event : Event) : Prop :=
  ∀ w', step w event = some w' → w'.In start

/-- A reference keeps its launch and its session, or an accepted report names others. -/
inductive Moves (reports : AgentSessionReport → Prop) (w : World) (event : Event) (w' : World)
    (old new : RuntimeSessionReference) : Prop
  | kept (launch : new.launchId = old.launchId) (session : new.sessionId = old.sessionId)
  | accepted (report : AgentSessionReport) (hreports : reports report)
      (hexecute : execute w event = some (.done (.accept report), w'))
      (hsucceeds : Succeeds report old new)

/-- Within a start, only reports change the launch and the session. -/
theorem moves_of_step {start : Start} (hsound : w.Sound reports) (hin : w.In start)
    (h : step w event = some w') (hin' : w'.In start) :
    ∃ old new, w.reference = some old ∧ w'.reference = some new ∧
      Moves reports w event w' old new := by
  rcases step_spec h with ⟨hagent, -⟩ | ⟨index, granted, p, rfl, -, hexecute, hwrites⟩
  · obtain ⟨r, hr, -⟩ := hin
    refine ⟨r, r, hr, ?_, .kept rfl rfl⟩
    rw [World.reference, hagent]
    exact hr
  obtain ⟨a, hchecked⟩ := hsound.checked p hwrites.mem
  have hchecked' := hchecked
  rcases hchecked with ⟨report, currentDaemon, haccept⟩ |
    ⟨intent, currentDaemon, randomUUID, hprepare⟩ | ⟨workspaceId, computerId, randomUUID, hretire⟩
  · obtain ⟨previous, -, -, rfl⟩ := accept_spec haccept
    obtain ⟨old, new, hold, hnew, hsucceeds⟩ := succeeds_of_accept hsound hexecute
    exact ⟨old, new, hold, hnew,
      .accepted report (hsound.reported _ hwrites.mem report rfl) hexecute hsucceeds⟩
  · rcases prepare_spec hprepare with ⟨previous, hread, rfl⟩ | ⟨daemonInstanceId, hother, -, rfl⟩
    · obtain ⟨old, new, hold, hfence, hsession, hnew, hfence', hsession'⟩ := hwrites.spec hsound rfl
      refine ⟨old, new, hold, hnew, .kept ?_ ?_⟩
      · exact congrArg Fence.launchId (hfence'.trans hfence.symm)
      · rw [hsession', hsession]
        by_cases hset : truthy previous.sessionId
        · rw [if_pos hset]
        · rw [if_neg hset, ← filter_sessionId hread, filter_of_not_truthy hset, ite_self]
    · -- A new launch of the start in force would have been recognised.
      cases hread : a.reference with
      | none =>
        obtain ⟨r, hr, -⟩ := hin
        have hmatches := (replace_eq_some hwrites.agent).1
        simp only [hread, Agent.matches, map_none, decide_eq_true_eq] at hmatches
        rw [World.reference, Agent.reference, hmatches.1] at hr
        cases hr
      | some previous =>
        obtain ⟨old, new, hold, hfence, -, hnew, hfence', -⟩ := hwrites.spec hsound hread
        obtain ⟨r, hr, hr'⟩ := hin
        obtain ⟨s, hs, hs'⟩ := hin'
        obtain rfl : old = r := some.inj (hold.symm.trans hr)
        obtain rfl : new = s := some.inj (hnew.symm.trans hs)
        rw [hfence] at hr'
        rw [hfence'] at hs'
        obtain ⟨hprovider, hcomputer, hrequest, hdaemon⟩ := hr'
        obtain ⟨hprovider', hcomputer', hrequest', hdaemon'⟩ := hs'
        refine absurd ⟨?_, hdaemon.trans hdaemon'.symm⟩ (hother previous hread)
        simp only [RuntimeSessionReference.sameRequest, RuntimeSessionReference.compatible,
          decide_eq_true_eq]
        exact ⟨⟨hprovider.trans hprovider'.symm, hcomputer.trans hcomputer'.symm⟩,
          hrequest.trans hrequest'.symm⟩
  · obtain ⟨previous, -, rfl⟩ := retire_spec hretire
    obtain ⟨old, new, -, -, -, hnew, hfence', -⟩ := hwrites.spec hsound rfl
    obtain ⟨s, hs, hs'⟩ := hin'
    obtain rfl : new = s := some.inj (hnew.symm.trans hs)
    exact absurd (hs'.2.2.2.symm.trans (congrArg Fence.daemonInstanceId hfence'))
      start.daemonInstanceId_ne

end Steps

/-! ### Launches and sessions that were replaced -/

/-- A report of launches and sessions that are never reused: what it follows is older. -/
def AgentSessionReport.Dated (launchAge sessionAge : String → Nat) (report : AgentSessionReport) :
    Prop :=
  (∀ l ∈ report.previousLaunchId, l = report.launchId ∨ launchAge l < launchAge report.launchId) ∧
    ∀ s ∈ report.replacedSessionId,
      s = report.sessionId ∨ sessionAge s < sessionAge report.sessionId

/-- An id is kept, or gives way to a younger one. -/
def Ages (age : String → Nat) (old new : Option String) : Prop :=
  ∀ x, x ≠ "" → old = some x → ∃ y, y ≠ "" ∧ new = some y ∧ (y = x ∨ age x < age y)

def World.launch (w : World) : Option String := w.reference.bind (·.launchId)

def World.session (w : World) : Option String := w.reference.bind (·.sessionId)

section Ages

variable {age launchAge sessionAge : String → Nat} {reports : AgentSessionReport → Prop}
  {w w' u v x : World} {event : Event} {start : Start}

lemma Ages.refl (s : Option String) : Ages age s s :=
  fun x hx hs => ⟨x, hx, hs, .inl rfl⟩

lemma Ages.trans {r s t : Option String} (h : Ages age r s) (h' : Ages age s t) : Ages age r t := by
  intro x hx hr
  obtain ⟨y, hy, hs, hxy⟩ := h x hx hr
  obtain ⟨z, hz, ht, hyz⟩ := h' y hy hs
  refine ⟨z, hz, ht, ?_⟩
  rcases hxy with rfl | hxy
  · exact hyz
  · rcases hyz with rfl | hyz
    · exact .inr hxy
    · exact .inr (Nat.lt_trans hxy hyz)

lemma Ages.ne {r s t : Option String} {id : String} (h : Ages age r s) (h' : Ages age s t)
    (hid : id ≠ "") (hr : r = some id) (hs : s ≠ some id) : t ≠ some id := by
  rintro rfl
  obtain ⟨y, hy, rfl, hlt⟩ := h id hid hr
  obtain ⟨z, -, hz, hle⟩ := h' y hy rfl
  cases hz
  have hne : y ≠ id := fun heq => hs (heq ▸ rfl)
  rcases hlt with heq | hlt
  · exact hne heq
  · rcases hle with heq | hle
    · exact hne heq.symm
    · omega

/-- A reference that follows what a report names, or what it follows, gives way to a younger id. -/
lemma ages_of_follows {old followed : Option String} {new : String} (hnew : new ≠ "")
    (hfollows : follows old new followed)
    (hdated : ∀ id ∈ followed, id = new ∨ age id < age new) : Ages age old (some new) := by
  rintro x hx rfl
  refine ⟨new, hnew, rfl, ?_⟩
  have hset : truthy (some x) := by simpa [truthy] using hx
  simp only [follows, decide_eq_true_eq] at hfollows
  rcases hfollows hset with hsame | hfollowed
  · exact .inl (some.inj hsame).symm
  · exact (hdated x hfollowed.symm).imp_left Eq.symm

lemma ages_of_step (hsound : w.Sound (AgentSessionReport.Dated launchAge sessionAge))
    (hin : w.In start) (h : step w event = some w') (hin' : w'.In start) :
    Ages launchAge w.launch w'.launch ∧ Ages sessionAge w.session w'.session := by
  obtain ⟨old, new, hold, hnew, hmoves⟩ := moves_of_step hsound hin h hin'
  rw [World.launch, World.launch, World.session, World.session, hold, hnew]
  simp only [bind_some]
  cases hmoves with
  | kept hlaunch hsession =>
    rw [hlaunch, hsession]
    exact ⟨Ages.refl _, Ages.refl _⟩
  | accepted report hdated hexecute hsucceeds =>
    have hlaunch : new.launchId = some report.launchId := congrArg Fence.launchId hsucceeds.fence
    rw [hlaunch, hsucceeds.session]
    refine ⟨ages_of_follows report.launchId_ne hsucceeds.launchId hdated.1, ?_⟩
    split_ifs with hempty
    · exact Ages.refl _
    · exact ages_of_follows hempty hsucceeds.sessionId hdated.2

/-- Within a start, launches and sessions only give way to younger ones. -/
theorem ages_of_run {events : List Event}
    (hsound : w.Sound (AgentSessionReport.Dated launchAge sessionAge)) (hin : w.In start)
    (hdated : ∀ event ∈ events, event.Reports (AgentSessionReport.Dated launchAge sessionAge))
    (hstays : Permitted step (Stays start) w events) (hrun : run step w events = some w') :
    Ages launchAge w.launch w'.launch ∧ Ages sessionAge w.session w'.session := by
  induction events generalizing w with
  | nil =>
    cases hrun
    exact ⟨Ages.refl _, Ages.refl _⟩
  | cons event events ih =>
    obtain ⟨u, hu, hrest⟩ := run_cons_eq_some.mp hrun
    have hevent := hdated event mem_cons_self
    have hin' := hstays.1 u hu
    have hstep := ages_of_step hsound hin hu hin'
    have hages := ih (hsound.of_step hevent hu) hin'
      (fun event h => hdated event (mem_cons_of_mem _ h)) (hstays.2 u hu) hrest
    exact ⟨hstep.1.trans hages.1, hstep.2.trans hages.2⟩

end Ages

/-! ### Earlier starts -/

/-- An event writes a prepare for a start request, or a retire that makes the request up. -/
def Restarts (requestId : String) (w : World) : Event → Prop
  | .write index _ => ∃ p, w.pending[index]? = some p ∧
      ((∃ intent answer, p.call = .prepare intent answer ∧ intent.requestId = requestId) ∨
        p.call = .retire ∧ p.next.startRequestId = requestId)
  | _ => False

/-- The reference is not of a start request. -/
def World.Other (requestId : String) (w : World) : Prop :=
  ∀ r ∈ w.reference, r.startRequestId ≠ requestId

section Starts

variable {reports : AgentSessionReport → Prop} {w w' u v : World} {event : Event}
  {index : Nat} {granted : Bool} {requestId : String} {intent answer : AgentStartIntent}
  {start : Start}

lemma other_of_step (hsound : w.Sound reports) (hother : w.Other requestId)
    (hrestarts : ¬Restarts requestId w event) (h : step w event = some w') :
    w'.Other requestId := by
  rcases step_spec h with ⟨hagent, -⟩ | ⟨index, granted, p, rfl, hp, hexecute, hwrites⟩
  · rw [World.Other, World.reference, hagent]
    exact hother
  obtain ⟨a, hchecked⟩ := hsound.checked p hwrites.mem
  intro r hr
  rcases hchecked with ⟨report, currentDaemon, haccept⟩ |
    ⟨intent, currentDaemon, randomUUID, hprepare⟩ | ⟨workspaceId, computerId, randomUUID, hretire⟩
  · obtain ⟨previous, -, -, rfl⟩ := accept_spec haccept
    obtain ⟨old, new, hold, hnew, hsucceeds⟩ := succeeds_of_accept hsound hexecute
    obtain rfl : new = r := some.inj (hnew.symm.trans hr)
    have hsame : new.startRequestId = (accepted report old).startRequestId :=
      congrArg Fence.startRequestId hsucceeds.fence
    rw [hsame]
    exact hother old hold
  · rcases prepare_spec hprepare with ⟨previous, -, rfl⟩ | ⟨daemonInstanceId, -, -, rfl⟩
    · obtain ⟨old, new, hold, hfence, -, hnew, hfence', -⟩ := hwrites.spec hsound rfl
      obtain rfl : new = r := some.inj (hnew.symm.trans hr)
      have hsame : new.startRequestId = old.startRequestId :=
        congrArg Fence.startRequestId (hfence'.trans hfence.symm)
      exact hsame ▸ hother old hold
    · obtain ⟨new, hnew, hfence, -⟩ := reference_replace hwrites.agent
      obtain rfl : new = r := some.inj (hnew.symm.trans hr)
      have hrequest : new.startRequestId = intent.requestId :=
        congrArg Fence.startRequestId hfence
      intro hsame
      exact hrestarts ⟨_, hp, .inl ⟨intent, _, rfl, hrequest.symm.trans hsame⟩⟩
  · obtain ⟨previous, -, rfl⟩ := retire_spec hretire
    obtain ⟨new, hnew, hfence, -⟩ := reference_replace hwrites.agent
    obtain rfl : new = r := some.inj (hnew.symm.trans hr)
    intro hsame
    exact hrestarts
      ⟨_, hp, .inr ⟨rfl, (congrArg Fence.startRequestId hfence).symm.trans hsame⟩⟩

lemma session_of_prepare (hsound : w.Sound reports)
    (h : execute w (.write index granted) = some (.done (.prepare intent answer), w')) :
    w'.session = answer.sessionId.filter (· ≠ "") := by
  obtain ⟨p, -, hcall, hwrites⟩ := execute_write h
  obtain ⟨a, hchecked⟩ := hsound.checked p hwrites.mem
  rcases hchecked with ⟨report, currentDaemon, haccept⟩ |
    ⟨intent', currentDaemon, randomUUID, hprepare⟩ | ⟨workspaceId, computerId, randomUUID, hretire⟩
  · obtain ⟨previous, -, -, rfl⟩ := accept_spec haccept
    cases hcall
  · rcases prepare_spec hprepare with ⟨previous, hread, rfl⟩ | ⟨daemonInstanceId, -, hresume, rfl⟩
    · cases hcall
      obtain ⟨old, new, -, -, -, hnew, -, hsession⟩ := hwrites.spec hsound rfl
      rw [World.session, hnew, bind_some, hsession, repeated]
      simp only [filter_sessionId hread]
      by_cases hset : truthy previous.sessionId
      · rw [if_pos hset]
      · rw [if_neg hset, ← filter_sessionId hread, filter_of_not_truthy hset, ite_self]
    · cases hcall
      obtain ⟨new, hnew, -, hsession⟩ := reference_replace hwrites.agent
      rw [World.session, World.reference, hnew, bind_some, hsession, started]
      by_cases hset : truthy (selected intent a.reference daemonInstanceId randomUUID).sessionId
      · simp only [if_pos hset]
        exact (filter_of_truthy hset).symm
      · -- Without a session, the intent names none, and the mode is not to resume.
        have hintent : ¬truthy intent.sessionId := fun htruthy => hset <| by
          cases hsession : intent.sessionId with
          | none => simp [hsession, truthy] at htruthy
          | some s => simpa [selected, selectedSession, hsession] using hsession ▸ htruthy
        have hcreate : (selected intent a.reference daemonInstanceId randomUUID).sessionMode =
            some .create := by
          have hmode : ∀ mode : SessionMode, some mode ≠ some .resume →
              some mode = some .create := by
            intro mode hmode
            cases mode
            · rfl
            · exact absurd rfl hmode
          exact hmode _ fun h => hset (hresume h)
        simp only [if_neg hset, hcreate]
        simpa using (filter_of_not_truthy hintent).symm
  · obtain ⟨previous, -, rfl⟩ := retire_spec hretire
    cases hcall

/-- A report that is accepted names a session, or none, of some. -/
def AcceptsOnly (session : Option String) (w : World) (event : Event) : Prop :=
  ∀ report w', execute w event = some (.done (.accept report), w') →
    report.sessionId = "" ∨ session = some report.sessionId

lemma session_of_step {session : Option String} (hsound : w.Sound reports) (hin : w.In start)
    (hsession : w.session = session) (haccepts : AcceptsOnly session w event)
    (h : step w event = some w') (hin' : w'.In start) : w'.session = session := by
  obtain ⟨old, new, hold, hnew, hmoves⟩ := moves_of_step hsound hin h hin'
  rw [World.session, hold, bind_some] at hsession
  rw [World.session, hnew, bind_some]
  cases hmoves with
  | kept hlaunch hsame => rw [hsame, hsession]
  | accepted report hreports hexecute hsucceeds =>
    rw [hsucceeds.session]
    split_ifs with hempty
    · exact hsession
    · exact ((haccepts report w' hexecute).resolve_left hempty).symm

/-- Until a start is requested again, no report of it is accepted. -/
theorem stale_of_run {events : List Event} {report : AgentSessionReport}
    (hsound : w.Sound fun _ => True) (hother : w.Other report.startRequestId)
    (hrestarts : Permitted step (fun w event => ¬Restarts report.startRequestId w event) w events)
    (hrun : run step w events = some v) :
    execute v (.write index granted) ≠ some (.done (.accept report), w') := by
  have hreports : ∀ event : Event, event.Reports fun _ => True := fun event => by
    cases event <;> trivial
  have hstep : ∀ (u : World) event (v : World),
      (u.Sound fun _ => True) ∧ u.Other report.startRequestId →
        ¬Restarts report.startRequestId u event → step u event = some v →
          (v.Sound fun _ => True) ∧ v.Other report.startRequestId :=
    fun u event v hu hrestarts h =>
      ⟨hu.1.of_step (hreports event) h, other_of_step hu.1 hu.2 hrestarts h⟩
  have hv := invariant hstep ⟨hsound, hother⟩ hrestarts hrun
  intro hexecute
  obtain ⟨old, new, hold, -, hsucceeds⟩ := succeeds_of_accept hv.1 hexecute
  exact hv.2 old hold hsucceeds.startRequestId

/-- Within a start, a prepare answers the session of the prepare before it, unless a report of
another was accepted. -/
theorem repeated_of_run {events : List Event} {intent' answer' : AgentStartIntent} {index' : Nat}
    {granted' : Bool} (hsound : w.Sound fun _ => True)
    (hfirst : execute w (.write index granted) = some (.done (.prepare intent answer), u))
    (hin : u.In start) (hstays : Permitted step (fun w event => Stays start w event ∧
      AcceptsOnly (answer.sessionId.filter (· ≠ "")) w event) u events)
    (hrun : run step u events = some v)
    (hagain : execute v (.write index' granted') = some (.done (.prepare intent' answer'), w'))
    (hin' : w'.In start) :
    answer'.sessionId.filter (· ≠ "") = answer.sessionId.filter (· ≠ "") := by
  have hreports : ∀ event : Event, event.Reports fun _ => True := fun event => by
    cases event <;> trivial
  have hu : step w (.write index granted) = some u := by rw [step, hfirst, map_some]
  have hw' : step v (.write index' granted') = some w' := by rw [step, hagain, map_some]
  have hstep : ∀ (u : World) event (v : World),
      (u.Sound fun _ => True) ∧ u.In start ∧ u.session = answer.sessionId.filter (· ≠ "") →
        Stays start u event ∧ AcceptsOnly (answer.sessionId.filter (· ≠ "")) u event →
          step u event = some v →
            (v.Sound fun _ => True) ∧ v.In start ∧ v.session = answer.sessionId.filter (· ≠ "") :=
    fun u event v ⟨hu, hin, hsession⟩ ⟨hstays, haccepts⟩ h =>
      ⟨hu.of_step (hreports event) h, hstays v h,
        session_of_step hu hin hsession haccepts h (hstays v h)⟩
  have hv := invariant hstep ⟨hsound.of_step (hreports _) hu, hin, session_of_prepare hsound hfirst⟩
    hstays hrun
  rw [← session_of_prepare hv.1 hagain]
  refine session_of_step hv.1 hv.2.1 hv.2.2 (fun report x hexecute => ?_) hw' hin'
  rw [hagain] at hexecute
  cases hexecute

end Starts

/-! ### The fence -/

/-- What holds of the calls that come after a state. -/
structure Fenced (launchAge sessionAge : String → Nat) (u : World) : Prop where
  /-- A report is accepted over the reference that it names or follows. -/
  accepted : ∀ index granted report v,
    execute u (.write index granted) = some (.done (.accept report), v) →
      ∃ old new, u.reference = some old ∧ v.reference = some new ∧ Succeeds report old new
  /-- Once another start has been selected, or the start has been retired, no report of it is
  accepted, until it is requested again. -/
  stale : ∀ (report : AgentSessionReport) between v index granted x,
    u.Other report.startRequestId → run step u between = some v →
      Permitted step (fun w event => ¬Restarts report.startRequestId w event) u between →
        execute v (.write index granted) ≠ some (.done (.accept report), x)
  /-- What was replaced within a start does not become current again. -/
  replaced : ∀ start between after v x, u.In start → run step u between = some v →
    run step v after = some x → Permitted step (Stays start) u between →
      Permitted step (Stays start) v after →
        (∀ event ∈ between ++ after,
          event.Reports (AgentSessionReport.Dated launchAge sessionAge)) →
          ∀ id ≠ "", (u.launch = some id → v.launch ≠ some id → x.launch ≠ some id) ∧
            (u.session = some id → v.session ≠ some id → x.session ≠ some id)
  /-- A repeated prepare answers the same session, while the start stays and no report of another
  session is accepted. -/
  repeats : ∀ start index granted intent answer v between x index' granted' intent' answer' y,
    execute u (.write index granted) = some (.done (.prepare intent answer), v) → v.In start →
      run step v between = some x →
        Permitted step (fun w event => Stays start w event ∧
          AcceptsOnly (answer.sessionId.filter (· ≠ "")) w event) v between →
          execute x (.write index' granted') = some (.done (.prepare intent' answer'), y) →
            y.In start →
              answer'.sessionId.filter (· ≠ "") = answer.sessionId.filter (· ≠ "")

lemma World.Sound.imp {reports reports' : AgentSessionReport → Prop} {w : World}
    (h : w.Sound reports) (himp : ∀ report, reports report → reports' report) : w.Sound reports' :=
  ⟨h.inScope, h.checked, fun p hp report hcall => himp report (h.reported p hp report hcall)⟩

/-- Every state of every run of the calls is fenced. -/
theorem selection_is_fenced {a : Agent} {before : List Event} {u : World}
    {launchAge sessionAge : String → Nat} (hscoped : a.Scoped)
    (hdated : ∀ event ∈ before, event.Reports (AgentSessionReport.Dated launchAge sessionAge))
    (hrun : run step ⟨a, []⟩ before = some u) : Fenced launchAge sessionAge u := by
  have hsound : u.Sound (AgentSessionReport.Dated launchAge sessionAge) :=
    (World.sound_start hscoped).of_run hdated hrun
  have hsound' : u.Sound fun _ => True := hsound.imp fun _ _ => trivial
  refine ⟨fun index granted report v h => succeeds_of_accept hsound h, ?_, ?_, ?_⟩
  · intro report between v index granted x hother hbetween hrestarts
    exact stale_of_run hsound' hother hrestarts hbetween
  · intro start between after v x hin hbetween hafter hstays hstays' hdated' id hid
    have hdated' := forall_mem_append.mp hdated'
    have hages := ages_of_run hsound hin hdated'.1 hstays hbetween
    have hstep : ∀ (w : World) event (w' : World), w.In start → Stays start w event →
        step w event = some w' → w'.In start := fun _ _ w' _ hstays h => hstays w' h
    have hv := invariant hstep hin hstays hbetween
    have hages' := ages_of_run (hsound.of_run hdated'.1 hbetween) hv hdated'.2 hstays' hafter
    exact ⟨hages.1.ne hages'.1 hid, hages.2.ne hages'.2 hid⟩
  · intro start index granted intent answer v between x index' granted' intent' answer' y hfirst hin
      hbetween hstays hagain hin'
    exact repeated_of_run hsound' hfirst hin hstays hbetween hagain hin'

section Examples

/-- An Agent that was never started. -/
def newAgent : Agent := ⟨"w", some "c", .codex, none, none⟩

def intent (requestId : String) : AgentStartIntent :=
  { requestId, workspaceId := "w", computerId := "c", provider := .codex }

/-- The report of the launch and the thread of a start. -/
def report (startRequestId : String) : AgentSessionReport where
  workspaceId := "w"
  computerId := "c"
  provider := .codex
  sessionId := "thread"
  startRequestId := startRequestId
  daemonInstanceId := "daemon"
  launchId := "launch"
  launchId_ne := by decide

/-- The Agent is started, and its thread reported. -/
def reported : List Event :=
  [.prepare (intent "first") (some "daemon") "", .write 0 true,
    .accept (report "first") (some "daemon"), .write 0 true]

/-- What the last event of a run answers. -/
def lastReply (events : List Event) : Option Reply :=
  (run step ⟨newAgent, []⟩ events.dropLast).bind fun w =>
    events.getLast?.bind fun event => (execute w event).map Prod.fst

/-- The report is accepted after a prepare of another request, which repeats the launch, and after a
retire, once the request is prepared again; and the second prepare of a request answers the thread
that the first one did not know. -/
theorem earlier_start_is_accepted :
    lastReply (reported ++ [.prepare (intent "second") (some "daemon") "", .write 0 true,
      .accept (report "first") (some "daemon"), .write 0 true]) =
        some (.done (.accept (report "first"))) ∧
    lastReply (reported ++ [.retire "w" "c" "stopped", .write 0 true,
      .prepare (intent "first") (some "daemon") "", .write 0 true,
      .accept (report "first") (some "daemon"), .write 0 true]) =
        some (.done (.accept (report "first"))) ∧
    (∃ answer, lastReply (reported.take 2) = some (.done (.prepare (intent "first") answer)) ∧
      answer.sessionId = none) ∧
    ∃ answer, lastReply (reported ++ [.prepare (intent "first") (some "daemon") "",
      .write 0 true]) = some (.done (.prepare (intent "first") answer)) ∧
      answer.sessionId = some "thread" :=
  ⟨rfl, rfl, ⟨_, rfl, rfl⟩, ⟨_, rfl, rfl⟩⟩

/-- The Agent is started, reported and stopped. -/
def stopped : List Event := reported ++ [.retire "w" "c" "stopped", .write 0 true]

theorem stopped_is_fenced :
    ∃ u, run step ⟨newAgent, []⟩ stopped = some u ∧ Fenced String.length String.length u := by
  have hscoped : newAgent.Scoped := fun stored hstored => nomatch hstored
  have hreport : AgentSessionReport.Dated String.length String.length (report "first") :=
    ⟨fun l hl => (nomatch hl), fun s hs => (nomatch hs)⟩
  have hdated : ∀ event ∈ stopped,
      event.Reports (AgentSessionReport.Dated String.length String.length) := by
    intro event hevent
    simp only [stopped, reported, cons_append, nil_append, mem_cons,
      not_mem_nil, or_false] at hevent
    rcases hevent with rfl | rfl | rfl | rfl | rfl | rfl
    · trivial
    · trivial
    · exact hreport
    · trivial
    · trivial
    · trivial
  have hsome : (run step ⟨newAgent, []⟩ stopped).isSome := rfl
  obtain ⟨u, hrun⟩ := isSome_iff_exists.mp hsome
  exact ⟨u, hrun, selection_is_fenced hscoped hdated hrun⟩

end Examples

end Coforge.AgentSessions
