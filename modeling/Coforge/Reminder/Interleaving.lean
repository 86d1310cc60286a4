import Coforge.Reminder.Invariant

/-!
# The reminder scheduler under every interleaving

Every event keeps the invariant and leaves to the operation in its turn what that operation holds:
the map, the file, and the phase of its flight. Every operation keeps the invariant at each of its
awaits. What either needs of the reads of the file is a condition on the steps of a run.
-/

namespace Coforge.Reminder

open Keyed Async Prog ReminderReceipt Transition

namespace Scheduler

variable {E : Setting} {on : Watch} {s t u : Scheduler E} {key : ReceiptKey} {ref : Ref}

/-! ### What an operation can count on -/

/-- What stays over any stretch of a run: objects only age, a phase that belongs to an operation is
its own, and a stopped scheduler does not start again. -/
structure After (s t : Scheduler E) : Prop where
  size : s.size ≤ t.size
  ages : ∀ ref < s.size, Ages (s.heap ref) (t.heap ref)
  owned : ∀ key flight, s.flights key = some flight → flight.phase.owned →
    t.flights key = some flight
  running : t.running = true → s.running = true
  generation : t.running = true → t.generation = s.generation

lemma After.refl (s : Scheduler E) : After s s where
  size := Nat.le_refl _
  ages _ _ := Ages.refl _
  owned _ _ h _ := h
  running := id
  generation _ := rfl

lemma After.trans (h : After s t) (h' : After t u) : After s u where
  size := Nat.le_trans h.size h'.size
  ages ref href := (h.ages ref href).trans (h'.ages ref (Nat.lt_of_lt_of_le href h.size))
  owned key flight hflight howned := h'.owned key flight (h.owned key flight hflight howned) howned
  running := h.running ∘ h'.running
  generation hu := (h'.generation hu).trans (h.generation (h'.running hu))

lemma Quiet.after (h : Quiet s t) : After s t where
  size := Nat.le_of_eq h.size.symm
  ages ref _ := h.ages ref
  owned _ _ hflight _ := h.flights ▸ hflight
  running := h.running
  generation := h.generation

/-- What a write of the file leaves alone. -/
structure Written (s t : Scheduler E) : Prop extends After s t where
  receipts : t.receipts = s.receipts
  sizes : t.size = s.size

/-- What the events leave alone. They end no wait for a wake and send no fire request. -/
structure Aside (s t : Scheduler E) : Prop extends Written s t where
  stored : t.stored = s.stored
  last : ∀ key, lastSent key t.log = lastSent key s.log
  isOver : ∀ key, t.Over key → s.Over key

lemma Written.trans (h : Written s t) (h' : Written t u) : Written s u :=
  ⟨h.toAfter.trans h'.toAfter, h'.receipts.trans h.receipts, h'.sizes.trans h.sizes⟩

lemma Aside.trans (h : Aside s t) (h' : Aside t u) : Aside s u :=
  ⟨h.toWritten.trans h'.toWritten, h'.stored.trans h.stored,
    fun key => (h'.last key).trans (h.last key), fun key hu => h.isOver key (h'.isOver key hu)⟩

lemma Quiet.written (h : Quiet s t) : Written s t := ⟨h.after, h.receipts, h.size⟩

lemma Quiet.aside (h : Quiet s t) : Aside s t :=
  ⟨h.written, h.stored, fun _ => by rw [h.log], fun _ => h.isOver⟩

lemma aside_setPhase {generation : Nat} {phase : Phase}
    (h : ∀ flight, s.flights key = some flight → flight.phase.owned = false) :
    Aside s (s.setPhase key generation phase) where
  size := Nat.le_refl _
  ages _ _ := Ages.refl _
  owned key' flight hflight howned := by
    have hne : key' ≠ key := by
      rintro rfl
      rw [h flight hflight] at howned
      exact Bool.noConfusion howned
    exact (flights_setPhase_of_ne hne).trans hflight
  running := id
  generation _ := rfl
  receipts := rfl
  sizes := rfl
  stored := rfl
  last _ := rfl
  isOver key' hover := by
    refine ⟨hover.1, ?_⟩
    intro flight hflight hphase
    by_cases hkey : key' = key
    · subst hkey
      have howned := h flight hflight
      rw [hphase] at howned
      exact Bool.noConfusion howned
    · exact hover.2 flight ((flights_setPhase_of_ne hkey).trans hflight) hphase

lemma aside_startEffect (href : ref < s.size) : Aside s (s.startEffect ref) := by
  rcases startEffect_cases href with hquiet | ⟨-, hflight, t, hquiet, -, heq⟩
  · exact hquiet.aside
  · rw [heq]
    refine hquiet.aside.trans (aside_setPhase ?_)
    intro flight h
    rw [hquiet.flights, hflight] at h
    cases h

/-! ### The events -/

lemma aside_woken {generation : Nat} (hflight : s.flights key = some ⟨generation, .woken true⟩) :
    Aside s (s.observe (.woken key)) where
  size := Nat.le_refl _
  ages _ _ := Ages.refl _
  owned _ _ h _ := h
  running := id
  generation _ := rfl
  receipts := rfl
  sizes := rfl
  stored := rfl
  last key' := by
    rw [observe, lastSent_concat]
    rfl
  isOver key' hover := by
    obtain ⟨hwoken, hphase⟩ := hover
    have hne : key' ≠ key := by
      rintro rfl
      exact hphase _ hflight rfl
    refine ⟨?_, hphase⟩
    simpa [Woken, observe, hne] using hwoken

lemma running_receive (m : Mirror) (scope : Scope) (sync : ReminderSync) :
    (m.receive scope sync).running = m.running := by
  have hfold (jobs : List ReminderJob) (acc : Mirror × List ReminderJob) :
      (jobs.foldl (Mirror.listed sync.agentId) acc).1.running = acc.1.running := by
    induction jobs generalizing acc with
    | nil => rfl
    | cons job jobs ih =>
      rw [List.foldl_cons, ih, Mirror.listed]
      split_ifs <;> rfl
  have hsnapshot (jobs : List ReminderJob) :
      (m.snapshot sync.agentId jobs).running = m.running := hfold jobs _
  rw [Mirror.receive, Mirror.apply]
  cases sync.operation <;> simp only [Mirror.upsert, Mirror.cancel] <;> split_ifs <;>
    first | rfl | exact hsnapshot _

lemma quiet_ofVersion {given : Scheduler E} {job : ReminderJob} {current : Option ReminderJob}
    {next : ReminderJob → Scheduler E} (hgiven : Quiet s given) (hnext : ∀ c, Quiet s (next c)) :
    Quiet s (match current with
      | none => given
      | some current => if current.version ≠ job.version then given else next current) := by
  cases current with
  | none => exact hgiven
  | some current =>
    simp only
    split_ifs
    · exact hgiven
    · exact hnext current

lemma quiet_scheduleTimer (reminderId : String) (timer : ScheduleTimer) :
    Quiet s (s.scheduleTimer reminderId timer) := by
  have hcancel : Quiet s (s.cancelSchedule reminderId) := quiet_cancelSchedule reminderId
  have htask (job : ReminderJob) :
      Quiet s ((s.cancelSchedule reminderId).enqueue (.prepareDue job)) :=
    hcancel.trans (quiet_enqueue (by intros; contradiction))
  simp only [scheduleTimer]
  split
  · exact hcancel
  · cases timer with
    | due job =>
      refine quiet_ofVersion hcancel ?_
      intro current
      split_ifs
      · exact hcancel.trans (quiet_armSchedule current)
      · exact htask job
    | serverRetry job => exact quiet_ofVersion hcancel htask

lemma quiet_receiptTimer (key : ReceiptKey) (timer : ReceiptTimer) :
    Quiet s (s.receiptTimer key timer) := by
  have hpopped : Quiet s
      { s with receiptTimers := Function.update s.receiptTimers key none } :=
    quiet_of_eq rfl rfl rfl rfl rfl rfl rfl fun h => ⟨h, rfl⟩
  rw [receiptTimer]
  split_ifs
  · exact hpopped
  · exact hpopped.trans (quiet_armReceipt _ _ _ _)
  · exact hpopped.trans (quiet_enqueue nofun)

lemma live_eq_true {r : ReminderReceipt} : r.live = true ↔ r.consumed = false ∧ r.live = true := by
  simp [ReminderReceipt.live]

lemma finish_spec (hs : Kept on s) {generation : Nat} {ready : Bool}
    (hflight : s.flights key = some ⟨generation, .settled ready⟩) :
    Kept on (s.finish key ready) ∧ Aside s (s.finish key ready) := by
  have hlanded := kept_landed hs hflight
  have hother (key' : ReceiptKey) (flight : Flight) (hflight' : s.flights key' = some flight)
      (howned : flight.phase.owned) : Function.update s.flights key none key' = some flight := by
    have hne : key' ≠ key := by
      rintro rfl
      obtain rfl := Option.some.inj (hflight.symm.trans hflight')
      exact Bool.noConfusion howned
    exact (Function.update_of_ne hne _ _).trans hflight'
  have haside : Aside s { s with flights := Function.update s.flights key none } := by
    refine ⟨⟨⟨Nat.le_refl _, fun _ _ => Ages.refl _, hother, id, fun _ => rfl⟩, rfl, rfl⟩, rfl,
      fun _ => rfl, ?_⟩
    intro key' hover
    refine ⟨hover.1, fun flight hflight' hphase => ?_⟩
    exact hover.2 flight (hother key' flight hflight' (by rw [hphase]; rfl)) hphase
  rw [finish]
  cases href : s.receipts key with
  | none => exact ⟨hlanded, haside⟩
  | some ref =>
    simp only
    split_ifs with hready
    · obtain ⟨hlt, hkey⟩ := hs.keyed key ref href
      simp only [Bool.and_eq_true] at hready
      refine ⟨kept_startEffect hlanded ?_ hready.2, haside.trans (aside_startEffect hlt)⟩
      exact hkey ▸ href
    · exact ⟨hlanded, haside⟩

lemma answered_spec (hs : Kept on s) {generation : Nat} {phase phase' : Phase} {task : Task}
    (hflight : s.flights key = some ⟨generation, phase⟩) (hearly : phase.early)
    (howned : phase.owned = false) (hattended : phase'.attended → phase.attended)
    (htask : ∀ ref, task ≠ .persistExhausted ref) :
    Kept on ((s.setPhase key generation phase').enqueue task) ∧
      Aside s ((s.setPhase key generation phase').enqueue task) := by
  have hquiet : Quiet (s.setPhase key generation phase')
      ((s.setPhase key generation phase').enqueue task) :=
    quiet_enqueue fun ref h => absurd h (htask ref)
  have hkept : Kept on (s.setPhase key generation phase') := by
    refine kept_setPhase hs ?_
    intro hon hrunning
    have hawake := hs.awake hon hrunning
    exact fits_of_early (hawake.generation key _ hflight) (hawake.early key _ hflight hearly)
      fun h => hawake.attended key _ hflight (hattended h)
  refine ⟨hquiet.kept hkept, (aside_setPhase ?_).trans hquiet.aside⟩
  intro flight h
  rw [hflight] at h
  cases h
  exact howned

/-- Every event keeps the invariant and what the operation in its turn holds. -/
theorem event_spec {l : Event} (hs : Kept on s) (h : s.event l = some t) :
    Kept on t ∧ Aside s t := by
  have hquiet (h : Quiet s t) : Kept on t ∧ Aside s t := ⟨h.kept hs, h.aside⟩
  cases l with
  | tick now =>
    cases h
    exact hquiet (quiet_of_eq rfl rfl rfl rfl rfl rfl rfl fun h => ⟨h, rfl⟩)
  | sync sync =>
    cases h
    refine hquiet ?_
    split_ifs
    · exact quiet_enqueue (by intros; contradiction)
    · refine quiet_of_eq rfl rfl rfl rfl rfl rfl rfl fun h => ⟨?_, rfl⟩
      rwa [running, running_receive] at h
  | acknowledge reminderId version =>
    cases h
    exact hquiet (quiet_enqueue (by intros; contradiction))
  | scheduleTimer reminderId =>
    obtain ⟨timer, -, rfl⟩ := Option.map_eq_some_iff.mp h
    exact hquiet (quiet_scheduleTimer reminderId timer)
  | receiptTimer key =>
    obtain ⟨timer, -, rfl⟩ := Option.map_eq_some_iff.mp h
    exact hquiet (quiet_receiptTimer key timer)
  | fireAnswer key response =>
    rw [event] at h
    rcases hflight : s.flights key with _ | ⟨generation, phase⟩
    · simp [hflight] at h
    · cases phase <;> simp [hflight] at h
      subst h
      exact answered_spec hs hflight rfl rfl (by intros; contradiction) (by simp)
  | wakeAnswer key accepted =>
    rw [event] at h
    rcases hflight : s.flights key with _ | ⟨generation, phase⟩
    · simp [hflight] at h
    · cases phase <;> simp [hflight] at h
      subst h
      obtain ⟨hkept, haside⟩ := @answered_spec E on s key hs generation .waking
        (.woken (accepted.getD false)) (.wakeAnswered key) hflight rfl rfl (fun _ => rfl) (by simp)
      split_ifs with haccepted
      · have hflight' : ((s.setPhase key generation (.woken (accepted.getD false))).enqueue
            (.wakeAnswered key)).flights key = some ⟨generation, .woken true⟩ := by
          rw [← haccepted]
          exact flights_setPhase
        exact ⟨kept_woken hkept hflight', haside.trans (aside_woken hflight')⟩
      · exact ⟨hkept, haside⟩
  | finish key =>
    rw [event] at h
    rcases hflight : s.flights key with _ | ⟨generation, phase⟩
    · simp [hflight] at h
    · cases phase <;> simp [hflight] at h
      subst h
      exact finish_spec hs hflight
  | stop =>
    cases h
    exact hquiet quiet_stop

end Scheduler

end Coforge.Reminder
