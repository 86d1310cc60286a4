import Coforge.Reminder.Scheduler
import Mathlib

/-!
# The invariant of the reminder scheduler

Two facts about every interleaving rest on one invariant. An occurrence whose wake was accepted is
ended in memory from the moment the answer is taken; and a receipt that is live, in
memory or in the file, carries the identity of the fire requests sent for it since it was last
discarded. Each of them needs a condition on the reads of the file, so the invariant is stated for
a `Watch` that says which of the two are followed.
-/

namespace Coforge.Reminder

open Keyed Async Prog ReminderReceipt List

/-! ### What a log says -/

def ReminderFireRequest.key (request : ReminderFireRequest) : ReceiptKey :=
  (request.reminderId, request.version)

/-- No wake is requested for an occurrence after one was accepted. -/
def WokenOnce (log : List Observed) : Prop :=
  ∀ pre key job late post, log = pre ++ .wake key job late :: post → .woken key ∉ pre

/-- What an observation makes of the identity an occurrence is fired under. -/
def note (key : ReceiptKey) (last : Option String) : Observed → Option String
  | .fire request  => if request.key = key then some request.requestId else last
  | .discarded key' => if key' = key then none else last
  | _              => last

/-- The identity of the last fire request for an occurrence since its receipt was last
discarded. -/
def lastSent (key : ReceiptKey) (log : List Observed) : Option String := log.foldl (note key) none

/-- Each fire request carries the identity of the one before it, unless the receipt was discarded
in between. -/
def FiredAlike (log : List Observed) : Prop :=
  ∀ pre request post, log = pre ++ .fire request :: post →
    ∀ id, lastSent request.key pre = some id → id = request.requestId

@[simp] lemma lastSent_nil (key : ReceiptKey) : lastSent key [] = none := rfl

@[simp] lemma lastSent_concat (key : ReceiptKey) (log : List Observed) (o : Observed) :
    lastSent key (log ++ [o]) = note key (lastSent key log) o := by
  simp [lastSent]

lemma append_singleton_split {α : Type*} {xs pre post : List α} {x y : α}
    (h : xs ++ [y] = pre ++ x :: post) :
    (post = [] ∧ xs = pre ∧ y = x) ∨ ∃ post', post = post' ++ [y] ∧ xs = pre ++ x :: post' := by
  rcases eq_nil_or_concat post with rfl | ⟨post', z, rfl⟩
  · have h' : xs ++ [y] = pre ++ [x] := h
    obtain ⟨hxs, hy⟩ := append_inj' h' rfl
    exact Or.inl ⟨rfl, hxs, (cons.inj hy).1⟩
  · have h' : xs ++ [y] = (pre ++ x :: post') ++ [z] := by
      rw [h, append_assoc, cons_append, concat_eq_append]
    obtain ⟨hxs, hy⟩ := append_inj' h' rfl
    exact Or.inr ⟨post', by rw [(cons.inj hy).1, concat_eq_append], hxs⟩

variable {log : List Observed}

lemma WokenOnce.concat (h : WokenOnce log) {o : Observed}
    (ho : ∀ key job late, o = .wake key job late → .woken key ∉ log) : WokenOnce (log ++ [o]) := by
  intro pre key job late post hsplit
  rcases append_singleton_split hsplit with ⟨rfl, rfl, rfl⟩ | ⟨post', rfl, hlog⟩
  · exact ho key job late rfl
  · exact h pre key job late post' hlog

lemma FiredAlike.concat (h : FiredAlike log) {o : Observed} (ho : ∀ request, o = .fire request →
      ∀ id, lastSent request.key log = some id → id = request.requestId) :
    FiredAlike (log ++ [o]) := by
  intro pre request post hsplit
  rcases append_singleton_split hsplit with ⟨rfl, rfl, rfl⟩ | ⟨post', rfl, hlog⟩
  · exact ho request rfl
  · exact h pre request post' hlog

/-- The discarding of some occurrences. -/
def discards (keys : List ReceiptKey) : List Observed := keys.map .discarded

lemma WokenOnce.discards (h : WokenOnce log) (keys : List ReceiptKey) :
    WokenOnce (log ++ discards keys) := by
  induction keys using reverseRecOn with
  | nil => simpa [Reminder.discards] using h
  | append_singleton keys key ih =>
    rw [Reminder.discards, map_append, ← append_assoc]
    exact ih.concat nofun

lemma FiredAlike.discards (h : FiredAlike log) (keys : List ReceiptKey) :
    FiredAlike (log ++ discards keys) := by
  induction keys using reverseRecOn with
  | nil => simpa [Reminder.discards] using h
  | append_singleton keys key ih =>
    rw [Reminder.discards, map_append, ← append_assoc]
    exact ih.concat nofun

lemma lastSent_discards (key : ReceiptKey) (log : List Observed) (keys : List ReceiptKey) :
    lastSent key (log ++ discards keys) = if key ∈ keys then none else lastSent key log := by
  induction keys using reverseRecOn with
  | nil => simp [discards]
  | append_singleton keys key' ih =>
    have hconcat : log ++ discards (keys ++ [key']) = (log ++ discards keys) ++ [.discarded key'] := by
      simp [discards]
    rw [hconcat, lastSent_concat, ih]
    by_cases hkey : key' = key
    · simp [note, hkey]
    · simp [note, hkey, Ne.symm hkey]

lemma woken_mem_discards {keys : List ReceiptKey} {key : ReceiptKey} :
    Observed.woken key ∈ log ++ discards keys ↔ Observed.woken key ∈ log := by
  simp [discards]

/-! ### The invariant -/

/-- A request of the daemon and the Agent. -/
def ReminderFireRequest.From (request : ReminderFireRequest) (E : Setting) : Prop :=
  request.workspaceId = E.scope.workspaceId ∧ request.computerId = E.scope.computerId ∧
    request.agentId = E.agentId

/-- Which of the two facts are followed. -/
structure Watch where
  wakes : Prop
  fires : Prop

/-- An object that is the same occurrence under the same identity, and ended if it was. -/
structure Ages (r r' : ReminderReceipt) : Prop where
  key : r'.key = r.key
  requestId : r'.requestId = r.requestId
  ended : r.live = false → r'.live = false

lemma Ages.refl (r : ReminderReceipt) : Ages r r := ⟨rfl, rfl, id⟩

lemma Ages.trans {r r' r'' : ReminderReceipt} (h : Ages r r') (h' : Ages r' r'') : Ages r r'' :=
  ⟨h'.key.trans h.key, h'.requestId.trans h.requestId, h'.ended ∘ h.ended⟩

/-- The phases in which no wake of the occurrence can have been accepted. -/
def Phase.early : Phase → Bool
  | .woken accepted => !accepted
  | .settled _      => false
  | _               => true

/-- The phases whose occurrence has a receipt in memory. -/
def Phase.attended : Phase → Bool
  | .waking  => true
  | .woken _ => true
  | _        => false

/-- The phases that only the operation of the flight moves on. -/
def Phase.owned : Phase → Bool
  | .persisting => true
  | .fired _    => true
  | .woken _    => true
  | _           => false

namespace Scheduler

variable {E : Setting} {on : Watch} {s t u : Scheduler E} {key : ReceiptKey} {ref : Ref}

/-- The wake of the occurrence was accepted. -/
def Woken (s : Scheduler E) (key : ReceiptKey) : Prop := .woken key ∈ s.log

/-- Its wake was accepted, and the answer has been taken. -/
def Over (s : Scheduler E) (key : ReceiptKey) : Prop :=
  s.Woken key ∧ ∀ flight, s.flights key = some flight → flight.phase ≠ .woken true

/-- The receipt of the occurrence in memory has ended. -/
def Ended (s : Scheduler E) (key : ReceiptKey) : Prop :=
  ∃ ref, s.receipts key = some ref ∧ (s.heap ref).live = false

/-- The receipt carries the identity its occurrence was last fired under, or has ended. -/
def Approved (s : Scheduler E) (receipt : ReminderReceipt) : Prop :=
  receipt.live = true → ∀ id, lastSent receipt.key s.log = some id → receipt.requestId = id

/-- What holds of the wakes while the scheduler runs. -/
structure Awake (s : Scheduler E) : Prop where
  isOver : ∀ key, s.Over key → s.Ended key
  early : ∀ key flight, s.flights key = some flight → flight.phase.early → ¬ s.Woken key
  attended : ∀ key flight, s.flights key = some flight → flight.phase.attended →
    s.receipts key ≠ none
  generation : ∀ key flight, s.flights key = some flight → flight.generation = s.generation

/-- What holds of the identities. -/
structure Identified (s : Scheduler E) : Prop where
  stored : ∀ r ∈ s.stored.receipts, s.Approved r
  held : ∀ key id, lastSent key s.log = some id → ∃ r ∈ s.stored.receipts, r.key = key
  memory : ∀ key ref, s.receipts key = some ref → s.Approved (s.heap ref)
  alike : FiredAlike s.log
  ours : ∀ request, .fire request ∈ s.log → request.From E

structure Kept (on : Watch) (s : Scheduler E) : Prop where
  keyed : ∀ key ref, s.receipts key = some ref → ref < s.size ∧ (s.heap ref).key = key
  exhausted : ∀ ref, .persistExhausted ref ∈ s.queue → ref < s.size ∧ (s.heap ref).live = false
  awake : on.wakes → s.running = true → s.Awake
  once : on.wakes → WokenOnce s.log
  identified : on.fires → s.Identified

/-! ### Steps that change neither the map nor the flights -/

/-- Objects age, operations are queued, and the timers are what they may be. -/
structure Quiet (s t : Scheduler E) : Prop where
  receipts : t.receipts = s.receipts
  flights : t.flights = s.flights
  stored : t.stored = s.stored
  log : t.log = s.log
  size : t.size = s.size
  ages : ∀ ref, Ages (s.heap ref) (t.heap ref)
  running : t.running = true → s.running = true
  generation : t.running = true → t.generation = s.generation
  exhausted : ∀ ref, .persistExhausted ref ∈ t.queue →
    .persistExhausted ref ∈ s.queue ∨ ref < s.size ∧ (t.heap ref).live = false

lemma Quiet.refl (s : Scheduler E) : Quiet s s where
  receipts := rfl
  flights := rfl
  stored := rfl
  log := rfl
  size := rfl
  ages _ := Ages.refl _
  running := id
  generation _ := rfl
  exhausted _ := Or.inl

lemma Quiet.trans (h : Quiet s t) (h' : Quiet t u) : Quiet s u where
  receipts := h'.receipts.trans h.receipts
  flights := h'.flights.trans h.flights
  stored := h'.stored.trans h.stored
  log := h'.log.trans h.log
  size := h'.size.trans h.size
  ages ref := (h.ages ref).trans (h'.ages ref)
  running := h.running ∘ h'.running
  generation hu := (h'.generation hu).trans (h.generation (h'.running hu))
  exhausted ref href := by
    rcases h'.exhausted ref href with href | ⟨hlt, hended⟩
    · rcases h.exhausted ref href with href | ⟨hlt, hended⟩
      · exact Or.inl href
      · exact Or.inr ⟨hlt, (h'.ages ref).ended hended⟩
    · exact Or.inr ⟨h.size ▸ hlt, hended⟩

lemma Quiet.ended (h : Quiet s t) (hs : s.Ended key) : t.Ended key := by
  obtain ⟨ref, href, hended⟩ := hs
  exact ⟨ref, h.receipts ▸ href, (h.ages ref).ended hended⟩

lemma Quiet.isOver (h : Quiet s t) (ht : t.Over key) : s.Over key := by
  obtain ⟨hwoken, hphase⟩ := ht
  rw [Woken, h.log] at hwoken
  rw [h.flights] at hphase
  exact ⟨hwoken, hphase⟩

lemma Quiet.approved (h : Quiet s t) {r r' : ReminderReceipt} (hages : Ages r r')
    (hr : s.Approved r) : t.Approved r' := by
  intro hlive id hid
  have hlive' : r.live = true := by
    by_contra hne
    rw [hages.ended (Bool.not_eq_true _ ▸ hne)] at hlive
    exact Bool.noConfusion hlive
  rw [hages.key, h.log] at hid
  rw [hages.requestId]
  exact hr hlive' id hid

lemma Quiet.awake (h : Quiet s t) (hrunning : t.running = true) (hs : s.Awake) : t.Awake where
  isOver key hover := h.ended (hs.isOver key (h.isOver hover))
  early key flight hflight hearly := by
    rw [Woken, h.log]
    exact hs.early key flight (h.flights ▸ hflight) hearly
  attended key flight hflight hattended := by
    rw [h.receipts]
    exact hs.attended key flight (h.flights ▸ hflight) hattended
  generation key flight hflight :=
    (hs.generation key flight (h.flights ▸ hflight)).trans (h.generation hrunning).symm

lemma Quiet.identified (h : Quiet s t) (hs : s.Identified) : t.Identified where
  stored r hr := h.approved (Ages.refl r) (hs.stored r (h.stored ▸ hr))
  held key id hid := by
    rw [h.stored]
    exact hs.held key id (h.log ▸ hid)
  memory key ref href := h.approved (h.ages ref) (hs.memory key ref (h.receipts ▸ href))
  alike := h.log ▸ hs.alike
  ours request hrequest := hs.ours request (h.log ▸ hrequest)

theorem Quiet.kept (h : Quiet s t) (hs : Kept on s) : Kept on t where
  keyed key ref href := by
    obtain ⟨hlt, hkey⟩ := hs.keyed key ref (h.receipts ▸ href)
    exact ⟨h.size ▸ hlt, (h.ages ref).key.trans hkey⟩
  exhausted ref href := by
    rcases h.exhausted ref href with href | ⟨hlt, hended⟩
    · obtain ⟨hlt, hended⟩ := hs.exhausted ref href
      exact ⟨h.size ▸ hlt, (h.ages ref).ended hended⟩
    · exact ⟨h.size ▸ hlt, hended⟩
  awake hon hrunning := h.awake hrunning (hs.awake hon (h.running hrunning))
  once hon := h.log ▸ hs.once hon
  identified hon := h.identified (hs.identified hon)

/-! ### The quiet steps -/

lemma quiet_of_eq (hreceipts : t.receipts = s.receipts) (hflights : t.flights = s.flights)
    (hstored : t.stored = s.stored) (hlog : t.log = s.log) (hsize : t.size = s.size)
    (hheap : t.heap = s.heap) (hqueue : t.queue = s.queue)
    (hrunning : t.running = true → s.running = true ∧ t.generation = s.generation) : Quiet s t where
  receipts := hreceipts
  flights := hflights
  stored := hstored
  log := hlog
  size := hsize
  ages _ := hheap ▸ Ages.refl _
  running h := (hrunning h).1
  generation h := (hrunning h).2
  exhausted _ href := Or.inl (hqueue ▸ href)

lemma quiet_mutate (ref : Ref) {f : ReminderReceipt → ReminderReceipt}
    (hf : Ages (s.heap ref) (f (s.heap ref))) : Quiet s (s.mutate ref f) where
  receipts := rfl
  flights := rfl
  stored := rfl
  log := rfl
  size := rfl
  ages ref' := by
    by_cases href : ref' = ref
    · subst href
      rwa [heap_mutate]
    · rw [heap_mutate_of_ne href]
      exact Ages.refl _
  running := id
  generation _ := rfl
  exhausted _ := Or.inl

lemma quiet_enqueue {task : Task} (htask : ∀ ref, task = .persistExhausted ref →
    ref < s.size ∧ (s.heap ref).live = false) : Quiet s (s.enqueue task) where
  receipts := rfl
  flights := rfl
  stored := rfl
  log := rfl
  size := rfl
  ages _ := Ages.refl _
  running := id
  generation _ := rfl
  exhausted ref href := by
    rcases mem_append.mp href with href | href
    · exact Or.inl href
    · exact Or.inr (htask ref (mem_singleton.mp href).symm)

lemma quiet_armReceipt (ref : Ref) (time : Int) (proceed : Bool) (after : Proceed) :
    Quiet s (s.armReceipt ref time proceed after) := by
  rw [armReceipt]
  split_ifs
  · exact Quiet.refl s
  · have hmutate : Quiet s (s.mutate ref fun r => { r with nextAt := min r.deadline time }) :=
      quiet_mutate ref ⟨rfl, rfl, id⟩
    exact hmutate.trans (quiet_of_eq rfl rfl rfl rfl rfl rfl rfl fun h => ⟨h, rfl⟩)

lemma quiet_exhaust (href : ref < s.size) : Quiet s (s.exhaust ref) := by
  rw [exhaust]
  split_ifs
  · exact Quiet.refl s
  · refine (quiet_mutate ref ⟨rfl, rfl, fun _ => live_of_terminal rfl⟩).trans (quiet_enqueue ?_)
    intro ref' htask
    obtain rfl := Task.persistExhausted.inj htask
    exact ⟨href, by rw [heap_mutate]; exact live_of_terminal rfl⟩

lemma quiet_retry (href : ref < s.size) : Quiet s (s.retry ref) := by
  rw [retry]
  split_ifs
  · exact quiet_exhaust href
  · exact (quiet_mutate ref ⟨rfl, rfl, id⟩).trans (quiet_armReceipt _ _ _ _)

lemma quiet_armSchedule (job : ReminderJob) : Quiet s (s.armSchedule job) := by
  rw [armSchedule]
  split_ifs
  · exact Quiet.refl s
  · exact quiet_of_eq rfl rfl rfl rfl rfl rfl rfl fun h => ⟨h, rfl⟩

lemma quiet_cancelSchedule (reminderId : String) : Quiet s (s.cancelSchedule reminderId) :=
  quiet_of_eq rfl rfl rfl rfl rfl rfl rfl fun h => ⟨h, rfl⟩

lemma quiet_armServerRetry (job : ReminderJob) : Quiet s (s.armServerRetry job) := by
  rw [armServerRetry]
  split_ifs
  · exact Quiet.refl s
  · exact quiet_of_eq rfl rfl rfl rfl rfl rfl rfl fun h => ⟨h, rfl⟩

lemma quiet_stop : Quiet s s.stop :=
  quiet_of_eq rfl rfl rfl rfl rfl rfl rfl fun h => absurd h (by simp [stop, running, Mirror.stop])

/-! ### The phases of a flight -/

/-- What a phase may say of its occurrence. -/
structure Fits (s : Scheduler E) (key : ReceiptKey) (generation : Nat) (phase : Phase) : Prop where
  generation : generation = s.generation
  early : phase.early → ¬ s.Woken key
  attended : phase.attended → s.receipts key ≠ none
  isOver : s.Woken key → phase ≠ .woken true → s.Ended key

variable {generation : Nat} {phase : Phase}

lemma fits_of_early (hgeneration : generation = s.generation)
    (hwoken : ¬ s.Woken key) (hattended : phase.attended → s.receipts key ≠ none) :
    s.Fits key generation phase where
  generation := hgeneration
  early _ := hwoken
  attended := hattended
  isOver h := absurd h hwoken

lemma flights_setPhase_cases {key' : ReceiptKey}
    {flight : Flight} (h : (s.setPhase key generation phase).flights key' = some flight) :
    (key' = key ∧ flight = ⟨generation, phase⟩) ∨ s.flights key' = some flight := by
  by_cases hkey : key' = key
  · subst hkey
    rw [flights_setPhase] at h
    exact Or.inl ⟨rfl, (Option.some.inj h).symm⟩
  · rw [flights_setPhase_of_ne hkey] at h
    exact Or.inr h

lemma awake_setPhase (hs : s.Awake)
    (hfits : s.Fits key generation phase) : (s.setPhase key generation phase).Awake where
  isOver key' hover := by
    obtain ⟨hwoken, hphase⟩ := hover
    by_cases hkey : key' = key
    · subst hkey
      exact hfits.isOver hwoken (hphase _ flights_setPhase)
    · refine hs.isOver key' ⟨hwoken, ?_⟩
      intro flight hflight
      exact hphase flight ((flights_setPhase_of_ne hkey).trans hflight)
  early key' flight hflight hearly := by
    rcases flights_setPhase_cases hflight with ⟨rfl, rfl⟩ | hflight
    · exact hfits.early hearly
    · exact hs.early key' flight hflight hearly
  attended key' flight hflight hattended := by
    rcases flights_setPhase_cases hflight with ⟨rfl, rfl⟩ | hflight
    · exact hfits.attended hattended
    · exact hs.attended key' flight hflight hattended
  generation key' flight hflight := by
    rcases flights_setPhase_cases hflight with ⟨rfl, rfl⟩ | hflight
    · exact hfits.generation
    · exact hs.generation key' flight hflight

lemma kept_setPhase (hs : Kept on s)
    (hfits : on.wakes → s.running = true → s.Fits key generation phase) :
    Kept on (s.setPhase key generation phase) where
  keyed := hs.keyed
  exhausted := hs.exhausted
  awake hon hrunning := awake_setPhase (hs.awake hon hrunning) (hfits hon hrunning)
  once := hs.once
  identified hon :=
    have h := hs.identified hon
    ⟨h.stored, h.held, h.memory, h.alike, h.ours⟩

lemma kept_landed (hs : Kept on s) {ready : Bool}
    (hflight : s.flights key = some ⟨generation, .settled ready⟩) :
    Kept on { s with flights := Function.update s.flights key none } where
  keyed := hs.keyed
  exhausted := hs.exhausted
  awake hon hrunning := by
    have hawake := hs.awake hon hrunning
    have hsome (key' : ReceiptKey) (flight : Flight)
        (h : Function.update s.flights key none key' = some flight) :
        s.flights key' = some flight := by
      by_cases hkey : key' = key
      · subst hkey
        rw [Function.update_self] at h
        cases h
      · rwa [Function.update_of_ne hkey] at h
    refine ⟨?_, fun key' flight h => hawake.early key' flight (hsome key' flight h),
      fun key' flight h => hawake.attended key' flight (hsome key' flight h),
      fun key' flight h => hawake.generation key' flight (hsome key' flight h)⟩
    rintro key' ⟨hwoken, hphase⟩
    refine hawake.isOver key' ⟨hwoken, ?_⟩
    intro flight h
    by_cases hkey : key' = key
    · subst hkey
      rw [hflight] at h
      cases h
      exact nofun
    · exact hphase flight ((Function.update_of_ne hkey _ _).trans h)
  once := hs.once
  identified hon :=
    have h := hs.identified hon
    ⟨h.stored, h.held, h.memory, h.alike, h.ours⟩

lemma not_woken_of_live (hs : s.Awake) (hflight : s.flights key = none)
    (href : s.receipts key = some ref) (hlive : (s.heap ref).live = true) : ¬ s.Woken key := by
  intro hwoken
  obtain ⟨ref', href', hended⟩ := hs.isOver key ⟨hwoken, by simp [hflight]⟩
  cases href.symm.trans href'
  rw [hlive] at hended
  exact Bool.noConfusion hended

/-- `#startEffect` of the receipt in memory, while it is live. -/
lemma startEffect_cases (hkeyed : ref < s.size) : Quiet s (s.startEffect ref) ∨
      (s.running = true ∧ s.flights (s.heap ref).key = none ∧
        ∃ t, Quiet s t ∧ t.generation = s.generation ∧
          s.startEffect ref = t.setPhase (s.heap ref).key s.generation .persisting) := by
  rw [startEffect]
  split_ifs with hgo hspent
  · exact Or.inl (Quiet.refl s)
  · exact Or.inl (quiet_exhaust hkeyed)
  · rw [Bool.not_eq_true, Bool.or_eq_false_iff, Bool.not_eq_false', Option.isSome_eq_false_iff,
      Option.isNone_iff_eq_none] at hgo
    refine Or.inr ⟨hgo.1, hgo.2, ?_⟩
    refine ⟨(s.mutate ref fun r => { r with attempt := r.attempt + 1 }).enqueue
      (.persistAttempt (s.heap ref).key), ?_, rfl, rfl⟩
    exact (quiet_mutate ref ⟨rfl, rfl, id⟩).trans (quiet_enqueue nofun)

lemma kept_startEffect (hs : Kept on s) (href : s.receipts (s.heap ref).key = some ref)
    (hlive : (s.heap ref).live = true) : Kept on (s.startEffect ref) := by
  rcases startEffect_cases (hs.keyed _ ref href).1 with
    hquiet | ⟨-, hflight, t, hquiet, hgeneration, heq⟩
  · exact hquiet.kept hs
  · rw [heq]
    refine kept_setPhase (hquiet.kept hs) ?_
    intro hon hrunning
    have hwoken := not_woken_of_live (hs.awake hon (hquiet.running hrunning)) hflight href hlive
    refine fits_of_early hgeneration.symm ?_ nofun
    rwa [Woken, hquiet.log]

/-! ### New objects in the map -/

/-- What a receipt has to be for the map to take it. -/
structure Adoptable (on : Watch) (s : Scheduler E) (receipt : ReminderReceipt) : Prop where
  wakes : on.wakes → s.running = true → s.Over receipt.key → receipt.live = false
  fires : on.fires → s.Approved receipt

variable {receipt : ReminderReceipt}

lemma adoptable_of_ended (h : receipt.live = false) : s.Adoptable on receipt where
  wakes _ _ _ := h
  fires _ hlive := by
    rw [h] at hlive
    exact Bool.noConfusion hlive

lemma adoptable_of_ages (hs : Kept on s)
    (href : s.receipts key = some ref) (hages : Ages (s.heap ref) receipt) :
    s.Adoptable on receipt where
  wakes hon hrunning hover := by
    have hkey : receipt.key = key := hages.key.trans (hs.keyed key ref href).2
    obtain ⟨ref', href', hended⟩ := (hs.awake hon hrunning).isOver _ hover
    rw [hkey, href] at href'
    cases href'
    exact hages.ended hended
  fires hon := by
    have happroved := (hs.identified hon).memory key ref href
    exact (Quiet.refl s).approved hages happroved

lemma heap_alloc_of_lt (h : ref < s.size) : (s.alloc receipt).heap ref = s.heap ref :=
  heap_alloc_of_ne (Nat.ne_of_lt h)

/-- The state after `adopt`. -/
def adopted (receipt : ReminderReceipt) (s : Scheduler E) : Scheduler E :=
  (s.alloc receipt).setReceipt receipt.key s.size

lemma ended_adopted (hs : Kept on s) (hne : key ≠ receipt.key)
    (h : s.Ended key) : (s.adopted receipt).Ended key := by
  obtain ⟨ref, href, hended⟩ := h
  refine ⟨ref, (receipts_setReceipt_of_ne hne).trans href, ?_⟩
  exact (congrArg ReminderReceipt.live (heap_alloc_of_lt (hs.keyed key ref href).1)).trans
    hended

/-- What the map holds after `adopt`. -/
lemma receipts_adopted (hs : Kept on s) {key : ReceiptKey} {ref : Ref}
    (h : (s.adopted receipt).receipts key = some ref) :
    (key = receipt.key ∧ ref = s.size ∧ (s.adopted receipt).heap ref = receipt) ∨
      (s.receipts key = some ref ∧ ref < s.size ∧ (s.adopted receipt).heap ref = s.heap ref) := by
  by_cases hkey : key = receipt.key
  · subst hkey
    cases receipts_setReceipt.symm.trans h
    exact Or.inl ⟨rfl, rfl, heap_alloc⟩
  · have h' : s.receipts key = some ref := (receipts_setReceipt_of_ne hkey).symm.trans h
    have hlt := (hs.keyed key ref h').1
    exact Or.inr ⟨h', hlt, heap_alloc_of_lt hlt⟩

lemma kept_adopted (hs : Kept on s)
    (hreceipt : s.Adoptable on receipt) : Kept on (s.adopted receipt) where
  keyed key ref href := by
    rcases receipts_adopted hs href with ⟨rfl, rfl, hheap⟩ | ⟨href', hlt, hheap⟩
    · exact ⟨Nat.lt_succ_self _, by rw [hheap]⟩
    · exact ⟨Nat.lt_succ_of_lt hlt, by rw [hheap]; exact (hs.keyed key ref href').2⟩
  exhausted ref href := by
    obtain ⟨hlt, hended⟩ := hs.exhausted ref href
    refine ⟨Nat.lt_succ_of_lt hlt, ?_⟩
    exact (congrArg ReminderReceipt.live (heap_alloc_of_lt hlt)).trans hended
  awake hon hrunning := by
    have hawake := hs.awake hon hrunning
    refine ⟨?_, hawake.early, ?_, hawake.generation⟩
    · intro key hover
      by_cases hkey : key = receipt.key
      · subst hkey
        have hended := hreceipt.wakes hon hrunning hover
        exact ⟨s.size, receipts_setReceipt, (congrArg _ heap_alloc).trans hended⟩
      · exact ended_adopted hs hkey (hawake.isOver key hover)
    · intro key flight hflight hattended
      by_cases hkey : key = receipt.key
      · subst hkey
        rw [adopted, receipts_setReceipt]
        exact nofun
      · rw [adopted, receipts_setReceipt_of_ne hkey]
        exact hawake.attended key flight hflight hattended
  once := hs.once
  identified hon := by
    have hidentified := hs.identified hon
    refine ⟨hidentified.stored, hidentified.held, ?_, hidentified.alike, hidentified.ours⟩
    intro key ref href
    rcases receipts_adopted hs href with ⟨rfl, rfl, hheap⟩ | ⟨href', hlt, hheap⟩
    · rw [hheap]
      exact hreceipt.fires hon
    · rw [hheap]
      exact hidentified.memory key ref href'

lemma kept_forget (hs : Kept on s) {flight : Flight} (hflight : s.flights key = some flight)
    (hearly : flight.phase.early) (hattended : flight.phase.attended = false) :
    Kept on { s with receipts := Function.update s.receipts key none } where
  keyed key' ref href := by
    by_cases hkey : key' = key
    · subst hkey
      exact absurd ((Function.update_self _ _ _).symm.trans href) nofun
    · exact hs.keyed key' ref ((Function.update_of_ne hkey _ _).symm.trans href)
  exhausted := hs.exhausted
  awake hon hrunning := by
    have hawake := hs.awake hon hrunning
    refine ⟨?_, hawake.early, ?_, hawake.generation⟩
    · intro key' hover
      have hne : key' ≠ key := by
        rintro rfl
        exact hawake.early key' flight hflight hearly hover.1
      obtain ⟨ref, href, hended⟩ := hawake.isOver key' hover
      exact ⟨ref, (Function.update_of_ne hne _ _).trans href, hended⟩
    · intro key' flight' hflight' hattended'
      have hne : key' ≠ key := by
        rintro rfl
        cases hflight.symm.trans hflight'
        rw [hattended] at hattended'
        exact Bool.noConfusion hattended'
      have hsame : Function.update s.receipts key none key' = s.receipts key' :=
        Function.update_of_ne hne _ _
      intro hnone
      exact hawake.attended key' flight' hflight' hattended' (hsame.symm.trans hnone)
  once := hs.once
  identified hon := by
    have hidentified := hs.identified hon
    refine ⟨hidentified.stored, hidentified.held, ?_, hidentified.alike, hidentified.ours⟩
    intro key' ref href
    by_cases hkey : key' = key
    · subst hkey
      exact absurd ((Function.update_self _ _ _).symm.trans href) nofun
    · exact hidentified.memory key' ref ((Function.update_of_ne hkey _ _).symm.trans href)

/-! ### Writes and requests -/

lemma land_log (rs : List ReminderReceipt) (h : E.storable rs) :
    (s.land rs h).log = s.log ++ discards ((s.stored.receipts.filter fun r =>
      find ReminderReceipt.key r.key rs = none).map ReminderReceipt.key) := by
  rw [land, discards, map_map]
  rfl

lemma approved_land {rs : List ReminderReceipt} {h : E.storable rs}
    (hreceipt : s.Approved receipt) : (s.land rs h).Approved receipt := by
  intro hlive id hid
  rw [land_log, lastSent_discards] at hid
  split_ifs at hid
  exact hreceipt hlive id hid

lemma kept_land (hs : Kept on s) {rs : List ReminderReceipt} (h : E.storable rs)
    (hrs : on.fires → ∀ r ∈ rs, r ∈ s.stored.receipts ∨ s.Approved r) : Kept on (s.land rs h) where
  keyed := hs.keyed
  exhausted := hs.exhausted
  awake hon hrunning := by
    have hawake := hs.awake hon hrunning
    have hwoken (key : ReceiptKey) : (s.land rs h).Woken key ↔ s.Woken key := by
      rw [Woken, land_log, woken_mem_discards, Woken]
    refine ⟨?_, ?_, hawake.attended, hawake.generation⟩
    · rintro key ⟨hkey, hphase⟩
      exact hawake.isOver key ⟨(hwoken key).mp hkey, hphase⟩
    · intro key flight hflight hearly hkey
      exact hawake.early key flight hflight hearly ((hwoken key).mp hkey)
  once hon := by
    rw [land_log]
    exact (hs.once hon).discards _
  identified hon := by
    have hidentified := hs.identified hon
    refine ⟨?_, ?_, fun key ref href => approved_land (hidentified.memory key ref href), ?_, ?_⟩
    · intro r hr
      rcases hrs hon r hr with hold | happroved
      · exact approved_land (hidentified.stored r hold)
      · exact approved_land happroved
    · intro key id hid
      rw [land_log, lastSent_discards] at hid
      split_ifs at hid with hgone
      obtain ⟨r, hr, rfl⟩ := hidentified.held key id hid
      have hfind : find ReminderReceipt.key r.key rs ≠ none := by
        intro hnone
        exact hgone (mem_map.mpr ⟨r, mem_filter.mpr ⟨hr, by simpa using hnone⟩, rfl⟩)
      obtain ⟨r', hr'⟩ := Option.ne_none_iff_exists'.mp hfind
      exact ⟨r', mem_of_find hr', key_of_find hr'⟩
    · rw [land_log]
      exact hidentified.alike.discards _
    · intro request hrequest
      rw [land_log] at hrequest
      exact hidentified.ours request (by simpa [discards] using hrequest)

lemma storedNodup (f : Stored E) : (f.receipts.map ReminderReceipt.key).Nodup := by
  have h := f.storable
  simp only [Setting.storable, decide_eq_true_eq] at h
  exact h.2

lemma awake_observe (hs : s.Awake) {o : Observed} (ho : ∀ key, o ≠ .woken key) :
    (s.observe o).Awake := by
  have hwoken (key : ReceiptKey) : (s.observe o).Woken key ↔ s.Woken key := by
    simp [Woken, observe, Ne.symm (ho key)]
  refine ⟨?_, ?_, hs.attended, hs.generation⟩
  · rintro key ⟨hkey, hphase⟩
    exact hs.isOver key ⟨(hwoken key).mp hkey, hphase⟩
  · intro key flight hflight hearly hkey
    exact hs.early key flight hflight hearly ((hwoken key).mp hkey)

lemma identified_observe (hs : s.Identified) {o : Observed}
    (ho : ∀ key last, note key last o = last) (hfire : ∀ request, o ≠ .fire request) :
    (s.observe o).Identified := by
  have hlast (key : ReceiptKey) : lastSent key (s.observe o).log = lastSent key s.log := by
    rw [observe, lastSent_concat, ho]
  refine ⟨?_, ?_, ?_, hs.alike.concat fun request h => absurd h (hfire request), ?_⟩
  · intro r hr hlive id hid
    exact hs.stored r hr hlive id ((hlast _).symm.trans hid)
  · intro key id hid
    exact hs.held key id ((hlast _).symm.trans hid)
  · intro key ref href hlive id hid
    exact hs.memory key ref href hlive id ((hlast _).symm.trans hid)
  · intro request hrequest
    exact hs.ours request (by simpa [observe, Ne.symm (hfire request)] using hrequest)

lemma valid_of_mem {r : ReminderReceipt} (hr : r ∈ s.stored.receipts) :
    r.workspaceId = E.scope.workspaceId ∧ r.computerId = E.scope.computerId ∧
      r.agentId = E.agentId := by
  have h := s.stored.storable
  simp only [Setting.storable, decide_eq_true_eq, all_eq_true] at h
  have hvalid := h.1 r hr
  simp only [Setting.valid, decide_eq_true_eq] at hvalid
  exact ⟨hvalid.1, hvalid.2.2.1, hvalid.2.1⟩

lemma kept_fire (hs : Kept on s) {request : ReminderFireRequest}
    (hkey : request.key = receipt.key) (hid : request.requestId = receipt.requestId)
    (hfrom : request.workspaceId = receipt.workspaceId ∧
      request.computerId = receipt.computerId ∧ request.agentId = receipt.agentId)
    (hmem : on.fires → receipt ∈ s.stored.receipts ∧ receipt.live = true)
    (href : s.receipts receipt.key = some ref)
    (hsame : (s.heap ref).requestId = receipt.requestId) : Kept on (s.observe (.fire request)) where
  keyed := hs.keyed
  exhausted := hs.exhausted
  awake hon hrunning := awake_observe (hs.awake hon hrunning) nofun
  once hon := (hs.once hon).concat nofun
  identified hon := by
    have hidentified := hs.identified hon
    obtain ⟨hmem, hlive⟩ := hmem hon
    have hlast (key : ReceiptKey) : lastSent key (s.observe (.fire request)).log =
        if receipt.key = key then some receipt.requestId else lastSent key s.log := by
      rw [observe, lastSent_concat, note, hkey, hid]
    have hnodup := storedNodup s.stored
    refine ⟨?_, ?_, ?_, ?_, ?_⟩
    · intro r hr hlive' id hid'
      rw [hlast] at hid'
      split_ifs at hid' with hsplit
      · rw [← Option.some.inj hid', inj_on_of_nodup_map hnodup hr hmem hsplit.symm]
      · exact hidentified.stored r hr hlive' id hid'
    · intro key id hid'
      rw [hlast] at hid'
      split_ifs at hid' with hsplit
      · exact ⟨receipt, hmem, hsplit⟩
      · exact hidentified.held key id hid'
    · intro key ref' href' hlive' id hid'
      have hkeyed : (s.heap ref').key = key := (hs.keyed key ref' href').2
      rw [hlast] at hid'
      split_ifs at hid' with hsplit
      · obtain rfl : receipt.key = key := hsplit.trans hkeyed
        cases href.symm.trans href'
        rw [← Option.some.inj hid']
        exact hsame
      · exact hidentified.memory key ref' href' hlive' id hid'
    · refine hidentified.alike.concat ?_
      intro request' hrequest id hid'
      obtain rfl := Observed.fire.inj hrequest
      rw [hkey] at hid'
      rw [hid]
      exact (hidentified.stored receipt hmem hlive id hid').symm
    · intro request' hrequest
      rcases mem_append.mp hrequest with hold | hnew
      · exact hidentified.ours request' hold
      · obtain rfl := Observed.fire.inj (mem_singleton.mp hnew)
        obtain ⟨hworkspace, hcomputer, hagent⟩ := valid_of_mem hmem
        exact ⟨hfrom.1.trans hworkspace, hfrom.2.1.trans hcomputer, hfrom.2.2.trans hagent⟩

lemma kept_wake (hs : Kept on s) {job : ReminderJob} {late : Bool}
    (hwoken : on.wakes → ¬ s.Woken key) : Kept on (s.observe (.wake key job late)) where
  keyed := hs.keyed
  exhausted := hs.exhausted
  awake hon hrunning := awake_observe (hs.awake hon hrunning) nofun
  once hon := by
    refine (hs.once hon).concat ?_
    intro key' job' late' heq
    obtain ⟨rfl, -, -⟩ := Observed.wake.inj heq
    exact hwoken hon
  identified hon := identified_observe (hs.identified hon) (fun _ _ => rfl) nofun

lemma kept_woken (hs : Kept on s) (hflight : s.flights key = some ⟨generation, .woken true⟩) :
    Kept on (s.observe (.woken key)) where
  keyed := hs.keyed
  exhausted := hs.exhausted
  awake hon hrunning := by
    have hawake := hs.awake hon hrunning
    have hwoken (key' : ReceiptKey) (hne : key' ≠ key) :
        (s.observe (.woken key)).Woken key' ↔ s.Woken key' := by
      simp [Woken, observe, hne]
    refine ⟨?_, ?_, hawake.attended, hawake.generation⟩
    · rintro key' ⟨hkey, hphase⟩
      have hne : key' ≠ key := by
        rintro rfl
        exact hphase _ hflight rfl
      exact hawake.isOver key' ⟨(hwoken key' hne).mp hkey, hphase⟩
    · intro key' flight hflight' hearly hkey
      have hne : key' ≠ key := by
        rintro rfl
        cases hflight.symm.trans hflight'
        exact Bool.noConfusion hearly
      exact hawake.early key' flight hflight' hearly ((hwoken key' hne).mp hkey)
  once hon := (hs.once hon).concat nofun
  identified hon := identified_observe (hs.identified hon) (fun _ _ => rfl) nofun

end Scheduler

end Coforge.Reminder
