import Coforge.Reminder.Operations

/-!
# One accepted wake for each occurrence

Within one life of the daemon no wake is requested for an occurrence once one was accepted, in
every run in which the file does not bring such an occurrence back. It can do so where the write
that should record the accepted wake failed: the terminal receipt is never written again, and a
later `#restore`, or the operation of a receipt timer, reads the older copy.
-/

namespace Coforge.Reminder

open Async Transition Scheduler

variable {E : Setting}

instance (s : Scheduler E) (key : ReceiptKey) : Decidable (s.Woken key) :=
  inferInstanceAs (Decidable (_ ∈ s.log))

instance (s : Scheduler E) (key : ReceiptKey) : Decidable (s.Over key) :=
  decidable_of_iff
    (s.Woken key ∧ (s.flights key).all (fun flight => flight.phase ≠ .woken true)) (by
      cases h : s.flights key <;> simp [Over, h])

/-- Where the file is read back, the copy of an occurrence whose accepted wake has been taken in
memory is not live. -/
def KeepsWakes (s : Sys (Scheduler E) Task StoreReply String) (a : Act Event Outcome) : Prop :=
  match s.turn, a with
  | some (.apply _, _), .reply .done =>
    ∀ x ∈ s.shared.stored.receipts, s.shared.Over x.key → x.live = false
  | some (.receiptDue key true _, _), .reply .done =>
    ∀ x ∈ s.shared.stored.receipts, x.key = key → s.shared.Over key → x.live = false
  | _, _ => True

instance (s : Sys (Scheduler E) Task StoreReply String) (a : Act Event Outcome) :
    Decidable (KeepsWakes s a) := by
  unfold KeepsWakes
  split <;> infer_instance

/-- A daemon that has just started, over a file of any content. -/
def started (stored : Stored E) (uuids : Nat) (log : List Observed) :
    Sys (Scheduler E) Task StoreReply String :=
  ⟨boot stored uuids log, none⟩

lemma done_of_read {s t : Scheduler E} {o : Outcome} {rs : List ReminderReceipt}
    (h : Scheduler.answer .read o s = some (.ok rs, t)) : o = .done := by
  cases o with
  | done => rfl
  | failed message => cases h
  | failedAfter message => cases h

lemma clean_of_keepsWakes {s : Sys (Scheduler E) Task StoreReply String} {a : Act Event Outcome}
    (h : KeepsWakes s a) : Clean ⟨True, False⟩ s a := by
  rcases hturn : s.turn with _ | ⟨task, e, resume⟩
  · simp [Clean, hturn]
  cases a with
  | event l => simp [Clean, hturn]
  | begin => simp [Clean, hturn]
  | reply o =>
    simp only [Clean, hturn]
    intro r t hanswer
    cases e with
    | write rs => exact sound_write
    | read =>
      cases r with
      | error message =>
        cases task with
        | prepareDue job => exact False.elim
        | receiptDue key proceed after => cases proceed <;> trivial
        | _ => trivial
      | ok rs =>
        obtain rfl := done_of_read hanswer
        simp only [KeepsWakes, hturn] at h
        cases task with
        | apply sync => exact fun _ => h
        | receiptDue key proceed after =>
          cases proceed with
          | true => exact fun _ => h
          | false => trivial
        | _ => trivial

lemma kept_boot (on : Watch) (stored : Stored E) (uuids : Nat) :
    Kept on (boot stored uuids []) where
  keyed := nofun
  exhausted := nofun
  awake _ _ := ⟨nofun, nofun, nofun, nofun⟩
  once _ pre _ _ _ _ h := absurd h (by simp [boot])
  identified _ := by
    refine ⟨fun r _ _ id hid => ?_, fun key id hid => ?_, nofun, fun pre q post h => ?_, nofun⟩
    · exact absurd hid (by simp [boot])
    · exact absurd hid (by simp [boot])
    · exact absurd h (by simp [boot])

/-- No wake of an occurrence is requested after one was accepted. -/
theorem wake_requested_once (stored : Stored E) (uuids : Nat) {acts : List (Act Event Outcome)}
    {s : Sys (Scheduler E) Task StoreReply String}
    (hok : Permitted (scheduler E).step KeepsWakes (started stored uuids []) acts)
    (hrun : run (scheduler E).step (started stored uuids []) acts = some s) :
    WokenOnce s.shared.log := by
  have hclean := hok.mono fun _ _ => clean_of_keepsWakes
  have hkept : Kept ⟨True, False⟩ (boot stored uuids [] : Scheduler E) := kept_boot _ stored uuids
  exact (kept_run rfl hkept hclean hrun).once trivial

/-! ### A review reminder -/

namespace Review

def daemon : Setting where
  scope := ⟨"workspace-a", "computer-a"⟩
  agentId := "agent-a"
  randomUUID n := if n = 0 then "first" else "second"
  encodes _ := true

def job : ReminderJob :=
  ⟨"review", "agent-a", 1, "Review", "#general", "0a1b2c3d", 1000⟩

def key : ReceiptKey := ("review", 1)

def sync (operation : SyncOperation) : Act Event Outcome :=
  .event (.sync ⟨1, "workspace-a", "computer-a", "agent-a", operation⟩)

def emptyFile : Stored daemon := ⟨[], by decide⟩

def fired : ReminderFireResponse :=
  ⟨1, "first", "workspace-a", "computer-a", "agent-a", "review", 1, .accepted, true, false, none⟩

/-- A job falls due, is fired and wakes the Agent, up to the write that records the wake. -/
def toAcceptedWake : List (Act Event Outcome) :=
  [.event (.tick 1000), sync (.snapshot [job]), .begin, .reply .done,
    .event (.scheduleTimer "review"), .begin, .reply .done, .reply .done, .reply .done, .begin,
    .reply .done, .reply .done, .event (.fireAnswer key (some fired)), .begin, .reply .done,
    .reply .done, .reply .done, .event (.finish key), .begin, .reply .done, .reply .done,
    .event (.wakeAnswer key (some true)), .begin, .reply .done, .reply .done]

/-- A snapshot afterwards, and the timer it may arm. -/
def thenSnapshot : List (Act Event Outcome) :=
  [.event (.finish key), sync (.snapshot []), .begin, .reply .done]

def thenTimer : List (Act Event Outcome) :=
  [.event (.receiptTimer key), .begin, .reply .done, .begin, .reply .done, .reply .done]

end Review

open Review in
/-- The wake is recorded, and the next snapshot brings nothing back. -/
theorem wake_requested_once_review : ∃ s, run (scheduler daemon).step (started emptyFile 0 [])
        (toAcceptedWake ++ .reply .done :: thenSnapshot) = some s ∧ WokenOnce s.shared.log := by
  have hsome : (run (scheduler daemon).step (started emptyFile 0 [])
      (toAcceptedWake ++ .reply .done :: thenSnapshot)).isSome := by decide +kernel
  obtain ⟨s, hs⟩ := Option.isSome_iff_exists.mp hsome
  exact ⟨s, hs, wake_requested_once emptyFile 0 (by decide +kernel) hs⟩

open Review in
/-- The write that should record the accepted wake fails, the next snapshot reads the older copy
back, and its timer asks for the wake once more. -/
theorem wake_requested_twice : ∃ s, run (scheduler daemon).step (started emptyFile 0 [])
        (toAcceptedWake ++ .reply (.failed "ENOSPC") :: thenSnapshot ++ thenTimer) = some s ∧
      ¬ WokenOnce s.shared.log := by
  have hlog : (run (scheduler daemon).step (started emptyFile 0 [])
      (toAcceptedWake ++ .reply (.failed "ENOSPC") :: thenSnapshot ++ thenTimer)).map
        (fun s => s.shared.log.drop 1) =
      some [.wake key job false, .woken key, .wake key job false] := by
    decide +kernel
  obtain ⟨s, hs, hdrop⟩ := Option.map_eq_some_iff.mp hlog
  refine ⟨s, hs, ?_⟩
  intro honce
  refine honce (s.shared.log.take 1 ++ [.wake key job false, .woken key]) key job
    false [] ?_ (by simp)
  rw [List.append_assoc]
  exact (List.take_append_drop 1 s.shared.log).symm.trans
    (congrArg (s.shared.log.take 1 ++ ·) hdrop)

end Coforge.Reminder
