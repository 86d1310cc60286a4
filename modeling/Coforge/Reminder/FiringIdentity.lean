import Coforge.Reminder.Server
import Coforge.Reminder.Wake

/-!
# One firing identity between two discards

The lives of a daemon that is restarted any number of times over one receipt file. Between two
discards of an occurrence's receipt all fire requests for it carry one identity, in all runs in
which the read that tells `#prepareDue` whether there is a receipt succeeds; so the server, which
replays what it recorded under an identity, discards no occurrence it has fired.

A process may end at any point of a life. A write that takes effect as it ends is one that fails
after it took effect.
-/

namespace Coforge.Reminder

open Async Transition Scheduler

variable {E : Setting}

/-! ### Lives -/

/-- What outlives a process: the file, and what was observed. -/
structure Durable (E : Setting) where
  stored : Stored E
  uuids : Nat
  log : List Observed

/-- The start of a life. -/
def Durable.start (d : Durable E) : Sys (Scheduler E) Task StoreReply String :=
  started d.stored d.uuids d.log

/-- One life of the daemon, up to the step after which it ends. -/
def live (d : Durable E) (life : List (Act Event Outcome)) : Option (Durable E) :=
  (run (scheduler E).step d.start life).map fun s =>
    ⟨s.shared.stored, s.shared.uuids, s.shared.log⟩

/-- The read of the file by which `#prepareDue` looks for a receipt succeeds. -/
def ReadsDue (s : Sys (Scheduler E) Task StoreReply String) (a : Act Event Outcome) : Prop :=
  match s.turn, a with
  | some (.prepareDue job, _), .reply o =>
    s.shared.receipts (job.reminderId, job.version) = none → o = .done
  | _, _ => True

/-- `ReadsDue` as a check. -/
def readsDue (s : Sys (Scheduler E) Task StoreReply String) (a : Act Event Outcome) : Bool :=
  match s.turn, a with
  | some (.prepareDue job, _), .reply o =>
    decide (s.shared.receipts (job.reminderId, job.version) = none → o = .done)
  | _, _ => true

lemma readsDue_iff {s : Sys (Scheduler E) Task StoreReply String} {a : Act Event Outcome} :
    readsDue s a = true ↔ ReadsDue s a := by
  unfold readsDue ReadsDue
  split
  · exact decide_eq_true_iff
  · exact iff_of_true rfl trivial

instance (s : Sys (Scheduler E) Task StoreReply String) (a : Act Event Outcome) :
    Decidable (ReadsDue s a) :=
  decidable_of_iff (readsDue s a = true) readsDue_iff

/-- All of its steps meet the condition. -/
def ReadsDueIn (d : Durable E) (life : List (Act Event Outcome)) : Prop :=
  Permitted (scheduler E).step ReadsDue d.start life

instance (d : Durable E) (life : List (Act Event Outcome)) : Decidable (ReadsDueIn d life) :=
  inferInstanceAs (Decidable (Permitted _ _ _ _))

lemma clean_of_readsDue {s : Sys (Scheduler E) Task StoreReply String} {a : Act Event Outcome}
    (h : ReadsDue s a) : Clean ⟨False, True⟩ s a := by
  rcases hturn : s.turn with _ | ⟨task, e, resume⟩
  · simp [Clean, hturn]
  cases a with
  | event l => simp [Clean, hturn]
  | begin => simp [Clean, hturn]
  | reply o =>
    simp only [Clean, hturn]
    intro r t hanswer
    cases e with
    | write rs => exact sound_write
    | read =>
      cases r with
      | ok rs =>
        cases task with
        | apply sync => exact False.elim
        | receiptDue key proceed after =>
          cases proceed with
          | true => exact False.elim
          | false => trivial
        | _ => trivial
      | error message =>
        cases task with
        | prepareDue job =>
          simp only [ReadsDue, hturn] at h
          intro _ habsent
          obtain rfl := h habsent
          cases hanswer
        | receiptDue key proceed after => cases proceed <;> trivial
        | _ => trivial

/-- What a life leaves for the next one. -/
def Durable.Kept (d : Durable E) : Prop :=
  Scheduler.Kept ⟨False, True⟩ (boot d.stored d.uuids d.log)

lemma durable_kept {s : Scheduler E} (hs : Scheduler.Kept ⟨False, True⟩ s) :
    Durable.Kept ⟨s.stored, s.uuids, s.log⟩ where
  keyed := nofun
  exhausted := nofun
  awake h := h.elim
  once h := h.elim
  identified h :=
    have hidentified := hs.identified h
    ⟨hidentified.stored, hidentified.held, nofun, hidentified.alike, hidentified.ours⟩

lemma kept_live {d d' : Durable E} {life : List (Act Event Outcome)} (hd : d.Kept)
    (hok : ReadsDueIn d life) (h : live d life = some d') : d'.Kept := by
  obtain ⟨s, hrun, rfl⟩ := Option.map_eq_some_iff.mp h
  have hstart : Scheduler.Kept ⟨False, True⟩ d.start.shared := hd
  exact durable_kept (kept_run rfl hstart (hok.mono fun _ _ => clean_of_readsDue) hrun)

lemma kept_lives {d d' : Durable E} {lives : List (List (Act Event Outcome))} (hd : d.Kept)
    (hok : Permitted live ReadsDueIn d lives) (h : run live d lives = some d') : d'.Kept :=
  invariant (fun _ _ _ => kept_live) hd hok h

/-! ### Requests between two discards -/

/-- Two requests for one occurrence, in either order, and its receipt was not discarded in
between. -/
def Together (log : List Observed) (request request' : ReminderFireRequest) : Prop :=
  request'.key = request.key ∧ ∃ pre mid post, .discarded request.key ∉ mid ∧
    (log = pre ++ .fire request :: (mid ++ .fire request' :: post) ∨
      log = pre ++ .fire request' :: (mid ++ .fire request :: post))

lemma FiredAlike.prefix {log post : List Observed} (h : FiredAlike (log ++ post)) :
    FiredAlike log := by
  rintro pre request mid rfl
  exact h pre request (mid ++ post) (by simp)

/-- The identity of a request stays the last one sent until the receipt is discarded. -/
lemma lastSent_of_fired {pre mid : List Observed} {request : ReminderFireRequest}
    (h : FiredAlike (pre ++ .fire request :: mid)) (hmid : .discarded request.key ∉ mid) :
    lastSent request.key (pre ++ .fire request :: mid) = some request.requestId := by
  induction mid using List.reverseRecOn with
  | nil => simp [note]
  | append_singleton mid o ih =>
    have hlist : pre ++ .fire request :: (mid ++ [o]) = (pre ++ .fire request :: mid) ++ [o] := by
      simp
    rw [hlist] at h ⊢
    have hmid' : .discarded request.key ∉ mid := fun hmem => hmid (by simp [hmem])
    have hlast := ih h.prefix hmid'
    rw [lastSent_concat, hlast]
    cases o with
    | fire request' =>
      simp only [note]
      split_ifs with hkey
      · have hsame := h _ request' [] rfl request.requestId (by rw [hkey, hlast])
        rw [hsame]
      · rfl
    | wake key job late => rfl
    | woken key => rfl
    | discarded key =>
      have hne : key ≠ request.key := by
        rintro rfl
        exact hmid (by simp)
      simp only [note, if_neg hne]

lemma FiredAlike.together {log : List Observed} (h : FiredAlike log)
    {request request' : ReminderFireRequest} (htogether : Together log request request') :
    request'.requestId = request.requestId := by
  obtain ⟨hkey, pre, mid, post, hmid, rfl | rfl⟩ := htogether
  · have hlist : pre ++ .fire request :: (mid ++ .fire request' :: post) =
        (pre ++ .fire request :: mid) ++ .fire request' :: post := by simp
    rw [hlist] at h
    exact (h _ request' post rfl _ (hkey ▸ lastSent_of_fired h.prefix hmid)).symm
  · have hlist : pre ++ .fire request' :: (mid ++ .fire request :: post) =
        (pre ++ .fire request' :: mid) ++ .fire request :: post := by simp
    rw [hlist] at h
    rw [← hkey] at hmid
    exact h _ request post rfl _ (hkey ▸ lastSent_of_fired h.prefix hmid)

lemma Together.mem {log : List Observed} {request request' : ReminderFireRequest}
    (h : Together log request request') : .fire request ∈ log ∧ .fire request' ∈ log := by
  obtain ⟨-, pre, mid, post, -, rfl | rfl⟩ := h <;> simp

/-- The fire requests that a daemon and its restarts send for an occurrence between two discards
of its receipt carry one identity. Once the server has accepted one of them, it answers every one
that reaches it later, while the reminder is the Agent's on the Computer, as it answered that
one. -/
theorem fired_under_one_identity (stored : Stored E) (uuids : Nat)
    {lives : List (List (Act Event Outcome))} {d : Durable E}
    (hok : Permitted live ReadsDueIn ⟨stored, uuids, []⟩ lives)
    (hrun : run live ⟨stored, uuids, []⟩ lives = some d) {request request' : ReminderFireRequest}
    (htogether : Together d.log request request') : request'.requestId = request.requestId ∧
      ∀ (nextOccurrence : NextOccurrence) (db db' : Database)
        (authorized : Bool) (now now' : Int) (answer : Database.FireAnswer)
        (acts : List Database.Act) (reminder : ReminderRow),
        db.fire nextOccurrence authorized request now = (.ok answer, db') →
        answer.result.result = .accepted →
        (acts.foldl (Database.serve nextOccurrence) db').findReminder request' = some reminder →
        ∃ next db'', (acts.foldl (Database.serve nextOccurrence) db').fire nextOccurrence true
          request' now' = (.ok ⟨answer.result, next⟩, db'') := by
  have hstart : Durable.Kept ⟨stored, uuids, []⟩ := kept_boot _ stored uuids
  have hidentified := (kept_lives hstart hok hrun).identified trivial
  have hid := hidentified.alike.together htogether
  refine ⟨hid, ?_⟩
  intro nextOccurrence db db' authorized now now' answer acts reminder hfire haccepted hreminder
  obtain ⟨hmem, hmem'⟩ := htogether.mem
  obtain ⟨hworkspace, hcomputer, hagent⟩ := hidentified.ours request hmem
  obtain ⟨hworkspace', hcomputer', hagent'⟩ := hidentified.ours request' hmem'
  obtain ⟨hreminderId, hversion⟩ := Prod.mk.inj htogether.1
  refine Database.fire_replayed ⟨hreminderId, hid, ?_, ?_, ?_, hversion⟩ hfire haccepted hreminder
  · exact hworkspace'.trans hworkspace.symm
  · exact hcomputer'.trans hcomputer.symm
  · exact hagent'.trans hagent.symm

namespace Review

/-- The job falls due, and its fire request goes out. -/
def toFire : List (Act Event Outcome) :=
  [.event (.tick 1000), sync (.snapshot [job]), .begin, .reply .done,
    .event (.scheduleTimer "review"), .begin, .reply .done, .reply .done, .reply .done,
    .begin, .reply .done, .reply .done]

/-- A daemon that starts again reads the receipt back, and fires once its timer does. -/
def restarted : List (Act Event Outcome) :=
  [.event (.tick 2000), sync (.snapshot []), .begin, .reply .done, .event (.receiptTimer key),
    .begin, .reply .done, .begin, .reply .done, .reply .done]

/-- The server finds the reminder due only after the retry budget, and it falls due again. -/
def thenPremature : List (Act Event Outcome) :=
  [.event (.fireAnswer key (some { fired with
      result := .premature, fired := false, retryAfterMs := some 1000000 })),
    .begin, .reply .done, .reply .done, .reply .done, .event (.finish key),
    .event (.scheduleTimer "review"), .begin, .reply .done, .reply .done, .reply .done,
    .begin, .reply .done, .reply .done]

def request (requestId : String) (firedAtClient : Int) : ReminderFireRequest :=
  ⟨1, requestId, "workspace-a", "computer-a", "agent-a", "review", 1, firedAtClient⟩

end Review

open Review in
theorem fired_under_one_identity_restarted :
    ∃ d, run live (⟨emptyFile, 0, []⟩ : Durable daemon) [toFire, restarted] = some d ∧
      Together d.log (request "first" 1000) (request "first" 1000) ∧
      (request "first" 1000).requestId = (request "first" 1000).requestId := by
  have hlog : (run live (⟨emptyFile, 0, []⟩ : Durable daemon) [toFire, restarted]).map
      Durable.log = some [.fire (request "first" 1000), .fire (request "first" 1000)] := by
    decide
  obtain ⟨d, hd, hd'⟩ := Option.map_eq_some_iff.mp hlog
  have htogether : Together d.log (request "first" 1000) (request "first" 1000) :=
    ⟨rfl, [], [], [], by simp, Or.inl hd'⟩
  exact ⟨d, hd, htogether,
    (fired_under_one_identity emptyFile 0 (by decide) hd htogether).1⟩

open Review in
/-- After a premature answer past the retry deadline the occurrence is fired under a new
identity. -/
theorem fired_under_two_identities :
    ∃ d, run live (⟨emptyFile, 0, []⟩ : Durable daemon) [toFire ++ thenPremature] = some d ∧
      ∃ q q', .fire q ∈ d.log ∧ .fire q' ∈ d.log ∧ q'.key = q.key ∧ q'.requestId ≠ q.requestId := by
  have hlog : (run live (⟨emptyFile, 0, []⟩ : Durable daemon) [toFire ++ thenPremature]).map
      Durable.log = some [.fire (request "first" 1000), .discarded key,
        .fire (request "second" 1000)] := by
    decide
  obtain ⟨d, hd, hd'⟩ := Option.map_eq_some_iff.mp hlog
  refine ⟨d, hd, request "first" 1000, request "second" 1000, ?_, ?_, rfl, by decide⟩
  · simp [hd']
  · simp [hd']

end Coforge.Reminder
