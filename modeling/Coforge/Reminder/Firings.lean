import Coforge.Reminder.Repository

/-!
# One firing for each version

The transactions of the reminder repository in any order, with what they answered. A firing raises
the version of its reminder, so the versions that were fired are all behind the row, and each was
fired under one request. Whatever else changes a row raises its version as well.
-/

namespace Coforge.Reminder

open Function

inductive Transaction where
  | create (authorized : Bool) (active : Nat) (fingerprint reminderId : String)
      (request : CreateRequest)
  | update (authorized : Bool) (active : Nat) (fingerprint : String) (request : OperationRequest)
      (now : Int)
  | fire (authorized : Bool) (request : ReminderFireRequest) (now : Int)
deriving DecidableEq

inductive Answer where
  | reminder (answer : Except String ReminderRow)
  | fired (answer : Except String Database.FireAnswer)

/-- The repository, and what its transactions answered, the latest first. -/
structure Served where
  repository : Repository
  answers : List (Transaction × Answer)

namespace Repository

def serve (nextOccurrence : NextOccurrence) (db : Repository) : Transaction → Answer × Repository
  | .create authorized active fingerprint reminderId request =>
    let (answer, db) := db.create authorized active fingerprint reminderId request
    (.reminder answer, db)
  | .update authorized active fingerprint request now =>
    let (answer, db) := db.update nextOccurrence authorized active fingerprint request now
    (.reminder answer, db)
  | .fire authorized request now =>
    let (answer, db) := db.fire nextOccurrence authorized request now
    (.fired answer, db)

end Repository

def Served.step (nextOccurrence : NextOccurrence) (s : Served) (transaction : Transaction) :
    Served where
  repository := (s.repository.serve nextOccurrence transaction).2
  answers := (transaction, (s.repository.serve nextOccurrence transaction).1) :: s.answers

/-- The transactions, one after another. -/
def served (nextOccurrence : NextOccurrence) (transactions : List Transaction) : Served :=
  transactions.foldl (Served.step nextOccurrence) ⟨.empty, []⟩

/-! ### What a transaction does to the rows -/

/-- The row stays, or its version is raised. -/
def Raises (row row' : ReminderRow) : Prop :=
  row'.id = row.id ∧ row'.workspaceId = row.workspaceId ∧ row'.ownerAgentId = row.ownerAgentId ∧
    row'.computerId = row.computerId ∧ (row' = row ∨ row.version < row'.version)

lemma Raises.refl (row : ReminderRow) : Raises row row := ⟨rfl, rfl, rfl, rfl, .inl rfl⟩

/-- The rows of a database are kept under their ids and are raised only. -/
def RowsRaised (db db' : Database) : Prop :=
  ∀ id row, db.reminders id = some row → ∃ row', db'.reminders id = some row' ∧ Raises row row'

lemma rowsRaised_refl (db : Database) : RowsRaised db db :=
  fun _ row h => ⟨row, h, .refl row⟩

lemma rowsRaised_update {db db' : Database} {id : String} {row next : ReminderRow}
    (hrow : db.reminders id = some row) (hraises : Raises row next)
    (hnext : db'.reminders = Function.update db.reminders id (some next)) : RowsRaised db db' := by
  intro id' row' hrow'
  rw [hnext]
  by_cases heq : id' = id
  · subst heq
    cases hrow.symm.trans hrow'
    exact ⟨next, update_self _ _ _, hraises⟩
  · exact ⟨row', (update_of_ne heq _ _).trans hrow', .refl row'⟩

lemma OperationRequest.write_raises (request : OperationRequest) (existing : ReminderRow)
    (patch : Patch) : Raises existing (request.write existing patch) :=
  ⟨rfl, rfl, rfl, rfl, .inr (Nat.lt_succ_self _)⟩

/-- An operation that is applied raises the version, unless it cancels a cancelled reminder. -/
lemma OperationRequest.apply_ok {nextOccurrence : NextOccurrence} {request : OperationRequest}
    {existing row : ReminderRow} {now : Int}
    (h : request.apply nextOccurrence existing now = .ok row) :
    (request.operation = .cancel ∧ existing.status = .canceled ∧ row = existing) ∨
      ∃ patch, row = request.write existing patch := by
  unfold OperationRequest.apply at h
  split at h
  · cases h
  next patch _ =>
    split_ifs at h with hpast hnoop
    · cases h
      exact .inl ⟨hnoop.1, hnoop.2, rfl⟩
    · cases h
      exact .inr ⟨patch, rfl⟩

lemma Database.advance_raises {nextOccurrence : NextOccurrence} {row changed : ReminderRow}
    {now : Int} (h : Database.advance nextOccurrence row now = some changed) :
    Raises row changed ∧ changed.version = row.version + 1 := by
  unfold Database.advance at h
  split at h
  · obtain ⟨next, -, rfl⟩ := Option.map_eq_some_iff.mp h
    exact ⟨⟨rfl, rfl, rfl, rfl, .inr (Nat.lt_succ_self _)⟩, rfl⟩
  · cases h
    exact ⟨⟨rfl, rfl, rfl, rfl, .inr (Nat.lt_succ_self _)⟩, rfl⟩

/-! ### A fire request -/

namespace Database

variable {nextOccurrence : NextOccurrence} {db db' : Database} {request : ReminderFireRequest}
  {authorized : Bool} {now : Int} {answer : Except String FireAnswer}

/-- The firing of a version: its row is raised and the answer recorded. -/
structure Fires (nextOccurrence : NextOccurrence) (db : Database) (request : ReminderFireRequest)
    (now : Int) (answer : Except String FireAnswer) (db' : Database) (row changed : ReminderRow) :
    Prop where
  found : db.findReminder request = some row
  fresh : db.fireReceipts (request.reminderId, request.requestId) = none
  version : row.version = request.version
  advanced : advance nextOccurrence row now = some changed
  reminders : db'.reminders = Function.update db.reminders row.id (some changed)
  answered : ∃ next result, answer = .ok ⟨result, next⟩ ∧ result.result = .accepted ∧
    db'.fireReceipts = Function.update db.fireReceipts (request.reminderId, request.requestId)
      (some ⟨request.workspaceId, request.computerId, request.agentId, request.version, result⟩)

/-- A request that is no firing changes nothing, and is accepted only as a repetition. -/
lemma fire_cases (h : db.fire nextOccurrence authorized request now = (answer, db')) :
    (∃ row changed, Fires nextOccurrence db request now answer db' row changed) ∨
      (db' = db ∧ ∀ a, answer = .ok a → a.result.result = .accepted →
        db.fireReceipts (request.reminderId, request.requestId) ≠ none) := by
  rw [fire] at h
  cases authorized
  · cases h
    exact .inr ⟨rfl, fun a heq => by cases heq⟩
  simp only [Bool.not_true, Bool.false_eq_true, if_false] at h
  cases hreminder : db.findReminder request with
  | none =>
    rw [hreminder] at h
    cases h
    refine .inr ⟨rfl, fun a heq haccepted => ?_⟩
    cases heq
    cases haccepted
  | some row =>
    cases hreplay : db.fireReceipts (request.reminderId, request.requestId) with
    | some replay =>
      simp only [hreminder, hreplay] at h
      refine .inr ⟨?_, fun _ _ _ => by simp⟩
      split_ifs at h <;> cases h <;> rfl
    | none =>
      simp only [hreminder, hreplay] at h
      split_ifs at h with hstale hearly
      · cases h
        refine .inr ⟨rfl, fun a heq haccepted => ?_⟩
        cases heq
        cases haccepted
      · cases h
        refine .inr ⟨rfl, fun a heq haccepted => ?_⟩
        cases heq
        cases haccepted
      cases hchanged : advance nextOccurrence row now with
      | none =>
        rw [hchanged] at h
        cases h
        exact .inr ⟨rfl, fun a heq => by cases heq⟩
      | some changed =>
        rw [hchanged] at h
        cases h
        rw [not_or, not_not, not_not] at hstale
        exact .inl ⟨row, changed, hreminder, hreplay, hstale.2, hchanged, rfl, _, _, rfl, rfl, rfl⟩

lemma findReminder_some {row : ReminderRow} (h : db.findReminder request = some row) :
    db.reminders request.reminderId = some row ∧ row.workspaceId = request.workspaceId ∧
      row.ownerAgentId = request.agentId ∧ row.computerId = request.computerId := by
  obtain ⟨hrow, howned⟩ := Option.filter_eq_some_iff.mp h
  exact ⟨hrow, by simpa using howned⟩

/-- Every version on record is behind its reminder, and was fired under one request. -/
structure Fenced (db : Database) : Prop where
  ids : ∀ id row, db.reminders id = some row → row.id = id
  behind : ∀ id requestId receipt, db.fireReceipts (id, requestId) = some receipt →
    ∃ row, db.reminders id = some row ∧ receipt.version < row.version ∧
      row.workspaceId = receipt.workspaceId ∧ row.ownerAgentId = receipt.agentId ∧
      row.computerId = receipt.computerId
  once : ∀ id first second receipt receipt', db.fireReceipts (id, first) = some receipt →
    db.fireReceipts (id, second) = some receipt' → receipt.version = receipt'.version →
    first = second

lemma Fenced.of_raised (h : Fenced db) (hraised : RowsRaised db db')
    (hreceipts : db'.fireReceipts = db.fireReceipts)
    (hids : ∀ id row, db'.reminders id = some row → row.id = id) : Fenced db' := by
  refine ⟨hids, fun id requestId receipt hreceipt => ?_, hreceipts ▸ h.once⟩
  rw [hreceipts] at hreceipt
  obtain ⟨row, hrow, hlt, hworkspace, hagent, hcomputer⟩ := h.behind id requestId receipt hreceipt
  obtain ⟨row', hrow', -, hworkspace', hagent', hcomputer', hversion⟩ := hraised id row hrow
  refine ⟨row', hrow', ?_, hworkspace'.trans hworkspace, hagent'.trans hagent,
    hcomputer'.trans hcomputer⟩
  rcases hversion with rfl | hlt'
  · exact hlt
  · exact Nat.lt_trans hlt hlt'

lemma Fires.raised {row changed : ReminderRow} (hdb : Fenced db)
    (h : Fires nextOccurrence db request now answer db' row changed) : RowsRaised db db' := by
  obtain ⟨hrow, -⟩ := findReminder_some h.found
  have hid := hdb.ids _ _ hrow
  rw [← hid] at hrow
  exact rowsRaised_update hrow (advance_raises h.advanced).1 h.reminders

lemma Fires.fenced {row changed : ReminderRow} (hdb : Fenced db)
    (h : Fires nextOccurrence db request now answer db' row changed) : Fenced db' := by
  have hraised := h.raised hdb
  obtain ⟨hrow, hworkspace, hagent, hcomputer⟩ := findReminder_some h.found
  obtain ⟨hchanged, hversion⟩ := advance_raises h.advanced
  have hid : row.id = request.reminderId := hdb.ids _ _ hrow
  have hbehind {id requestId : String} {receipt : FireReceipt}
      (hreceipt : db.fireReceipts (id, requestId) = some receipt) (hsame : id = row.id) :
      receipt.version < request.version := by
    obtain ⟨row', hrow', hlt, -⟩ := hdb.behind id requestId receipt hreceipt
    rw [hsame, hid] at hrow'
    cases hrow.symm.trans hrow'
    exact h.version ▸ hlt
  obtain ⟨next, result, -, -, hreceipts⟩ := h.answered
  refine ⟨fun id row' hrow' => ?_, fun id requestId receipt hreceipt => ?_,
    fun id first second receipt receipt' hfirst hsecond heq => ?_⟩
  · rw [h.reminders] at hrow'
    by_cases hsame : id = row.id
    · subst hsame
      rw [update_self] at hrow'
      cases hrow'
      exact hchanged.1
    · rw [update_of_ne hsame] at hrow'
      exact hdb.ids id row' hrow'
  · rw [hreceipts] at hreceipt
    by_cases hsame : (id, requestId) = (request.reminderId, request.requestId)
    · rw [hsame, update_self] at hreceipt
      cases hreceipt
      cases hsame
      refine ⟨changed, ?_, ?_, hchanged.2.1.trans hworkspace, hchanged.2.2.1.trans hagent,
        hchanged.2.2.2.1.trans hcomputer⟩
      · rw [h.reminders, ← hid, update_self]
      · have hsame : row.version = request.version := h.version
        show request.version < changed.version
        omega
    · rw [update_of_ne hsame] at hreceipt
      obtain ⟨row', hrow', hlt, hworkspace', hagent', hcomputer'⟩ :=
        hdb.behind id requestId receipt hreceipt
      obtain ⟨row'', hrow'', -, h₁, h₂, h₃, hle⟩ := hraised id row' hrow'
      refine ⟨row'', hrow'', ?_, h₁.trans hworkspace', h₂.trans hagent', h₃.trans hcomputer'⟩
      rcases hle with rfl | hlt'
      · exact hlt
      · exact Nat.lt_trans hlt hlt'
  · rw [hreceipts] at hfirst hsecond
    by_cases hnew : (id, first) = (request.reminderId, request.requestId)
    · by_cases hnew' : (id, second) = (request.reminderId, request.requestId)
      · exact (Prod.mk.inj hnew).2.trans (Prod.mk.inj hnew').2.symm
      · rw [hnew, update_self] at hfirst
        rw [update_of_ne hnew'] at hsecond
        cases hfirst
        have hlt := hbehind hsecond ((Prod.mk.inj hnew).1.trans hid.symm)
        have heq' : request.version = receipt'.version := heq
        omega
    · by_cases hnew' : (id, second) = (request.reminderId, request.requestId)
      · rw [hnew', update_self] at hsecond
        rw [update_of_ne hnew] at hfirst
        cases hsecond
        have hlt := hbehind hfirst ((Prod.mk.inj hnew').1.trans hid.symm)
        have heq' : receipt.version = request.version := heq
        omega
      · rw [update_of_ne hnew] at hfirst
        rw [update_of_ne hnew'] at hsecond
        exact hdb.once id first second receipt receipt' hfirst hsecond heq

end Database

/-! ### Every transaction -/

namespace Repository

variable {nextOccurrence : NextOccurrence} {db : Repository}

lemma findReminder_some {request : OperationRequest} {row : ReminderRow}
    (h : db.findReminder request = some row) : db.reminders request.reminderId = some row :=
  (Option.filter_eq_some_iff.mp h).1

lemma create_cases {authorized : Bool} {active : Nat} {fingerprint reminderId : String}
    {request : CreateRequest} {answer : Except String ReminderRow} {db' : Repository}
    (h : db.create authorized active fingerprint reminderId request = (answer, db')) :
    (∃ row, row.id = reminderId ∧ db.reminders reminderId = none ∧
        db' = db.record request.agentId request.idempotencyKey
          ⟨request.workspaceId, fingerprint, row, reminderId⟩) ∨ db' = db := by
  unfold create at h
  split at h
  · cases h
    exact .inr rfl
  split at h
  · split at h <;> cases h <;> exact .inr rfl
  split at h
  · cases h
    exact .inr rfl
  split at h
  · cases h
    exact .inr rfl
  next htaken =>
    cases h
    exact .inl ⟨_, rfl, by simpa using htaken, rfl⟩

lemma update_cases {authorized : Bool} {active : Nat} {fingerprint : String}
    {request : OperationRequest} {now : Int} {answer : Except String ReminderRow} {db' : Repository}
    (h : db.update nextOccurrence authorized active fingerprint request now = (answer, db')) :
    (∃ existing row, db.reminders request.reminderId = some existing ∧
        request.apply nextOccurrence existing now = .ok row ∧ answer = .ok row ∧
        db' = db.record request.agentId request.idempotencyKey
          ⟨request.workspaceId, fingerprint, row, request.reminderId⟩) ∨
      (db' = db ∧ ∀ row, answer = .ok row →
        db.operationReceipts (request.agentId, request.idempotencyKey) ≠ none) := by
  unfold update at h
  split at h
  · cases h
    exact .inr ⟨rfl, fun row heq => by cases heq⟩
  split at h
  next replay hreplay =>
    refine .inr ⟨?_, fun _ _ => by simp [hreplay]⟩
    split_ifs at h <;> cases h <;> rfl
  split at h
  · cases h
    exact .inr ⟨rfl, fun row heq => by cases heq⟩
  next existing hexisting =>
    split at h
    · cases h
      exact .inr ⟨rfl, fun row heq => by cases heq⟩
    split at h
    · cases h
      exact .inr ⟨rfl, fun row heq => by cases heq⟩
    next row happly =>
      cases h
      exact .inl ⟨existing, row, findReminder_some hexisting, happly, rfl, rfl⟩

lemma raises_of_apply {request : OperationRequest} {existing row : ReminderRow} {now : Int}
    (h : request.apply nextOccurrence existing now = .ok row) : Raises existing row := by
  rcases OperationRequest.apply_ok h with ⟨-, -, rfl⟩ | ⟨patch, rfl⟩
  · exact .refl _
  · exact request.write_raises existing patch

/-- No transaction loses a row or lowers its version, and the firings stay behind the rows. -/
lemma serve_fenced (transaction : Transaction) (h : db.Fenced) :
    RowsRaised db.toDatabase (db.serve nextOccurrence transaction).2.toDatabase ∧
      (db.serve nextOccurrence transaction).2.Fenced := by
  cases transaction with
  | create authorized active fingerprint reminderId request =>
    rcases hcreate : db.create authorized active fingerprint reminderId request with ⟨answer, db'⟩
    simp only [serve, hcreate]
    rcases create_cases hcreate with ⟨row, hid, hfree, rfl⟩ | rfl
    · have hnew {id : String} {row : ReminderRow} (hrow : db.reminders id = some row) :
          id ≠ reminderId := by
        rintro rfl
        rw [hfree] at hrow
        cases hrow
      have hraised : RowsRaised db.toDatabase (db.record request.agentId request.idempotencyKey
          ⟨request.workspaceId, fingerprint, row, reminderId⟩).toDatabase := fun id row hrow =>
        ⟨row, (update_of_ne (hnew hrow) _ _).trans hrow, .refl row⟩
      refine ⟨hraised, h.of_raised hraised rfl fun id row' hrow' => ?_⟩
      by_cases hsame : id = reminderId
      · subst hsame
        have hrow := (update_self _ _ _).symm.trans hrow'
        cases hrow
        exact hid
      · exact h.ids id row' ((update_of_ne hsame _ _).symm.trans hrow')
    · exact ⟨rowsRaised_refl _, h⟩
  | update authorized active fingerprint request now =>
    rcases hupdate : db.update nextOccurrence authorized active fingerprint request now with
      ⟨answer, db'⟩
    simp only [serve, hupdate]
    rcases update_cases hupdate with ⟨existing, row, hrow, happly, -, rfl⟩ | ⟨rfl, -⟩
    · have hraises := raises_of_apply happly
      have hraised : RowsRaised db.toDatabase (db.record request.agentId request.idempotencyKey
          ⟨request.workspaceId, fingerprint, row, request.reminderId⟩).toDatabase :=
        rowsRaised_update hrow hraises rfl
      refine ⟨hraised, h.of_raised hraised rfl fun id row' hrow' => ?_⟩
      by_cases hsame : id = request.reminderId
      · subst hsame
        have hnew := (update_self _ _ _).symm.trans hrow'
        cases hnew
        exact hraises.1.trans (h.ids _ _ hrow)
      · exact h.ids id row' ((update_of_ne hsame _ _).symm.trans hrow')
    · exact ⟨rowsRaised_refl _, h⟩
  | fire authorized request now =>
    rcases hfire : db.toDatabase.fire nextOccurrence authorized request now with ⟨answer, db'⟩
    simp only [serve, fire, hfire]
    rcases Database.fire_cases hfire with ⟨row, changed, hfires⟩ | ⟨rfl, -⟩
    · exact ⟨hfires.raised h, hfires.fenced h⟩
    · exact ⟨rowsRaised_refl _, h⟩

lemma serve_fireReceipts {transaction : Transaction} {key : String × String}
    {receipt : FireReceipt} (h : db.fireReceipts key = some receipt) :
    (db.serve nextOccurrence transaction).2.fireReceipts key = some receipt := by
  cases transaction with
  | create authorized active fingerprint reminderId request =>
    rcases hcreate : db.create authorized active fingerprint reminderId request with ⟨answer, db'⟩
    simp only [serve, hcreate]
    rcases create_cases hcreate with ⟨row, -, -, rfl⟩ | rfl
    · exact h
    · exact h
  | update authorized active fingerprint request now =>
    rcases hupdate : db.update nextOccurrence authorized active fingerprint request now with
      ⟨answer, db'⟩
    simp only [serve, hupdate]
    rcases update_cases hupdate with ⟨existing, row, -, -, -, rfl⟩ | ⟨rfl, -⟩
    · exact h
    · exact h
  | fire authorized request now => exact Database.fireReceipts_fire h

lemma fire_of_recorded {request : ReminderFireRequest} {now : Int}
    {result : ReminderFireResponse} (h : db.Fenced) (hrecorded : db.Replays request result) :
    ∃ next, db.fire nextOccurrence true request now = (.ok ⟨result, next⟩, db) := by
  obtain ⟨row, hrow, -, hworkspace, hagent, hcomputer⟩ := h.behind _ _ _ hrecorded
  have hfound : db.toDatabase.findReminder request = some row := by
    rw [Database.findReminder, hrow]
    simpa using ⟨hworkspace, hagent, hcomputer⟩
  have hreplayed : ∃ next, db.toDatabase.fire nextOccurrence true request now =
      (.ok ⟨result, next⟩, db.toDatabase) := Database.fire_of_replays hrecorded hfound
  obtain ⟨next, hfire⟩ := hreplayed
  refine ⟨next, ?_⟩
  rw [fire, hfire]

end Repository

/-! ### Every order of the transactions -/

/-- The firings stay behind the rows, and every accepted one is on record. -/
structure Told (s : Served) : Prop where
  fenced : s.repository.Fenced
  recorded : ∀ authorized request now answer,
    (.fire authorized request now, .fired (.ok answer)) ∈ s.answers →
      answer.result.result = .accepted → s.repository.Replays request answer.result

lemma told_init : Told ⟨.empty, []⟩ := by
  refine ⟨⟨?_, ?_, ?_⟩, ?_⟩
  · intro id row hrow
    cases hrow
  · intro id requestId receipt hreceipt
    cases hreceipt
  · intro id first second receipt receipt' hreceipt
    cases hreceipt
  · intro authorized request now answer hmem
    cases hmem

lemma Told.step {nextOccurrence : NextOccurrence} {s : Served} (transaction : Transaction)
    (h : Told s) : Told (s.step nextOccurrence transaction) := by
  refine ⟨(Repository.serve_fenced transaction h.fenced).2, ?_⟩
  intro authorized request now answer hmem haccepted
  rcases List.mem_cons.mp hmem with heq | hmem
  · obtain ⟨rfl, hanswer⟩ := Prod.mk.inj heq
    have hfire : s.repository.toDatabase.fire nextOccurrence authorized request now =
        (.ok answer, (s.step nextOccurrence (.fire authorized request now)).repository.toDatabase) :=
      Prod.ext (Answer.fired.inj hanswer).symm rfl
    exact Database.replays_of_accepted hfire haccepted
  · exact Repository.serve_fireReceipts (h.recorded authorized request now answer hmem haccepted)

lemma told_served (nextOccurrence : NextOccurrence) (transactions : List Transaction) :
    Told (served nextOccurrence transactions) := by
  have hrun : ∀ s, Told s → Told (transactions.foldl (Served.step nextOccurrence) s) := by
    induction transactions with
    | nil => exact fun s hs => hs
    | cons transaction transactions ih => exact fun s hs => ih _ (hs.step transaction)
  exact hrun _ told_init

/-- The same request. -/
def ReminderFireRequest.Repeats (request' request : ReminderFireRequest) : Prop :=
  request'.reminderId = request.reminderId ∧ request'.requestId = request.requestId ∧
    request'.workspaceId = request.workspaceId ∧ request'.computerId = request.computerId ∧
    request'.agentId = request.agentId ∧ request'.version = request.version

/-- A version is fired under one request and answered alike whenever that request comes again; a
firing or a change that is accepted raises the version, and nothing lowers it; and a request for
another version than the row's changes nothing. -/
theorem fired_once (nextOccurrence : NextOccurrence) (transactions : List Transaction) :
    let s := served nextOccurrence transactions
    (∀ authorized authorized' request request' now now' answer answer',
      (.fire authorized request now, .fired (.ok answer)) ∈ s.answers →
      (.fire authorized' request' now', .fired (.ok answer')) ∈ s.answers →
      answer.result.result = .accepted → answer'.result.result = .accepted →
      request'.reminderId = request.reminderId → request'.version = request.version →
        request'.requestId = request.requestId ∧ answer'.result = answer.result) ∧
    (∀ authorized request request' now now' answer,
      (.fire authorized request now, .fired (.ok answer)) ∈ s.answers →
      answer.result.result = .accepted → request'.Repeats request →
        ∃ next, s.repository.fire nextOccurrence true request' now' =
          (.ok ⟨answer.result, next⟩, s.repository)) ∧
    (∀ transaction, RowsRaised s.repository.toDatabase
      (s.step nextOccurrence transaction).repository.toDatabase) ∧
    (∀ authorized request now answer db',
      s.repository.fire nextOccurrence authorized request now = (.ok answer, db') →
      answer.result.result = .accepted →
      s.repository.fireReceipts (request.reminderId, request.requestId) = none →
        ∃ row row', s.repository.reminders request.reminderId = some row ∧
          db'.reminders request.reminderId = some row' ∧ row.version = request.version ∧
          row.version < row'.version) ∧
    (∀ authorized active fingerprint request now row' db',
      s.repository.update nextOccurrence authorized active fingerprint request now =
        (.ok row', db') →
      s.repository.operationReceipts (request.agentId, request.idempotencyKey) = none →
        ∃ row, s.repository.reminders request.reminderId = some row ∧
          db'.reminders request.reminderId = some row' ∧
          (row.version < row'.version ∨
            request.operation = .cancel ∧ row.status = .canceled ∧ row' = row)) ∧
    ∀ authorized request now,
      (∀ row, s.repository.reminders request.reminderId = some row →
        row.version ≠ request.version) →
      (s.repository.fire nextOccurrence authorized request now).2 = s.repository := by
  intro s
  have htold : Told s := told_served nextOccurrence transactions
  refine ⟨?_, ?_, fun transaction => (Repository.serve_fenced transaction htold.fenced).1,
    ?_, ?_, ?_⟩
  · intro authorized authorized' request request' now now' answer answer' hmem hmem' haccepted
      haccepted' hid hversion
    have hrecorded := htold.recorded _ _ _ _ hmem haccepted
    have hrecorded' := htold.recorded _ _ _ _ hmem' haccepted'
    rw [Database.Replays, hid] at hrecorded'
    have hsame := htold.fenced.once _ _ _ _ _ hrecorded' hrecorded hversion
    rw [hsame] at hrecorded'
    have hreceipt := Option.some.inj (hrecorded'.symm.trans hrecorded)
    exact ⟨hsame, congrArg FireReceipt.response hreceipt⟩
  · intro authorized request request' now now' answer hmem haccepted hrepeats
    obtain ⟨hid, hrequest, hworkspace, hcomputer, hagent, hversion⟩ := hrepeats
    have hrecorded := htold.recorded _ _ _ _ hmem haccepted
    refine Repository.fire_of_recorded htold.fenced ?_
    rw [Database.Replays, hid, hrequest, hworkspace, hcomputer, hagent, hversion]
    exact hrecorded
  · intro authorized request now answer db' hfire haccepted hfresh
    have hdatabase : s.repository.toDatabase.fire nextOccurrence authorized request now =
        (.ok answer, db'.toDatabase) := by
      rw [Repository.fire] at hfire
      obtain ⟨hanswer, rfl⟩ := Prod.mk.inj hfire
      exact Prod.ext hanswer rfl
    rcases Database.fire_cases hdatabase with ⟨row, changed, hfires⟩ | ⟨-, hreplay⟩
    · obtain ⟨hrow, -⟩ := Database.findReminder_some hfires.found
      have hid := htold.fenced.ids _ _ hrow
      obtain ⟨-, hversion⟩ := Database.advance_raises hfires.advanced
      refine ⟨row, changed, hrow, ?_, hfires.version, by omega⟩
      rw [hfires.reminders, hid, update_self]
    · exact absurd hfresh (hreplay answer rfl haccepted)
  · intro authorized active fingerprint request now row' db' hupdate hfresh
    rcases Repository.update_cases hupdate with
      ⟨existing, row, hrow, happly, hok, rfl⟩ | ⟨-, hreplay⟩
    · cases hok
      refine ⟨existing, hrow, update_self _ _ _, ?_⟩
      rcases OperationRequest.apply_ok happly with hcancel | ⟨patch, rfl⟩
      · exact .inr hcancel
      · exact .inl (Nat.lt_succ_self _)
    · exact absurd hfresh (hreplay row' rfl)
  · intro authorized request now hversion
    rcases hfire : s.repository.toDatabase.fire nextOccurrence authorized request now with
      ⟨answer, db'⟩
    rw [Repository.fire, hfire]
    rcases Database.fire_cases hfire with ⟨row, changed, hfires⟩ | ⟨rfl, -⟩
    · obtain ⟨hrow, -⟩ := Database.findReminder_some hfires.found
      exact absurd hfires.version (hversion row hrow)
    · rfl

namespace Hourly

/-- A reminder that comes again an hour after it was due. -/
def everyHour : NextOccurrence := fun _ _ due _ => some (due + 3600000)

def request (requestId : String) : ReminderFireRequest :=
  ⟨1, requestId, "workspace", "computer", "agent", "reminder", 1, 1000⟩

/-- The reminder is created, fired under one request, asked for under another, and the first
request is repeated. -/
def transactions : List Transaction :=
  [.create true 0 "created" "reminder"
      ⟨"create", "workspace", "computer", "agent", "stand-up", 1000, some "every:1h", none⟩,
    .fire true (request "first") 1000, .fire true (request "second") 1001,
    .fire true (request "first") 2000]

end Hourly

open Hourly in
theorem fired_once_hourly :
    ∃ next, (served everyHour transactions).repository.fire everyHour true (request "first") 3000 =
      (.ok ⟨Database.response (request "first") .accepted true false none, next⟩,
        (served everyHour transactions).repository) := by
  obtain ⟨-, hreplay, -⟩ := fired_once everyHour transactions
  exact hreplay true (request "first") (request "first") 1000 3000
    ⟨Database.response (request "first") .accepted true false none, _⟩ (.tail _ (.tail _ (.head _)))
    rfl ⟨rfl, rfl, rfl, rfl, rfl, rfl⟩

end Coforge.Reminder
