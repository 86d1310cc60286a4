import Coforge.Sends.Server

/-!
# What the server keeps

The records of all keys keep the invariant of `execute`, the messages committed under a key are
those its record persisted and the orphans, a handler about to report a message knows that it is
committed, and every answer that tells of a committed message is true. Every step of a handler
keeps this, and takes back nothing that was committed or answered.
-/

namespace Coforge.Sends

open List
open Idempotency (StoredValue PersistedDirectMessage MessageRequestRecord Phase Unfailed)

/-! ### The records and the committed messages -/

/-- The handler works under the key of its request, if the request has one. -/
def Handler.Keyed (h : Handler) : Prop :=
  h.request.idempotencyKey ≠ "" → h.key = h.request.idempotencyKey

namespace Server

variable {s t : Server} {key : String} {i : Nat} {h : Handler}

/-- A message with this id is committed under the key. -/
def Has (s : Server) (key id : String) : Prop := ∃ row ∈ s.committed key, row.id = id

/-- A message with this id is committed under the key the server took the request for. -/
def Committed (s : Server) (request : Request) (id : String) : Prop :=
  ∃ key, (request.idempotencyKey ≠ "" → key = request.idempotencyKey) ∧ s.Has key id

/-- Nothing the server committed or answered goes away. -/
structure Grows (s t : Server) : Prop where
  committed : ∀ key, s.committed key ⊆ t.committed key
  answers : s.answers ⊆ t.answers

lemma Grows.refl (s : Server) : Grows s s := ⟨fun _ _ => id, fun _ => id⟩

lemma Grows.trans {u : Server} (h : Grows s t) (h' : Grows t u) : Grows s u :=
  ⟨fun key _ hm => h'.committed key (h.committed key hm), fun _ ha => h'.answers (h.answers ha)⟩

variable {id : String}

lemma Has.grows (hs : s.Has key id) (h : Grows s t) : t.Has key id :=
  hs.imp fun _ hrow => ⟨h.committed key hrow.1, hrow.2⟩

lemma Committed.grows {request : Request} (hs : s.Committed request id)
    (h : Grows s t) : t.Committed request id :=
  hs.imp fun _ hkey => ⟨hkey.1, hkey.2.grows h⟩

/-- An answer that tells of a committed message tells the truth. -/
def Backed (s : Server) (request : Request) : Answer → Prop
  | .decided response =>
    response.state ≠ .committed ∧
      (response.state = .sent → ∃ id, response.messageId = some id ∧ s.Committed request id)
  | .reconciled (.committed response) => s.Committed request response.messageId
  | _ => True

lemma Backed.grows {request : Request} {a : Answer} (hs : s.Backed request a) (h : Grows s t) :
    t.Backed request a := by
  cases a with
  | decided response =>
    exact ⟨hs.1, fun hsent => (hs.2 hsent).imp fun id hid => ⟨hid.1, hid.2.grows h⟩⟩
  | reconciled response =>
    cases response with
    | committed response => exact Committed.grows hs h
    | notFound => trivial
  | refused refusal => trivial
  | failed status => trivial

lemma backed_thrown (s : Server) (request : Request) (error : Thrown) :
    s.Backed request error.answer := by
  cases error <;> trivial

/-- What a handler knows of the message it is about to report. -/
def Knows (s : Server) (key : String) : Handling → Prop
  | .reporting messageId  => s.Has key messageId
  | .publishing _ message => s.Has key message.id
  | _ => True

variable {phase : Handling}

lemma Knows.grows (hs : s.Knows key phase) (h : Grows s t) : t.Knows key phase := by
  cases phase with
  | reporting messageId => exact Has.grows hs h
  | publishing report message => exact Has.grows hs h
  | _ => trivial

/-- A handler works under its request's key, and knows what its phase says. -/
structure Fits (s : Server) (h : Handler) : Prop where
  keyed : h.Keyed
  knows : s.Knows h.key h.phase

lemma committed_of_keyed (hkeyed : h.Keyed) (hhas : s.Has h.key id) : s.Committed h.request id :=
  ⟨h.key, hkeyed, hhas⟩

/-- What holds of the server at every point of a run. -/
structure Sound (s : Server) : Prop where
  records : ∀ key, Idempotency.Inv (s.records key)
  unfailed : ∀ key, Unfailed (s.records key)
  split : ∀ key,
    (s.committed key).length = (s.records key).persisted.length + (s.orphaned key).length
  has : ∀ key, ∀ m ∈ (s.records key).persisted, s.Has key m.id
  handlers : ∀ h ∈ s.handlers, s.Fits h
  answers : ∀ a ∈ s.answers, s.Backed a.1 a.2

lemma sound_init : init.Sound where
  records _ := Idempotency.inv_init
  unfailed _ _ _ := nofun
  split _ := rfl
  has _ _ := nofun
  handlers _ := nofun
  answers _ := nofun

/-! ### Handlers and answers -/

lemma grows_setPhase (s : Server) (i : Nat) (h : Handler) (phase : Handling) :
    Grows s (s.setPhase i h phase) :=
  ⟨fun _ _ => id, fun _ => id⟩

lemma grows_respond (s : Server) (i : Nat) (h : Handler) (a : Answer) : Grows s (s.respond i h a) :=
  ⟨fun _ _ => id, fun _ ha => mem_append_left _ ha⟩

lemma Sound.setPhase (hs : s.Sound) (hkeyed : h.Keyed)
    (hknows : s.Knows h.key phase) : (s.setPhase i h phase).Sound where
  records := hs.records
  unfailed := hs.unfailed
  split := hs.split
  has := hs.has
  handlers h' hmem := by
    rcases mem_or_eq_of_mem_set hmem with hmem | rfl
    · exact ⟨(hs.handlers h' hmem).keyed, (hs.handlers h' hmem).knows.grows (grows_setPhase ..)⟩
    · exact ⟨hkeyed, hknows.grows (grows_setPhase ..)⟩
  answers a ha := (hs.answers a ha).grows (grows_setPhase ..)

lemma Sound.respond (hs : s.Sound) (hkeyed : h.Keyed) {a : Answer} (ha : s.Backed h.request a) :
    (s.respond i h a).Sound := by
  have hphase : (s.setPhase i h .answered).Sound := hs.setPhase hkeyed trivial
  refine ⟨hphase.records, hphase.unfailed, hphase.split, hphase.has, fun h' hmem => ?_,
    fun b hb => ?_⟩
  · exact ⟨(hphase.handlers h' hmem).keyed,
      (hphase.handlers h' hmem).knows.grows ⟨fun _ _ => id, fun _ hb => mem_append_left _ hb⟩⟩
  · rcases mem_append.mp hb with hb | hb
    · exact (hs.answers b hb).grows (grows_respond ..)
    · obtain rfl := mem_singleton.mp hb
      exact ha.grows (grows_respond ..)

lemma Sound.arrive (hs : s.Sound) (request : Request) (random : String) :
    (s.arrive request random).Sound where
  records := hs.records
  unfailed := hs.unfailed
  split := hs.split
  has := hs.has
  handlers h' hmem := by
    rcases mem_append.mp hmem with hmem | hmem
    · exact ⟨(hs.handlers h' hmem).keyed, (hs.handlers h' hmem).knows⟩
    · obtain rfl := mem_singleton.mp hmem
      exact ⟨fun hkey => if_neg hkey, trivial⟩
  answers := hs.answers

variable {message : PersistedDirectMessage}

lemma Sound.has_record (hs : s.Sound)
    (h : s.record key = some (.completed message)) : s.Has key message.id := by
  rcases hst : (s.records key).stored with _ | v
  · simp [record, hst] at h
  · cases v with
    | processing owner => simp [record, hst, StoredValue.record] at h
    | completed r =>
      obtain ⟨m, hm, hr⟩ := (hs.records key).completed r hst
      have hrecord : m = message := by simpa [record, hst, hr] using h
      exact hs.has key message (by rw [hm, hrecord]; exact mem_singleton_self _)

lemma Sound.find (hs : s.Sound) (hkeyed : h.Keyed) : (s.find i h).Sound := by
  simp only [Server.find]
  split
  · next hrequest hrecord => exact hs.setPhase hkeyed (hs.has_record hrecord)
  · exact hs.respond hkeyed trivial
  · exact hs.setPhase hkeyed trivial
  · next hrequest =>
    split
    · exact hs.respond hkeyed trivial
    · split
      · next hrecord => exact hs.respond hkeyed (committed_of_keyed hkeyed (hs.has_record hrecord))
      · exact hs.respond hkeyed trivial
      · exact hs.respond hkeyed trivial

/-! ### The commands of `execute` -/

variable {l : Idempotency.Label}

lemma grows_redis (h : s.redis key l = some t) : Grows s t := by
  obtain ⟨record, -, rfl⟩ := Option.map_eq_some_iff.mp h
  exact ⟨fun _ _ => id, fun _ => id⟩

/-- The server is sound but for messages under a key that are committed and not persisted yet. -/
structure Pending (s : Server) (key : String) (rows : List PersistedDirectMessage) : Prop where
  records : ∀ k, Idempotency.Inv (s.records k)
  unfailed : ∀ k, Unfailed (s.records k)
  split : ∀ k, (s.committed k).length =
    (s.records k).persisted.length + (if k = key then rows.length else 0) +
      (s.orphaned k).length
  has : ∀ k, ∀ m ∈ (s.records k).persisted, s.Has k m.id
  rows : ∀ m ∈ rows, s.Has key m.id
  handlers : ∀ h ∈ s.handlers, s.Fits h
  answers : ∀ a ∈ s.answers, s.Backed a.1 a.2

lemma Sound.pending (hs : s.Sound) (key : String) : s.Pending key [] where
  records := hs.records
  unfailed := hs.unfailed
  split k := by simpa using hs.split k
  has := hs.has
  rows _ := nofun
  handlers := hs.handlers
  answers := hs.answers

lemma Pending.redis (hs : s.Pending key l.persists)
    (hl : Idempotency.Succeeds l) (h : s.redis key l = some t) : t.Sound := by
  obtain ⟨record, hstep, rfl⟩ := Option.map_eq_some_iff.mp h
  obtain ⟨hnext, hpersisted⟩ := Idempotency.succeeds_step hl (hs.unfailed key) hstep
  have hinv := Idempotency.inv_step (hs.records key) ((hs.unfailed key).claimKept l) hstep
  have hgrows : Grows s { s with records := Function.update s.records key record } :=
    ⟨fun _ _ => id, fun _ => id⟩
  refine ⟨fun k => ?_, fun k => ?_, fun k => ?_, fun k m hm => ?_, fun h' hmem => ?_,
    fun a ha => (hs.answers a ha).grows hgrows⟩
  · by_cases hk : k = key
    · subst hk
      simpa using hinv
    · simpa [hk] using hs.records k
  · by_cases hk : k = key
    · subst hk
      simpa using hnext
    · simpa [hk] using hs.unfailed k
  · by_cases hk : k = key
    · subst hk
      simpa [hpersisted] using hs.split k
    · simpa [hk] using hs.split k
  · refine Has.grows ?_ hgrows
    by_cases hk : k = key
    · subst hk
      simp only [Function.update_self, hpersisted, mem_append] at hm
      exact hm.elim (hs.has k m) (hs.rows m)
    · exact hs.has k m (by simpa [hk] using hm)
  · exact ⟨(hs.handlers h' hmem).keyed, (hs.handlers h' hmem).knows.grows hgrows⟩

lemma Sound.redis (hs : s.Sound) (h : s.redis key l = some t)
    (hl : Idempotency.Succeeds l) (hnone : l.persists = []) : t.Sound :=
  Pending.redis (hnone ▸ hs.pending key) hl h

lemma grows_commit (s : Server) (key : String) (rows : List PersistedDirectMessage) :
    Grows s (s.commit key rows) := by
  refine ⟨fun k row hrow => ?_, fun _ => id⟩
  by_cases hk : k = key
  · subst hk
    simpa [commit] using .inl hrow
  · simpa [commit, hk] using hrow

lemma Sound.commit (hs : s.Sound) (key : String) {rows messages : List PersistedDirectMessage}
    (hids : messages.map (·.id) = rows.map (·.id)) : (s.commit key rows).Pending key messages := by
  have hgrows := grows_commit s key rows
  have hlength : messages.length = rows.length := by
    simpa using congrArg length hids
  refine ⟨hs.records, hs.unfailed, fun k => ?_, fun k m hm => (hs.has k m hm).grows hgrows,
    fun m hm => ?_, fun h' hmem => ?_, fun a ha => (hs.answers a ha).grows hgrows⟩
  · have hsplit := hs.split k
    by_cases hk : k = key
    · subst hk
      simp only [Server.commit, Function.update_self, length_append, if_true]
      omega
    · simpa [Server.commit, hk] using hsplit
  · have hid : m.id ∈ rows.map (·.id) := hids ▸ mem_map_of_mem hm
    obtain ⟨row, hrow, heq⟩ := mem_map.mp hid
    exact ⟨row, by simpa [Server.commit] using .inr hrow, heq⟩
  · exact ⟨(hs.handlers h' hmem).keyed, (hs.handlers h' hmem).knows.grows hgrows⟩

lemma Pending.orphan {rows : List PersistedDirectMessage} (hs : s.Pending key rows) :
    (s.orphan key rows).Pending key [] where
  records := hs.records
  unfailed := hs.unfailed
  split k := by
    have hsplit := hs.split k
    by_cases hk : k = key
    · subst hk
      simp only [Server.orphan, Function.update_self, length_append, length_nil,
        if_true] at hsplit ⊢
      omega
    · simpa [Server.orphan, hk] using hsplit
  has := hs.has
  rows _ := nofun
  handlers h' hmem := ⟨(hs.handlers h' hmem).keyed, (hs.handlers h' hmem).knows⟩
  answers := hs.answers

variable {sender : Sender} {transaction : Transaction}

/-- What `sendAgentMessage` returns is the row it committed. -/
lemma row_of_sendAgentMessage (h : sendAgentMessage sender transaction = .ok message) :
    sender.resolves = true ∧ ∃ row, transaction = .committed row ∧ message.id = row.id := by
  cases transaction with
  | committed row =>
    simp only [sendAgentMessage] at h
    split at h
    · next hresolves =>
      cases h
      exact ⟨hresolves, row, rfl, rfl⟩
    · cases h
  | unacknowledged row => cases h
  | rolledBack error => cases h

variable {owner : String} {report : SendReport}

lemma Sound.persist (hs : s.Sound) (hkeyed : h.Keyed)
    (hstep : s.persist sender i h owner report transaction = some t) : t.Sound := by
  simp only [Server.persist] at hstep
  split at hstep
  · next message hsent =>
    obtain ⟨-, row, rfl, hid⟩ := row_of_sendAgentMessage hsent
    have hids : [message].map (·.id) = (Transaction.committed row).row?.toList.map (·.id) := by
      simpa [Transaction.row?] using hid
    have hpending := hs.commit h.key hids
    exact hpending.redis (l := .persist owner (some message)) trivial hstep
  · next error hthrown =>
    obtain ⟨u, hu, rfl⟩ := Option.map_eq_some_iff.mp hstep
    have hids : transaction.row?.toList.map (·.id) = transaction.row?.toList.map (·.id) := rfl
    have hpending := (hs.commit h.key hids).orphan
    have hsound : u.Sound := Pending.redis (l := .persist owner none) hpending trivial hu
    exact hsound.setPhase hkeyed trivial

/-! ### The steps of a handler -/

lemma grows_find (s : Server) (i : Nat) (h : Handler) : Grows s (s.find i h) := by
  simp only [Server.find]
  split
  · exact grows_setPhase ..
  · exact grows_respond ..
  · exact grows_setPhase ..
  · split
    · exact grows_respond ..
    · split
      · exact grows_respond ..
      · exact grows_respond ..
      · exact grows_respond ..

lemma grows_persist (hstep : s.persist sender i h owner report transaction = some t) :
    Grows s t := by
  have hcommit := grows_commit s h.key transaction.row?.toList
  simp only [Server.persist] at hstep
  split at hstep
  · exact hcommit.trans (grows_redis hstep)
  · obtain ⟨u, hu, rfl⟩ := Option.map_eq_some_iff.mp hstep
    have horphan : Grows (s.commit h.key transaction.row?.toList)
        ((s.commit h.key transaction.row?.toList).orphan h.key transaction.row?.toList) :=
      ⟨fun _ _ => id, fun _ => id⟩
    exact (hcommit.trans horphan).trans ((grows_redis hu).trans (grows_setPhase ..))

/-- A call of `execute` returns the message its key persisted. -/
lemma Sound.has_returned (hs : s.Sound)
    (h : (s.records key).calls owner = some (.returned message)) : s.Has key message.id := by
  have hpersisted : (s.records key).persisted = [message] := (hs.records key).phase owner _ h
  exact hs.has key message (hpersisted ▸ mem_singleton_self _)

lemma settle_spec {error : Option Thrown} (hs : s.Sound)
    (hkeyed : h.Keyed) (hstep : s.settle i h owner report error = some t) :
    t.Sound ∧ Grows s t := by
  simp only [settle] at hstep
  split at hstep
  · next message hreturned =>
    cases hstep
    exact ⟨hs.setPhase hkeyed (hs.has_returned hreturned), grows_setPhase ..⟩
  · cases hstep
    exact ⟨hs.respond hkeyed (backed_thrown ..), grows_respond ..⟩
  · cases hstep

/-- The first answer of a send that goes through, or was through before, names a message of its
key. -/
lemma backed_sent (hkeyed : h.Keyed) {response : AgentSendDecisionResponse}
    (hstate : response.state = .sent) (hid : response.messageId = some id)
    (hhas : s.Has h.key id) : s.Backed h.request (.decided response) :=
  ⟨by simp [hstate], fun _ => ⟨id, hid, committed_of_keyed hkeyed hhas⟩⟩

lemma serve_spec {l : Serve} (hs : s.Sound) (hkeyed : h.Keyed) (hknows : s.Knows h.key phase)
    (hstep : s.serve sender i h phase l = some t) : t.Sound ∧ Grows s t := by
  simp only [serve] at hstep
  have hthrown (error : Thrown) :
      (s.respond i h error.answer).Sound ∧ Grows s (s.respond i h error.answer) :=
    ⟨hs.respond hkeyed (backed_thrown ..), grows_respond ..⟩
  have hcommand {l : Idempotency.Label} (h : s.redis h.key l = some t)
      (hl : Idempotency.Succeeds l) (hnone : l.persists = []) : t.Sound ∧ Grows s t :=
    ⟨hs.redis h hl hnone, grows_redis h⟩
  split at hstep
  case h_1 =>
    cases hstep
    exact ⟨hs.find hkeyed, grows_find ..⟩
  case h_2 error =>
    cases hstep
    exact hthrown error
  case h_3 messageId actions handles =>
    cases hstep
    exact ⟨hs.respond hkeyed (backed_sent hkeyed rfl rfl hknows), grows_respond ..⟩
  case h_4 error =>
    cases hstep
    exact hthrown error
  case h_5 decision heldMessages report =>
    cases hstep
    exact ⟨hs.respond hkeyed ⟨nofun, nofun⟩, grows_respond ..⟩
  case h_6 error =>
    cases hstep
    exact hthrown error
  case h_7 owner report =>
    obtain ⟨u, hu, rfl⟩ := Option.map_eq_some_iff.mp hstep
    have hsound : u.Sound := hs.redis hu trivial rfl
    exact ⟨hsound.setPhase hkeyed trivial, (grows_redis hu).trans (grows_setPhase ..)⟩
  case h_8 => exact hcommand hstep rfl rfl
  case h_9 => exact hcommand hstep rfl rfl
  case h_10 => exact ⟨hs.persist hkeyed hstep, grows_persist hstep⟩
  case h_11 => exact hcommand hstep rfl rfl
  case h_12 => exact hcommand hstep rfl rfl
  case h_13 => exact hcommand hstep rfl rfl
  case h_14 => exact settle_spec hs hkeyed hstep
  case h_15 report message =>
    cases hstep
    exact ⟨hs.respond hkeyed (backed_sent hkeyed rfl rfl hknows), grows_respond ..⟩
  case h_16 error =>
    cases hstep
    exact hthrown error
  case h_17 => cases hstep

/-- A step of the server keeps it sound and takes nothing away. -/
theorem step_spec {l : Serve} (hs : s.Sound)
    (hstep : s.step sender i l = some t) : t.Sound ∧ Grows s t := by
  obtain ⟨h, hh, hserve⟩ := Option.bind_eq_some_iff.mp hstep
  have hfits := hs.handlers h (mem_of_getElem? hh)
  exact serve_spec hs hfits.keyed hfits.knows hserve

end Server

end Coforge.Sends
