import Coforge.Attention.Steps

/-!
# Coherence of the attention index

The index is coherent when each attention record stands for a non-empty set of pending sequences
and starts at the least of them, nothing pending was seen, and the window shows pending messages
only. It does not stay so on every run. A recovery writes back the attention it copied before its
await, so what other operations did to the attention meanwhile is undone, and a record can come
back for messages that were read. A recovery also brings messages the Agent has seen, and a
delivery below the first pending sequence leaves the record where it was.

On the runs without such a step the index is coherent at every await, and no recovery loses an
update.
-/

namespace Coforge.Attention

open Transition

namespace Index

/-- The five fields of a target agree. -/
structure Coherent (s : Index) : Prop where
  record : ∀ t, (s.attention t).isSome ↔ (s.unreviewed t).pending.Nonempty
  unseen : ∀ t, ∀ n ∈ (s.unreviewed t).pending, s.hasSeen t n = false
  window : ∀ t, ∀ e ∈ (s.unreviewed t).pendingWindow,
    e.delivery.sequence ∈ (s.unreviewed t).pending
  first : ∀ t a, s.attention t = some a →
    IsLeast ((s.unreviewed t).pending : Set Nat) a.firstPendingSequence
  last : ∀ t, (s.unreviewed t).pending.Nonempty →
    IsGreatest ((s.unreviewed t).pending : Set Nat) (s.pendingMaxSequence t)

lemma Kept.coherent {s : Index} {b : Target → Nat → Prop} (h : s.Kept True b) : s.Coherent where
  record := fun t => (h t).record
  unseen := by
    intro t n hn
    have hunseen := (h t).unseen n hn
    rw [← hasSeen_iff] at hunseen
    simpa using hunseen
  window := fun t => (h t).window
  first := fun t a ha => ((h t).covers a ha).first trivial
  last := by
    intro t hne
    obtain ⟨n, hn, hsup⟩ := Finset.exists_mem_eq_sup _ hne id
    constructor
    · rw [pendingMaxSequence, hsup]
      exact hn
    · intro m hm
      exact Finset.le_sup (f := id) hm

end Index

namespace World

variable {w : World}

/-- An undisturbed step whose deliveries come in order. -/
structure Orderly (w : World) (l : Label) : Prop extends Undisturbed w l where
  order : Records InOrder w l

theorem kept_run {ws : String} {durable : Option ConsumedSeqState} {ls : List Label}
    (hok : Permitted step Orderly (init ws durable) ls)
    (hrun : run step (init ws durable) ls = some w) : w.index.Kept True fun _ _ => True :=
  invariant (fun w l _ h hok hstep => kept_step h hok.toUndisturbed (fun _ => hok.order)
    (staysWithin_true w l) hstep) (Index.kept_init durable) hok hrun

/-- A recovery's write adds its messages to what there is at that moment. -/
structure Lossless (w w' : World) (r : Recovery) : Prop where
  attention : w'.index.attention = r.messages.foldl recoverAttention w.index.attention
  pending : ∀ t n, n ∈ (w'.index.unreviewed t).pending ↔ n ∈ (w.index.unreviewed t).pending ∨
    ∃ message ∈ r.messages, message.target = t ∧ message.sequence = n
  window : ∀ t, (w'.index.unreviewed t).pendingWindow = (w.index.unreviewed t).pendingWindow
  seen : ∀ t n, w'.hasSeen t n = w.hasSeen t n

lemma lossless_answerRecovery {w' : World} {i : Nat} {r : Recovery}
    (hr : w.recoveries[i]?.join = some r) (hcurrent : w.isCurrent r.generation)
    (hok : Orderly w (.answerRecovery i true)) (hstep : w.answerRecovery i true = some w') :
    Lossless w w' r := by
  have hsame := (hok.current r hr rfl hcurrent).attention
  obtain ⟨r', hr', rfl⟩ := answerRecovery_eq hstep
  cases hr'.symm.trans hr
  rw [if_pos (by simpa using hcurrent)]
  refine ⟨?_, fun t n => ?_, fun t => ?_, fun t n => ?_⟩
  · rw [attention_foldl_recordRecovered, hsame]
    rfl
  · rw [mem_pending_foldl_recordRecovered]
    rfl
  · rw [window_foldl_recordRecovered]
    rfl
  · rw [hasSeen, hasSeen, Bool.eq_iff_iff, Index.hasSeen_iff, Index.hasSeen_iff,
      effective_foldl_recordRecovered]
    exact iff_of_eq (congrArg (fun e : Target → ConsumedSeqEntry => (e t).Seen n)
      (Index.effective_congr rfl rfl rfl))

/-- At every await of a run whose steps are orderly the index is coherent, and a recovery whose
write is orderly loses no update. -/
theorem coherent_of_orderly {ws : String} {durable : Option ConsumedSeqState} {ls : List Label}
    (hok : Permitted step Orderly (init ws durable) ls)
    (hrun : run step (init ws durable) ls = some w) :
    w.index.Coherent ∧ ∀ i r w', w.recoveries[i]?.join = some r → w.isCurrent r.generation →
      Orderly w (.answerRecovery i true) → step w (.answerRecovery i true) = some w' →
        Lossless w w' r :=
  ⟨(kept_run hok hrun).coherent, fun _ _ _ hr hcurrent hokr hstep =>
    lossless_answerRecovery hr hcurrent hokr hstep⟩

end World

/-! ### A drain while a recovery waits -/

namespace Drained

open World

def message : Delivery where
  workspaceId := "w"
  agentId := "a"
  conversationId := "c1"
  messageId := "m1"
  deliveryId := "d1"
  body := "hello"
  target := "@ann"
  sequence := 1
  latestSenderKind := some .human
  latestSenderHandle := "ann"
  nonMemberMention := false

def unread : RecoveryMessage where
  messageId := "m2"
  deliveryId := "d2"
  conversationId := "c2"
  body := "hello"
  target := "@bob"
  sequence := 4
  latestSenderKind := .human
  latestSenderHandle := "bob"
  nonMemberMention := false

/-- A delivery is announced, and a recovery writes its notice. -/
def start : List Label := [.receive message false true 0, .recover [unread] [] true]

/-- The Agent reads the delivery before the recovery's notice is accepted. -/
def drained : List Label :=
  start ++ [.bookkeeping (.recordModelSeen "@ann" 1), .answerRecovery 0 true]

/-- Without the read in between. -/
def quiet : List Label := start ++ [.answerRecovery 0 true]

end Drained

namespace World

open Drained

/-- Nothing but the recovery's own write undoes what was read: the record of `@ann` comes back with
nothing pending. -/
theorem incoherent_when_drained :
    ¬ ∀ (ws : String) (durable : Option ConsumedSeqState) (ls : List Label) (w : World),
      run step (init ws durable) ls = some w → w.index.Coherent := by
  intro h
  have hback : (run step (init "w" none) drained).map (fun w =>
      ((w.index.attention "@ann").isSome, (w.index.unreviewed "@ann").pending)) =
        some (true, ∅) := by decide +kernel
  obtain ⟨w, hw, heq⟩ := Option.map_eq_some_iff.mp hback
  obtain ⟨hsome, hempty⟩ := Prod.mk.inj heq
  have hne := ((h "w" none drained w hw).record "@ann").mp hsome
  rw [hempty] at hne
  exact Finset.not_nonempty_empty hne

lemma recovery_of_recover {w : World} {messages : List RecoveryMessage}
    {unreadSummary : List (Target × Nat)} {session : Bool} {r : Recovery}
    (h : (w.recover messages unreadSummary session).recoveries[w.recoveries.length]?.join = some r) :
    r.currentAttention = w.index.attention ∧ ∀ message ∈ r.messages, message ∈ messages := by
  simp only [recover] at h
  split_ifs at h
  · simp [withGeneration] at h
  · simp [withGeneration] at h
  · have hlen : (w.withGeneration w.current).recoveries.length = w.recoveries.length := rfl
    rw [← hlen] at h
    simp only [List.getElem?_concat_length, Option.join_some, Option.some.injEq] at h
    subst h
    exact ⟨rfl, fun message hm => List.mem_of_mem_filter hm⟩

theorem coherent_when_quiet : ∃ w, run step (init "w" none) quiet = some w ∧ w.index.Coherent := by
  have hunseen : (init "w" none |>.receive message false true 0).hasSeen "@bob" 4 = false := by
    decide +kernel
  have hnone : (init "w" none |>.receive message false true 0).recoveries.length = 0 := by
    decide +kernel
  have hok : Permitted step Orderly (init "w" none) quiet := by
    simp only [quiet, start, List.cons_append, List.nil_append, Permitted, implies_true, and_true]
    have hreceive : (init "w" none).Orderly (.receive message false true 0) :=
      ⟨⟨fun _ hseen => hseen, trivial⟩, fun _ _ a ha => (nomatch ha)⟩
    refine ⟨hreceive, fun w hw => ⟨⟨⟨trivial, trivial⟩, trivial⟩, fun w' hw' => ?_⟩⟩
    refine ⟨⟨trivial, ?_⟩, trivial⟩
    cases hw
    cases hw'
    intro r hr _ _
    obtain ⟨hsame, hmessages⟩ := recovery_of_recover
      (w := (init "w" none).receive message false true 0) (r := r) (by rw [hnone]; exact hr)
    refine ⟨by rw [index_recover, hsame], fun m hm => ?_⟩
    obtain rfl := List.mem_singleton.mp (hmessages m hm)
    rw [hasSeen, index_recover]
    exact hunseen
  have hrun : (run step (init "w" none) quiet).isSome := by decide +kernel
  obtain ⟨w, hw⟩ := Option.isSome_iff_exists.mp hrun
  exact ⟨w, hw, (coherent_of_orderly hok hw).1⟩

end World

end Coforge.Attention
