import Coforge.Lib.Page
import Mathlib

/-!
# The conversation reconciler

One drain reads what arrived past a cursor, page by page, while requests coalesce into it. What runs
between two waits is one step here: a request starts a drain or marks the one under way, a page
that answers moves the cursor and asks for the next, and the drain that has finished is given up by
a callback of its own, which comes later.
-/

namespace Coforge.Reconciliation

structure Message where
  id : String
  sequence : Nat
  threadRootId : Option String
deriving DecidableEq

/-- A thread root or a message without a thread. -/
def Message.topLevel (m : Message) : Bool := m.threadRootId.isNone

structure ConversationUpdatesCursor where
  afterSequence : Nat
  afterReplySequence : Option Nat
deriving DecidableEq

/-- The sequence that the replies to be read are past. -/
def ConversationUpdatesCursor.replyBound (c : ConversationUpdatesCursor) : Nat :=
  c.afterReplySequence.getD c.afterSequence

/-- `messagesArrivedWhere`. -/
def arrived (c : ConversationUpdatesCursor) (m : Message) : Bool :=
  if c.replyBound = c.afterSequence then c.afterSequence < m.sequence
  else (m.topLevel && c.afterSequence < m.sequence) || (!m.topLevel && c.replyBound < m.sequence)

/-- The page that `loadPage` answers, of the messages that are there: the first 100. -/
def loadPage (c : ConversationUpdatesCursor) (messages : List Message) : List Message :=
  (messages.filter (arrived c)).take 100

/-- Where the drain stands. -/
inductive Drain where
  /-- `active` is undefined. -/
  | idle
  /-- It waits for the page that it asked for with a cursor, when there were so many messages. -/
  | loading (asked : ConversationUpdatesCursor) (moment : Nat)
  /-- It has returned, and its `finally` callback has not run. -/
  | finished
deriving DecidableEq

structure Reconciler where
  cursor : ConversationUpdatesCursor
  requested : Bool
  active : Drain
deriving DecidableEq

namespace Reconciler

def create (start : ConversationUpdatesCursor) : Reconciler where
  cursor := start
  requested := false
  active := .idle

/-- Asks for the next page. -/
def load (s : Reconciler) (moment : Nat) : Reconciler :=
  { s with active := .loading s.cursor moment }

/-- The body of the outer loop, up to its first wait. -/
def drain (s : Reconciler) (moment : Nat) : Reconciler := { s with requested := false }.load moment

def reconcile (s : Reconciler) (moment : Nat) : Reconciler :=
  let s := { s with requested := true }
  match s.active with
  | .idle => s.drain moment
  | _ => s

/-- What a page makes of the cursor. -/
def passed (cursor : ConversationUpdatesCursor) (page : List Message) : ConversationUpdatesCursor :=
  if page = [] then cursor
  else
    { afterSequence := (page.map Message.sequence).foldl max cursor.afterSequence
      afterReplySequence := none }

/-- The drain goes on with a page, up to its next wait or its end. -/
def answered (s : Reconciler) (page : List Message) (moment : Nat) : Reconciler :=
  let s := { s with cursor := passed s.cursor page }
  if page.length = 100 then s.load moment
  else if s.requested then s.drain moment
  else { s with active := .finished }

/-- The `finally` callback. -/
def settle (s : Reconciler) : Reconciler := { s with active := .idle }

def advance (s : Reconciler) (position : ConversationUpdatesCursor) : Reconciler :=
  if s.cursor.afterSequence < position.afterSequence then { s with cursor := position } else s

end Reconciler

/-! ### Pages and cursors -/

section Pages

variable {c cursor : ConversationUpdatesCursor} {m : Message} {messages page : List Message}

lemma arrived_topLevel (h : m.topLevel) : arrived c m ↔ c.afterSequence < m.sequence := by
  rw [arrived]
  split_ifs with hone <;> simp [h]

lemma arrived_reply (h : ¬m.topLevel) : arrived c m ↔ c.replyBound < m.sequence := by
  rw [arrived]
  split_ifs with hone
  · rw [decide_eq_true_eq, hone]
  · simp [h]

lemma le_foldl_max (start : Nat) (l : List Nat) : start ≤ l.foldl max start := by
  induction l generalizing start with
  | nil => exact Nat.le_refl start
  | cons n l ih => exact Nat.le_trans (Nat.le_max_left start n) (ih _)

lemma le_foldl_max_of_mem {n : Nat} {l : List Nat} (h : n ∈ l) (start : Nat) :
    n ≤ l.foldl max start := by
  induction l generalizing start with
  | nil => cases h
  | cons k l ih =>
    rcases List.mem_cons.mp h with rfl | h
    · exact Nat.le_trans (Nat.le_max_right start n) (le_foldl_max _ l)
    · exact ih h _

lemma foldl_max_mem (start : Nat) (l : List Nat) : l.foldl max start = start ∨ l.foldl max start ∈ l := by
  induction l generalizing start with
  | nil => exact .inl rfl
  | cons k l ih =>
    rw [List.foldl_cons]
    rcases ih (max start k) with h | h
    · rcases Nat.le_total start k with hle | hle
      · rw [h, Nat.max_eq_right hle]
        exact .inr List.mem_cons_self
      · rw [h, Nat.max_eq_left hle]
        exact .inl rfl
    · exact .inr (List.mem_cons_of_mem k h)

lemma afterSequence_le_passed (cursor : ConversationUpdatesCursor) (page : List Message) :
    cursor.afterSequence ≤ (Reconciler.passed cursor page).afterSequence := by
  rw [Reconciler.passed]
  split_ifs
  · exact Nat.le_refl _
  · exact le_foldl_max _ _

lemma sequence_le_passed (cursor : ConversationUpdatesCursor) (hm : m ∈ page) :
    m.sequence ≤ (Reconciler.passed cursor page).afterSequence := by
  rw [Reconciler.passed, if_neg (List.ne_nil_of_mem hm)]
  exact le_foldl_max_of_mem (List.mem_map_of_mem hm) _

lemma passed_eq_or_mem (cursor : ConversationUpdatesCursor) (page : List Message) :
    (Reconciler.passed cursor page).afterSequence = cursor.afterSequence ∨
      ∃ y ∈ page, y.sequence = (Reconciler.passed cursor page).afterSequence := by
  rw [Reconciler.passed]
  split_ifs
  · exact .inl rfl
  · rcases foldl_max_mem cursor.afterSequence (page.map Message.sequence) with h | h
    · exact .inl h
    · exact .inr (List.mem_map.mp h)

lemma replyBound_passed (cursor : ConversationUpdatesCursor) (page : List Message) :
    (Reconciler.passed cursor page).replyBound = if page = [] then cursor.replyBound
      else (Reconciler.passed cursor page).afterSequence := by
  rw [Reconciler.passed]
  split_ifs <;> rfl

lemma answered_spec (s : Reconciler) (page : List Message) (moment : Nat) :
    (s.answered page moment).cursor = Reconciler.passed s.cursor page ∧
      ((s.answered page moment).active = .loading (Reconciler.passed s.cursor page) moment ∨
        page.length ≠ 100 ∧ s.requested = false ∧ (s.answered page moment).active = .finished) := by
  by_cases hfull : page.length = 100
  · simp [Reconciler.answered, Reconciler.load, hfull]
  · cases hrequested : s.requested with
    | true => simp [Reconciler.answered, Reconciler.drain, Reconciler.load, hfull, hrequested]
    | false => simp [Reconciler.answered, hfull, hrequested]

lemma mem_of_mem_loadPage (h : m ∈ loadPage c messages) : m ∈ messages :=
  List.mem_of_mem_filter (List.mem_of_mem_take h)

lemma mem_loadPage_of_le (hsorted : messages.Pairwise fun x y => x.sequence < y.sequence)
    (hm : m ∈ messages) (harrived : arrived c m) {y : Message} (hy : y ∈ loadPage c messages)
    (hle : m.sequence ≤ y.sequence) : m ∈ loadPage c messages :=
  Page.mem_take_of_not_rel (hsorted.filter _) (List.mem_filter.mpr ⟨hm, harrived⟩) hy
    (Nat.not_lt.mpr hle)

lemma mem_loadPage_of_length (hlength : (loadPage c messages).length ≠ 100) (hm : m ∈ messages)
    (harrived : arrived c m) : m ∈ loadPage c messages := by
  have hshort : (messages.filter (arrived c)).length ≤ 100 := by
    rw [loadPage, List.length_take] at hlength
    omega
  rw [loadPage, List.take_of_length_le hshort]
  exact List.mem_filter.mpr ⟨hm, harrived⟩

end Pages

end Coforge.Reconciliation
