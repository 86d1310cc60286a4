import Coforge.Lib.Run
import Coforge.Reconciliation.Window

/-!
# A page that shows a conversation

The server commits messages; the page holds a window of them, open threads with their replies, and
the reconciler. A read answers later than it was made, with what was there at some moment between,
and a re-read of the window replaces the pages and moves the reconciler's cursor.
-/

namespace Coforge.Reconciliation

open Transition

structure World where
  /-- The messages of the conversation, oldest first. -/
  committed : List Message
  pages : List WindowPage
  /-- The sequence that the window starts at. -/
  start : Nat
  /-- `pendingUpdatesRef`. -/
  pending : List Message
  threads : String → ThreadQuery
  reconciler : Reconciler
  /-- How many messages there were at the last `reconcile()` call. -/
  wanted : Nat

/-- The top-level messages of the loaded pages. -/
def messagesOf (pages : List WindowPage) : List Message := pages.flatMap WindowPage.messages

def startOf (pages : List WindowPage) : Nat := ((messagesOf pages).head?.map Message.sequence).getD 0

/-- Where the newest page stands. -/
def positionOf (pages : List WindowPage) : ConversationUpdatesCursor :=
  match pages.getLast? with
  | some newest => newest.position
  | none => { afterSequence := 0, afterReplySequence := none }

/-- Top-level messages go to the newest page or to the buffer. -/
def World.foldRoots (w : World) (roots : List Message) : World :=
  match w.pages.getLast? with
  | some latest =>
    if roots = [] then w
    else
      let (folded, pending) := foldWindowUpdates latest w.pending roots
      { w with pages := updateLast w.pages folded, pending }
  | none => w

/-- `mergeUpdates`: roots first, then the replies. -/
def World.mergeUpdates (w : World) (updates : List Message) : World :=
  let w := w.foldRoots (updates.filter Message.topLevel)
  { w with
    pages := foldSummaries w.pages updates
    threads := foldThreads w.threads updates w.committed.length }

/-- The pages are what a read of the window answers, of these messages: top-level messages without
a gap, and summaries that end at a reply. -/
def ReadOf (messages : List Message) (pages : List WindowPage) : Prop :=
  pages ≠ [] ∧ (∀ m ∈ messagesOf pages, m ∈ messages ∧ m.topLevel) ∧
    (∀ m ∈ messages, m.topLevel → startOf pages ≤ m.sequence →
      (∃ x ∈ messagesOf pages, m.sequence ≤ x.sequence) → m ∈ messagesOf pages) ∧
    ∀ page ∈ pages, ∀ t ∈ page.threads, ∃ r ∈ messages, r.threadRootId = some t.1 ∧ r.sequence = t.2

instance {messages : List Message} {pages : List WindowPage} : Decidable (ReadOf messages pages) :=
  inferInstanceAs (Decidable (_ ∧ _))

inductive Event where
  | commit (m : Message)
  | reconcile
  /-- The page that the drain waits for answers, of the first `moment` messages. -/
  | pageAnswers (moment : Nat)
  /-- The `finally` callback of a drain that has finished. -/
  | settle
  /-- A network read of the window, of the first `moment` messages. -/
  | windowRead (pages : List WindowPage) (moment : Nat)
  /-- The viewer's own send is merged. -/
  | sent (m : Message)
  | openThread (rootId : String)
  | rereadThread (rootId : String)
  /-- The read of a thread answers, of the first `moment` messages. -/
  | threadRead (rootId : String) (moment : Nat)
  | closeThread (rootId : String)

def World.setThread (w : World) (rootId : String) (thread : ThreadQuery) : World :=
  { w with threads := Function.update w.threads rootId thread }

def step (w : World) : Event → Option World
  | .commit m =>
    if 0 < m.sequence ∧ ∀ x ∈ w.committed, x.sequence < m.sequence ∧ x.id ≠ m.id then
      some { w with committed := w.committed ++ [m] }
    else none
  | .reconcile =>
    some { w with
      reconciler := w.reconciler.reconcile w.committed.length
      wanted := w.committed.length }
  | .pageAnswers moment =>
    match w.reconciler.active with
    | .loading asked since =>
      if since ≤ moment ∧ moment ≤ w.committed.length then
        let page := loadPage asked (w.committed.take moment)
        let merged := if page = [] then w else w.mergeUpdates page
        some { merged with reconciler := w.reconciler.answered page w.committed.length }
      else none
    | _ => none
  | .settle =>
    if w.reconciler.active = .finished then some { w with reconciler := w.reconciler.settle }
    else none
  | .windowRead pages moment =>
    if ReadOf (w.committed.take moment) pages then
      some { w with
        pages
        start := startOf pages
        reconciler := w.reconciler.advance (positionOf pages) }
    else none
  | .sent m => if m ∈ w.committed then some (w.mergeUpdates [m]) else none
  | .openThread rootId =>
    if w.threads rootId = { replies := none, reading := none } then
      some (w.setThread rootId { replies := none, reading := some w.committed.length })
    else none
  | .rereadThread rootId =>
    if (w.threads rootId).replies.isSome ∧ (w.threads rootId).reading = none then
      some (w.setThread rootId { w.threads rootId with reading := some w.committed.length })
    else none
  | .threadRead rootId moment =>
    match (w.threads rootId).reading with
    | some since =>
      if since ≤ moment then
        some (w.setThread rootId
          { replies := some (repliesTo rootId (w.committed.take moment)), reading := none })
      else none
    | none => none
  | .closeThread rootId => some (w.setThread rootId { replies := none, reading := none })

/-- The page as it opens the conversation: from a read, and with no thread. -/
structure Opened (w : World) : Prop where
  sorted : w.committed.Pairwise fun x y => x.sequence < y.sequence
  positive : ∀ m ∈ w.committed, 0 < m.sequence
  unique : ∀ x ∈ w.committed, ∀ y ∈ w.committed, x.id = y.id → x = y
  read : ReadOf w.committed w.pages
  start : w.start = startOf w.pages
  pending : w.pending = []
  threads : ∀ rootId, w.threads rootId = { replies := none, reading := none }
  reconciler : w.reconciler = .create (positionOf w.pages)
  wanted : w.wanted = 0

/-! ### What is shown -/

/-- A message is in the window or its waiting buffer. -/
def World.shows (w : World) (m : Message) : Prop :=
  m.id ∈ ids (messagesOf w.pages) ∨ m.id ∈ ids w.pending

/-- A message is in a thread where that is loaded, and is not missed by the read of it that is under
way. -/
def ThreadQuery.Holds (committed : List Message) (thread : ThreadQuery) (r : Message) : Prop :=
  (∀ loaded ∈ thread.replies, r.id ∈ ids loaded) ∧
    ∀ since ∈ thread.reading, r ∈ committed.take since

/-- A reply is held by its thread. -/
def World.holds (w : World) (r : Message) : Prop :=
  ∀ rootId ∈ r.threadRootId, (w.threads rootId).Holds w.committed r

instance {w : World} {m : Message} : Decidable (w.shows m) := inferInstanceAs (Decidable (_ ∨ _))

instance {committed : List Message} {thread : ThreadQuery} {r : Message} :
    Decidable (thread.Holds committed r) :=
  inferInstanceAs (Decidable (_ ∧ _))

instance {w : World} {r : Message} : Decidable (w.holds r) :=
  inferInstanceAs (Decidable (∀ rootId ∈ r.threadRootId, _))

/-- A re-read of the window holds what the cursor has passed. -/
def World.keeps (w : World) (pages : List WindowPage) : Prop :=
  ∀ m ∈ w.committed, m.topLevel → startOf pages ≤ m.sequence →
    m.sequence ≤ w.reconciler.cursor.afterSequence →
      m.id ∈ ids (messagesOf pages) ∨ m.id ∈ ids w.pending

/-- The open threads hold the replies up to a bound. -/
def World.holdsThrough (w : World) (bound : Nat) : Prop :=
  ∀ r ∈ w.committed, ¬r.topLevel → r.sequence ≤ bound → w.holds r

instance {w : World} {pages : List WindowPage} : Decidable (w.keeps pages) :=
  inferInstanceAs (Decidable (∀ m ∈ w.committed, _ → _ → _ → _ ∨ _))

instance {w : World} {bound : Nat} : Decidable (w.holdsThrough bound) :=
  inferInstanceAs (Decidable (∀ r ∈ w.committed, _ → _ → w.holds r))

/-- A call does not meet a drain that has finished but is not given up; a re-read of the window
holds what the cursor has passed; and where it moves the cursor, each thread holds the replies that
it moves past. -/
def Served (w : World) : Event → Prop
  | .reconcile => w.reconciler.active ≠ .finished
  | .windowRead pages _ =>
    w.keeps pages ∧ (w.reconciler.cursor.afterSequence < (positionOf pages).afterSequence →
      w.holdsThrough (positionOf pages).replyBound)
  | _ => True

instance {w : World} : ∀ event, Decidable (Served w event)
  | .reconcile => inferInstanceAs (Decidable (_ ≠ _))
  | .windowRead pages _ => inferInstanceAs (Decidable (w.keeps pages ∧ (_ → w.holdsThrough _)))
  | .commit _ => isTrue trivial
  | .pageAnswers _ => isTrue trivial
  | .settle => isTrue trivial
  | .sent _ => isTrue trivial
  | .openThread _ => isTrue trivial
  | .rereadThread _ => isTrue trivial
  | .threadRead _ _ => isTrue trivial
  | .closeThread _ => isTrue trivial

end Coforge.Reconciliation
