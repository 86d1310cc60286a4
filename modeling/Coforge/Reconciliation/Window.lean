import Coforge.Lib.Keyed
import Coforge.Reconciliation.Reconciler

/-!
# The window and the open threads of a conversation

What is merged goes to the newest page, or waits while that page is not the live end; replies go to
the threads that are loaded, and start over the reads that are under way.
-/

namespace Coforge.Reconciliation

/-- A page of the window: its top-level messages, and for each root with replies the
`lastReplySequence` of its summary. -/
structure WindowPage where
  messages : List Message
  hasNewer : Bool
  threads : List (String × Nat)
deriving DecidableEq

def ids (messages : List Message) : List String := messages.map Message.id

/-- Merges two message lists by id, `incoming` winning on conflicts, ordered by sequence. -/
def mergeMessages (base incoming : List Message) : List Message :=
  let byId := (base ++ incoming).foldl (fun byId m => Keyed.put Message.id m byId) []
  byId.mergeSort fun x y => x.sequence ≤ y.sequence

/-- What `foldWindowUpdates` makes of the newest page and of the buffer. -/
def foldWindowUpdates (latest : WindowPage) (pending updates : List Message) : WindowPage × List Message :=
  if latest.hasNewer then (latest, mergeMessages [] (pending ++ updates))
  else ({ latest with messages := mergeMessages latest.messages (pending ++ updates) }, [])

/-- The pages with their last one changed. -/
def updateLast (pages : List WindowPage) (latest : WindowPage) : List WindowPage := pages.dropLast ++ [latest]

/-- The newest sequence a page reflects. -/
def newestReflectedSequence (page : WindowPage) : Nat :=
  (page.threads.map Prod.snd).foldl max ((page.messages.getLast?.map Message.sequence).getD 0)

/-- Where the reconciler starts or goes on from a page. -/
def WindowPage.position (newest : WindowPage) : ConversationUpdatesCursor where
  afterSequence := (newest.messages.getLast?.map Message.sequence).getD 0
  afterReplySequence := some (newestReflectedSequence newest)

/-! ### Threads -/

/-- The Query of a thread's replies: what it holds, and how many messages there were when the read
that is under way was made. -/
structure ThreadQuery where
  replies : Option (List Message)
  reading : Option Nat
deriving DecidableEq

/-- `startReadOver`: a read that is under way is made again. -/
def startReadOver (thread : ThreadQuery) (moment : Nat) : ThreadQuery :=
  { thread with reading := thread.reading.map fun _ => moment }

/-- The replies of a root among messages. -/
def repliesTo (rootId : String) (messages : List Message) : List Message :=
  messages.filter fun m => m.threadRootId = some rootId

/-- What `foldThreadReplies` makes of one thread's Query. -/
def foldThread (thread : ThreadQuery) (group : List Message) (moment : Nat) : ThreadQuery :=
  match thread.replies with
  | none => startReadOver thread moment
  | some loaded =>
    let merged := { thread with replies := some (mergeMessages loaded group) }
    if group.any fun reply => reply.id ∉ ids loaded then startReadOver merged moment else merged

/-- `withReply`, of a summary's `lastReplySequence`. -/
def withReply (before : Option Nat) (reply : Message) : Option Nat :=
  some (max (before.getD 0) reply.sequence)

/-- The summaries of a page with a group of replies in them. -/
def foldSummary (page : WindowPage) (rootId : String) (group : List Message) : WindowPage :=
  if rootId ∈ ids page.messages then
    let before := (page.threads.find? fun t => t.1 = rootId).map Prod.snd
    match group.foldl withReply before with
    | some after => { page with threads := Keyed.put Prod.fst (rootId, after) page.threads }
    | none => page
  else page

/-- The roots of replies, each once. -/
def rootIds (replies : List Message) : List String := (replies.filterMap Message.threadRootId).dedup

/-- What `foldThreadReplies` makes of the pages. -/
def foldSummaries (pages : List WindowPage) (replies : List Message) : List WindowPage :=
  pages.map fun page =>
    (rootIds replies).foldl (fun page rootId => foldSummary page rootId (repliesTo rootId replies))
      page

/-- What `foldThreadReplies` makes of the threads: those that a reply is to. -/
def foldThreads (threads : String → ThreadQuery) (replies : List Message) (moment : Nat) :
    String → ThreadQuery := fun rootId =>
  if repliesTo rootId replies = [] then threads rootId
  else foldThread (threads rootId) (repliesTo rootId replies) moment

/-! ### What merging keeps -/

section Merging

variable {base incoming messages : List Message} {i : String} {pages : List WindowPage}

lemma mem_ids_put {m : Message} {l : List Message} :
    i ∈ ids (Keyed.put Message.id m l) ↔ i = m.id ∨ i ∈ ids l := by
  induction l with
  | nil => simp [ids, Keyed.put]
  | cons x xs ih =>
    rw [Keyed.put]
    split_ifs with hx
    · simp [ids, hx]
    · rw [ids, List.map_cons, List.mem_cons]
      change i = x.id ∨ i ∈ ids (Keyed.put Message.id m xs) ↔ _
      rw [ih]
      simp only [ids, List.map_cons, List.mem_cons]
      exact or_left_comm

lemma mem_ids_foldl_put {l byId : List Message} :
    i ∈ ids (l.foldl (fun byId m => Keyed.put Message.id m byId) byId) ↔ i ∈ ids byId ∨ i ∈ ids l := by
  induction l generalizing byId with
  | nil => simp [ids]
  | cons x xs ih =>
    rw [List.foldl_cons, ih, mem_ids_put]
    simp only [ids, List.map_cons, List.mem_cons]
    tauto

@[simp] lemma mem_ids_mergeMessages :
    i ∈ ids (mergeMessages base incoming) ↔ i ∈ ids base ∨ i ∈ ids incoming := by
  have hsort : ∀ l : List Message, i ∈ ids (l.mergeSort fun x y => x.sequence ≤ y.sequence) ↔
      i ∈ ids l := by
    intro l
    simp [ids]
  rw [mergeMessages, hsort, mem_ids_foldl_put]
  simp [ids]

lemma foldSummary_messages (page : WindowPage) (rootId : String) (group : List Message) :
    (foldSummary page rootId group).messages = page.messages := by
  rw [foldSummary]
  split_ifs
  · dsimp only
    split <;> rfl
  · rfl

lemma foldSummaries_messages (pages : List WindowPage) (replies : List Message) :
    (foldSummaries pages replies).map WindowPage.messages = pages.map WindowPage.messages := by
  have hfold : ∀ (roots : List String) (page : WindowPage),
      (roots.foldl (fun page rootId => foldSummary page rootId (repliesTo rootId replies))
        page).messages = page.messages := by
    intro roots
    induction roots with
    | nil => exact fun _ => rfl
    | cons rootId roots ih =>
      intro page
      rw [List.foldl_cons, ih, foldSummary_messages]
  rw [foldSummaries, List.map_map]
  exact List.map_congr_left fun page _ => hfold (rootIds replies) page

end Merging

end Coforge.Reconciliation
