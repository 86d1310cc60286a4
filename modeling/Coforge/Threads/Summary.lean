import Coforge.Lib.History
import Coforge.Lib.Keyed
import Coforge.Lib.Run
import Mathlib

/-!
# Thread summaries

What a conversation window shows of a thread under its root: the reply count, the newest replies
and the unread mark. The server reads the summaries of a window's roots (`readWindowThreads`), and
the browser folds every reply that arrives into the summary it holds (`foldThreadReplies`).

Bodies are lists of UTF-16 code units and times are instants. A reply keeps its sender's name and
picture, and a window's pages keep the ids of their roots.
-/

namespace Coforge.Threads

open History (sliceLast)

/-- The code units of a text. -/
abbrev Text := List UInt16

inductive SenderKind
  | user
  | agent
  | system
deriving DecidableEq

structure Message where
  id : String
  sequence : Nat
  threadRootId : Option String
  senderKind : SenderKind
  senderName : String
  senderAvatarUrl : Option String
  senderDeleted : Bool
  body : Text
  createdAt : Nat
deriving DecidableEq

structure ThreadPreviewReply where
  id : String
  sequence : Nat
  senderName : String
  senderAvatarUrl : Option String
  senderDeleted : Bool
  body : Text
  createdAt : Nat
deriving DecidableEq

structure ThreadSummary where
  replyCount : Nat
  lastReplySequence : Nat
  lastReplyAt : Nat
  unread : Nat
  latestReplies : List ThreadPreviewReply
deriving DecidableEq

def threadPreviewReplies : Nat := 3

def threadPreviewBodyMax : Nat := 280

/-! ### Preview bodies -/

/-- `lastIndexOf`, one more than it: nothing is 0. -/
def lastIndexOf (token : Text) (text : Text) : Nat :=
  (List.range text.length).foldl
    (fun found i => if token.isPrefixOf (text.drop i) then i + 1 else found) 0

/-- The white space and line ends of the language. -/
def isWhitespace (unit : UInt16) : Bool :=
  (9 ≤ unit && unit ≤ 13) || unit = 0x20 || unit = 0xA0 || unit = 0x1680 ||
    (0x2000 ≤ unit && unit ≤ 0x200A) || unit = 0x2028 || unit = 0x2029 || unit = 0x202F ||
    unit = 0x205F || unit = 0x3000 || unit = 0xFEFF

def trimEnd (text : Text) : Text := (text.reverse.dropWhile isWhitespace).reverse

/-- A reply's body as the preview carries it, never cut inside a token. -/
def previewBody (body : Text) : Text :=
  if body.length ≤ threadPreviewBodyMax then body
  else
    let cut := body.take threadPreviewBodyMax
    let tokenStart := lastIndexOf [0x3C, 0x40] cut
    let cut := if lastIndexOf [0x3E] cut < tokenStart then cut.take (tokenStart - 1) else cut
    trimEnd cut ++ [0x2026]

def Message.preview (reply : Message) : ThreadPreviewReply where
  id := reply.id
  sequence := reply.sequence
  senderName := reply.senderName
  senderAvatarUrl := reply.senderAvatarUrl
  senderDeleted := reply.senderDeleted
  body := previewBody reply.body
  createdAt := reply.createdAt

/-- People's replies: a system notice is not a reply. -/
def Message.isReply (reply : Message) : Bool := reply.senderKind ≠ .system

/-! ### Folding a reply -/

/-- A thread's summary with one more reply in it, for a reply that is newer. -/
def addReply (countUnread : Bool) (summary : Option ThreadSummary) (reply : Message) :
    Option ThreadSummary :=
  let latest := (summary.map (·.latestReplies)).getD []
  some {
    replyCount := (summary.map (·.replyCount)).getD 0 + if reply.isReply then 1 else 0
    lastReplySequence := reply.sequence
    lastReplyAt := reply.createdAt
    unread := (summary.map (·.unread)).getD 0 +
      if countUnread ∧ reply.senderKind = .agent then 1 else 0
    latestReplies :=
      if reply.isReply then sliceLast threadPreviewReplies (latest ++ [reply.preview]) else latest }

def withReply (countUnread : Bool) (summary : Option ThreadSummary) (reply : Message) :
    Option ThreadSummary :=
  match summary with
  | some known =>
    if reply.sequence ≤ known.lastReplySequence then summary
    else addReply countUnread summary reply
  | none => addReply countUnread none reply

/-! ### Folding what arrived -/

structure WindowPage where
  messages : List String
  threads : String → Option ThreadSummary

/-- The replies of each root, in the order the roots came. -/
def byRoot (replies : List Message) : List (String × List Message) :=
  replies.foldl (fun groups reply =>
    match reply.threadRootId with
    | none        => groups
    | some rootId =>
      Keyed.put Prod.fst (rootId, ((Keyed.find Prod.fst rootId groups).map Prod.snd).getD [] ++
        [reply]) groups) []

def foldPage (viewerIsMember : Bool) (replies : List Message) (page : WindowPage) : WindowPage :=
  { page with
    threads := (byRoot replies).foldl (fun threads group =>
      if group.1 ∈ page.messages then
        Function.update threads group.1 <|
          (group.2.insertionSort fun left right => left.sequence ≤ right.sequence).foldl
            (withReply viewerIsMember) (threads group.1)
      else threads) page.threads }

/-- Replies that arrived, folded into the summaries of the roots that are loaded. -/
def foldThreadReplies (viewerIsMember : Bool) (pages : List WindowPage) (replies : List Message) :
    List WindowPage :=
  pages.map (foldPage viewerIsMember replies)

/-! ### The server -/

structure SummaryRow where
  replyCount : Nat
  lastReplySequence : Nat
  lastReplyAt : Nat
  unread : Nat

/-- A conversation, with the viewer's own thread read cursors. -/
structure Conversation where
  messages : List Message
  reads : String → Option Nat

namespace Conversation

def replies (c : Conversation) (rootId : String) : List Message :=
  c.messages.filter fun m => m.threadRootId = some rootId

/-- The aggregate over the replies of one root. No row is read for a root without replies. -/
def summaryRow (c : Conversation) (rootId : String) : Option SummaryRow :=
  let replies := c.replies rootId
  if replies = [] then none
  else some {
    replyCount := replies.countP (·.isReply)
    lastReplySequence := (replies.map (·.sequence)).foldl max 0
    lastReplyAt := (replies.map (·.createdAt)).foldl max 0
    unread := replies.countP fun m =>
      m.senderKind = .agent ∧ (c.reads rootId).getD 0 < m.sequence }

/-- The newest few replies of one root, read newest first and then listed oldest first. -/
def previews (c : Conversation) (rootId : String) : List ThreadPreviewReply :=
  let newest := ((c.replies rootId).filter (·.isReply)).insertionSort
    fun left right => right.sequence ≤ left.sequence
  ((newest.take threadPreviewReplies).insertionSort
    fun left right => left.sequence ≤ right.sequence).map (·.preview)

/-- The summaries of the roots that one window holds. -/
def readWindowThreads (c : Conversation) (viewerIsMember : Bool) (rootIds : List String)
    (rootId : String) : Option ThreadSummary :=
  if rootId ∈ rootIds then
    (c.summaryRow rootId).map fun row =>
      { replyCount := row.replyCount
        lastReplySequence := row.lastReplySequence
        lastReplyAt := row.lastReplyAt
        unread := if viewerIsMember then row.unread else 0
        latestReplies := c.previews rootId }
  else none

/-! ### The conversation over time -/

inductive Event
  /-- A message is stored under the next sequence of the conversation. -/
  | post (message : Message)
  /-- `markThreadReadForUser` -/
  | markThreadRead (rootMessageId : String) (throughSequence : Nat)

/-- The newest reply up to a sequence. -/
def latestThrough (c : Conversation) (rootId : String) (throughSequence : Nat) : Option Nat :=
  (((c.replies rootId).filter fun m => m.sequence ≤ throughSequence).map (·.sequence)).max?

/-- Messages get rising sequences, and their times follow them. -/
def step (c : Conversation) : Event → Option Conversation
  | .post message =>
    if 0 < message.sequence ∧ ∀ m ∈ c.messages, m.sequence < message.sequence ∧
        m.createdAt ≤ message.createdAt then
      some { c with messages := c.messages ++ [message] }
    else none
  | .markThreadRead rootMessageId throughSequence =>
    match c.latestThrough rootMessageId throughSequence with
    | none        => some c
    | some latest =>
      let through := max ((c.reads rootMessageId).getD 0) latest
      some { c with reads := Function.update c.reads rootMessageId (some through) }

/-- A conversation without messages. -/
def empty : Conversation := ⟨[], fun _ => none⟩

end Conversation

end Coforge.Threads
