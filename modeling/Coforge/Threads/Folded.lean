import Coforge.Lib.Rising
import Coforge.Threads.Summary

/-!
# Folded summaries against the server's

A summary drops every reply at or below the newest one it holds, so a reply that a newer one of its
thread overtook on the way is lost to it. Apart from system notices, which only move the newest
sequence, no reply may be overtaken: exactly then the folded summary is the one the server reads.
-/

namespace Coforge.Threads

open List Conversation
open History (sliceLast)
open Rising (rising)
open Transition (run)

/-! ### The pages -/

/-- The replies of one root in a batch, in the order they are folded. -/
def group (rootId : String) (batch : List Message) : List Message :=
  (batch.filter fun m => m.threadRootId = some rootId).insertionSort
    fun left right => left.sequence ≤ right.sequence

variable {m : Message}

lemma mem_group {rootId : String} {batch : List Message} :
    m ∈ group rootId batch ↔ m ∈ batch ∧ m.threadRootId = some rootId := by
  simp [group]

lemma byRoot_concat (batch : List Message) (reply : Message) :
    byRoot (batch ++ [reply]) = match reply.threadRootId with
      | none        => byRoot batch
      | some rootId => Keyed.put Prod.fst (rootId,
        ((Keyed.find Prod.fst rootId (byRoot batch)).map Prod.snd).getD [] ++ [reply])
          (byRoot batch) := by
  rw [byRoot, foldl_append]
  rfl

lemma nodup_byRoot (batch : List Message) : ((byRoot batch).map Prod.fst).Nodup := by
  induction batch using reverseRecOn with
  | nil => exact .nil
  | append_singleton batch reply ih =>
    rw [byRoot_concat]
    split
    · exact ih
    · exact Keyed.nodup_keys_put ih

lemma find_byRoot (rootId : String) (batch : List Message) :
    ((Keyed.find Prod.fst rootId (byRoot batch)).map Prod.snd).getD [] =
      batch.filter fun m => m.threadRootId = some rootId := by
  induction batch using reverseRecOn with
  | nil => rfl
  | append_singleton batch reply ih =>
    rw [byRoot_concat, filter_append]
    cases hroot : reply.threadRootId with
    | none => simpa [hroot] using ih
    | some other =>
      simp only [Keyed.find_put]
      by_cases hother : other = rootId
      · subst hother
        simp [hroot, ih]
      · simp [hroot, hother, ih]

lemma foldl_groups {fold : List Message → Option ThreadSummary → Option ThreadSummary}
    (hnil : ∀ s, fold [] s = s) {messages : List String} {rootId : String}
    (hroot : rootId ∈ messages) {groups : List (String × List Message)}
    (hnodup : (groups.map Prod.fst).Nodup) (threads : String → Option ThreadSummary) :
    (groups.foldl (fun threads group =>
      if group.1 ∈ messages then
        Function.update threads group.1 (fold group.2 (threads group.1))
      else threads) threads) rootId =
      fold (((Keyed.find Prod.fst rootId groups).map Prod.snd).getD []) (threads rootId) := by
  induction groups generalizing threads with
  | nil => exact (hnil _).symm
  | cons g groups ih =>
    obtain ⟨hfresh, hrest⟩ := nodup_cons.mp hnodup
    rw [foldl_cons, ih hrest, Keyed.find_cons]
    by_cases hg : g.1 = rootId
    · subst hg
      have hnone : Keyed.find Prod.fst g.1 groups = none :=
        Keyed.find_eq_none.mpr fun x hx heq => hfresh (mem_map.mpr ⟨x, hx, heq⟩)
      simp [hnone, hnil, hroot]
    · rw [if_neg hg]
      split_ifs
      · rw [Function.update_of_ne (Ne.symm hg)]
      · rfl

variable {viewerIsMember : Bool} {rootId : String}

lemma messages_foldPage (batch : List Message) (page : WindowPage) :
    (foldPage viewerIsMember batch page).messages = page.messages := rfl

lemma threads_foldPage {page : WindowPage} (hroot : rootId ∈ page.messages)
    (batch : List Message) : (foldPage viewerIsMember batch page).threads rootId =
      (group rootId batch).foldl (withReply viewerIsMember) (page.threads rootId) := by
  have hfold := @foldl_groups (fun replies summary =>
    (replies.insertionSort fun left right => left.sequence ≤ right.sequence).foldl
      (withReply viewerIsMember) summary) (fun _ => rfl) _ _ hroot _ (nodup_byRoot batch)
        page.threads
  rw [find_byRoot] at hfold
  exact hfold

lemma foldl_foldThreadReplies (batches : List (List Message)) (pages : List WindowPage) :
    batches.foldl (foldThreadReplies viewerIsMember) pages =
      pages.map fun page => batches.foldl (fun page batch => foldPage viewerIsMember batch page)
        page := by
  induction batches generalizing pages with
  | nil => simp
  | cons batch batches ih =>
    rw [foldl_cons, ih, foldThreadReplies, map_map]
    rfl

/-- Over all batches, the summary of a loaded root takes the root's replies one by one. -/
lemma threads_foldl {page : WindowPage} (hroot : rootId ∈ page.messages)
    (batches : List (List Message)) :
    (batches.foldl (fun page batch => foldPage viewerIsMember batch page) page).threads rootId =
      (batches.flatMap (group rootId)).foldl (withReply viewerIsMember) (page.threads rootId) := by
  induction batches generalizing page with
  | nil => rfl
  | cons batch batches ih =>
    have hfolded : rootId ∈ (foldPage viewerIsMember batch page).messages := hroot
    rw [foldl_cons, ih hfolded, threads_foldPage hroot, flatMap_cons, foldl_append]

lemma messages_foldl (batches : List (List Message)) (page : WindowPage) :
    (batches.foldl (fun page batch => foldPage viewerIsMember batch page) page).messages =
      page.messages := by
  induction batches generalizing page with
  | nil => rfl
  | cons batch batches ih => rw [foldl_cons, ih, messages_foldPage]

/-! ### The summary of a list of replies -/

/-- What the server reads of a thread, from its replies and the viewer's cursor. -/
def summarize (viewerIsMember : Bool) (cursor : Nat) (replies : List Message) :
    Option ThreadSummary :=
  if replies = [] then none
  else some {
    replyCount := replies.countP (·.isReply)
    lastReplySequence := (replies.map (·.sequence)).foldl max 0
    lastReplyAt := (replies.map (·.createdAt)).foldl max 0
    unread := if viewerIsMember then
      replies.countP fun m => m.senderKind = .agent ∧ cursor < m.sequence else 0
    latestReplies := (sliceLast threadPreviewReplies (replies.filter (·.isReply))).map (·.preview) }

/-- Replies in the order of their sequences and times. -/
structure Ordered (replies : List Message) : Prop where
  sequence : replies.Pairwise fun x y => x.sequence < y.sequence
  createdAt : replies.Pairwise fun x y => x.createdAt ≤ y.createdAt

lemma Ordered.sublist {xs ys : List Message} (h : Ordered ys) (hsub : List.Sublist xs ys) :
    Ordered xs :=
  ⟨h.sequence.sublist hsub, h.createdAt.sublist hsub⟩

lemma readWindowThreads_eq {c : Conversation} {rootIds : List String}
    (h : Ordered (c.replies rootId)) (hroot : rootId ∈ rootIds) :
    c.readWindowThreads viewerIsMember rootIds rootId =
      summarize viewerIsMember ((c.reads rootId).getD 0) (c.replies rootId) := by
  have hsorted := h.sequence.sublist (filter_sublist (p := (·.isReply)))
  have hpreviews : c.previews rootId =
      (sliceLast threadPreviewReplies ((c.replies rootId).filter (·.isReply))).map (·.preview) := by
    rw [previews, Rising.insertionSort_descending hsorted, take_reverse,
      Rising.insertionSort_reverse (hsorted.sublist (drop_sublist _ _))]
    rfl
  rw [readWindowThreads, if_pos hroot, summaryRow, summarize, hpreviews]
  split_ifs <;> rfl

variable {ns : List Nat} {n : Nat}

lemma foldl_max_le_iff {start : Nat} : ns.foldl max start ≤ n ↔ start ≤ n ∧ ∀ m ∈ ns, m ≤ n := by
  induction ns generalizing start with
  | nil => simp
  | cons m ms ih =>
    rw [foldl_cons, ih, max_le_iff, forall_mem_cons, and_assoc]

lemma le_foldl_max (hn : n ∈ ns) : n ≤ ns.foldl max 0 :=
  (foldl_max_le_iff.mp le_rfl).2 n hn

lemma foldl_max_eq (hn : n ∈ ns) (hle : ∀ m ∈ ns, m ≤ n) : ns.foldl max 0 = n :=
  le_antisymm (foldl_max_le_iff.mpr ⟨Nat.zero_le n, hle⟩) (le_foldl_max hn)

lemma Ordered.createdAt_le {replies : List Message} (h : Ordered replies) {x y : Message}
    (hx : x ∈ replies) (hy : y ∈ replies) (hle : x.sequence ≤ y.sequence) :
    x.createdAt ≤ y.createdAt := by
  have hpair : replies.Pairwise fun x y => x.sequence ≤ y.sequence → x.createdAt ≤ y.createdAt := by
    refine h.createdAt.imp ?_
    intro x y htime _
    exact htime
  have hflip : replies.Pairwise (flip fun x y => x.sequence ≤ y.sequence →
      x.createdAt ≤ y.createdAt) :=
    h.sequence.imp fun hlt hle => absurd hlt (not_lt.mpr hle)
  exact hpair.forall_of_forall_of_flip (fun _ _ _ => le_rfl) hflip hx hy hle

variable {taken : List Message}

lemma newest_of_mem {replies : List Message} (h : Ordered replies) {newest : Message}
    (hnewest : newest ∈ taken) (htaken : ∀ m ∈ taken, m ∈ replies)
    (hle : ∀ m ∈ taken, m.sequence ≤ newest.sequence) :
    (taken.map (·.sequence)).foldl max 0 = newest.sequence ∧
      (taken.map (·.createdAt)).foldl max 0 = newest.createdAt := by
  constructor
  · refine foldl_max_eq (mem_map.mpr ⟨newest, hnewest, rfl⟩) ?_
    intro n hn
    obtain ⟨m, hm, rfl⟩ := mem_map.mp hn
    exact hle m hm
  · refine foldl_max_eq (mem_map.mpr ⟨newest, hnewest, rfl⟩) ?_
    intro n hn
    obtain ⟨m, hm, rfl⟩ := mem_map.mp hn
    exact h.createdAt_le (htaken m hm) (htaken newest hnewest) (hle m hm)

section Fields

variable (viewerIsMember) (cursor : Nat) (replies : List Message)

lemma replyCount_summarize : ((summarize viewerIsMember cursor replies).map (·.replyCount)).getD 0 =
    replies.countP (·.isReply) := by
  by_cases hnil : replies = []
  · rw [summarize, if_pos hnil, hnil]
    rfl
  · rw [summarize, if_neg hnil]
    rfl

lemma unread_summarize : ((summarize viewerIsMember cursor replies).map (·.unread)).getD 0 =
    if viewerIsMember then
      replies.countP fun m => m.senderKind = .agent ∧ cursor < m.sequence else 0 := by
  by_cases hnil : replies = []
  · rw [summarize, if_pos hnil, hnil]
    simp
  · rw [summarize, if_neg hnil]
    rfl

lemma latestReplies_summarize :
    ((summarize viewerIsMember cursor replies).map (·.latestReplies)).getD [] =
      (sliceLast threadPreviewReplies (replies.filter (·.isReply))).map (·.preview) := by
  by_cases hnil : replies = []
  · rw [summarize, if_pos hnil, hnil]
    rfl
  · rw [summarize, if_neg hnil]
    rfl

end Fields

lemma sliceLast_concat (hn : 0 < n) (xs : List Message) (x : Message) :
    sliceLast n ((sliceLast n xs).map (·.preview) ++ [x.preview]) =
      (sliceLast n (xs ++ [x])).map (·.preview) := by
  have hagain : sliceLast (n - 1) (sliceLast n xs) = sliceLast (n - 1) xs := by
    simp only [sliceLast, drop_drop, length_drop]
    congr 1
    omega
  rw [History.sliceLast_append _ (show [x].length ≤ n from hn),
    History.sliceLast_append _ (show [x.preview].length ≤ n from hn), map_append,
    length_singleton, length_singleton, ← hagain]
  simp [sliceLast]

lemma summarize_concat {cursor : Nat} {replies : List Message} {reply : Message}
    (h : Ordered (replies ++ [reply])) (hcursor : cursor < reply.sequence) :
    summarize viewerIsMember cursor (replies ++ [reply]) =
      addReply viewerIsMember (summarize viewerIsMember cursor replies) reply := by
  have hlast (m : Message) (hm : m ∈ replies ++ [reply]) : m.sequence ≤ reply.sequence := by
    rcases mem_append.mp hm with hm | hm
    · exact ((pairwise_append.mp h.sequence).2.2 m hm reply mem_cons_self).le
    · rw [mem_singleton.mp hm]
  obtain ⟨hsequence, htime⟩ := newest_of_mem h (mem_append_right _ mem_cons_self)
    (fun _ hm => hm) hlast
  have hfilter : (replies ++ [reply]).filter (·.isReply) =
      replies.filter (·.isReply) ++ if reply.isReply then [reply] else [] := by
    rw [filter_append]
    by_cases hreply : reply.isReply <;> simp [hreply]
  rw [addReply, replyCount_summarize, unread_summarize, latestReplies_summarize, summarize,
    if_neg (by simp), hsequence, htime]
  refine congrArg some ?_
  refine ThreadSummary.mk.injEq .. |>.mpr ⟨?_, rfl, rfl, ?_, ?_⟩
  · rw [countP_append, countP_singleton]
  · by_cases hmember : viewerIsMember
    · by_cases hagent : reply.senderKind = .agent <;> simp [hmember, hagent, hcursor]
    · simp [hmember]
  · rw [hfilter]
    split_ifs
    · exact (sliceLast_concat (by decide) _ _).symm
    · rw [append_nil]

lemma summarize_append {cursor : Nat} {replies : List Message} (h : Ordered (replies ++ taken))
    (hcursor : ∀ m ∈ taken, cursor < m.sequence) :
    summarize viewerIsMember cursor (replies ++ taken) =
      taken.foldl (addReply viewerIsMember) (summarize viewerIsMember cursor replies) := by
  induction taken using reverseRecOn with
  | nil => rw [append_nil, foldl_nil]
  | append_singleton taken reply ih =>
    rw [← append_assoc] at h
    have hprefix := ih (h.sublist (sublist_append_left _ _))
      fun m hm => hcursor m (mem_append_left _ hm)
    rw [← append_assoc, summarize_concat h (hcursor reply (by simp)), hprefix, foldl_append]
    rfl

/-- Two parts of a thread have the same summary if they have the same replies of people and the
same newest entry. -/
lemma summarize_congr {cursor : Nat} {replies all : List Message} {newest : Message}
    (h : Ordered (replies ++ all)) (hnewest : newest ∈ taken) (htaken : ∀ m ∈ taken, m ∈ all)
    (hle : ∀ m ∈ replies ++ all, m.sequence ≤ newest.sequence)
    (hfilter : taken.filter (·.isReply) = all.filter (·.isReply)) :
    summarize viewerIsMember cursor (replies ++ taken) =
      summarize viewerIsMember cursor (replies ++ all) := by
  have hmem (m : Message) (hm : m ∈ replies ++ taken) : m ∈ replies ++ all := by
    rcases mem_append.mp hm with hm | hm
    · exact mem_append_left _ hm
    · exact mem_append_right _ (htaken m hm)
  obtain ⟨hsequence, htime⟩ := newest_of_mem h (mem_append_right replies hnewest) hmem
    fun m hm => hle m (hmem m hm)
  obtain ⟨hsequence', htime'⟩ := newest_of_mem h
    (mem_append_right replies (htaken newest hnewest)) (fun _ hm => hm) hle
  have hfilters : (replies ++ taken).filter (·.isReply) = (replies ++ all).filter (·.isReply) := by
    rw [filter_append, filter_append, hfilter]
  have hcount (xs : List Message) : xs.countP (·.isReply) = (xs.filter (·.isReply)).length :=
    countP_eq_length_filter
  have hunread (xs : List Message) :
      xs.countP (fun m => m.senderKind = .agent ∧ cursor < m.sequence) =
        (xs.filter (·.isReply)).countP fun m => m.senderKind = .agent ∧ cursor < m.sequence := by
    rw [countP_filter]
    refine countP_congr fun m _ => ?_
    by_cases hagent : m.senderKind = .agent <;> simp [hagent, Message.isReply]
  have hne : replies ++ taken ≠ [] := append_ne_nil_of_right_ne_nil _ (ne_nil_of_mem hnewest)
  have hne' : replies ++ all ≠ [] :=
    append_ne_nil_of_right_ne_nil _ (ne_nil_of_mem (htaken newest hnewest))
  rw [summarize, summarize, if_neg hne, if_neg hne', hsequence, htime, hsequence', htime', hcount,
    hcount, hunread, hunread (replies ++ all), hfilters]

/-! ### What arrives in turn -/

/-- A newer reply of the same thread arrived in a batch before the first one with this reply. -/
def Overtaken (batches : List (List Message)) (reply : Message) : Prop :=
  ∃ earlier later, batches = earlier ++ later ∧ reply ∉ earlier.flatten ∧
    ∃ m ∈ earlier.flatten, m.threadRootId = reply.threadRootId ∧ reply.sequence < m.sequence

variable {batches : List (List Message)}

lemma mem_flatMap_group :
    m ∈ batches.flatMap (group rootId) ↔ m ∈ batches.flatten ∧ m.threadRootId = some rootId := by
  simp only [mem_flatMap, mem_group, mem_flatten]
  constructor
  · rintro ⟨batch, hbatch, hm, hroot⟩
    exact ⟨⟨batch, hbatch, hm⟩, hroot⟩
  · rintro ⟨⟨batch, hbatch, hm⟩, hroot⟩
    exact ⟨batch, hbatch, hm, hroot⟩

lemma exists_first_batch (h : m ∈ batches.flatten) :
    ∃ earlier batch later, batches = earlier ++ batch :: later ∧ m ∈ batch ∧
      m ∉ earlier.flatten := by
  induction batches with
  | nil => cases h
  | cons batch batches ih =>
    by_cases hm : m ∈ batch
    · exact ⟨[], batch, batches, rfl, hm, by simp⟩
    · have hrest : m ∈ batches.flatten := by
        rw [flatten_cons] at h
        exact (mem_append.mp h).resolve_left hm
      obtain ⟨earlier, first, later, rfl, hfirst, hearlier⟩ := ih hrest
      refine ⟨batch :: earlier, first, later, rfl, hfirst, ?_⟩
      rw [flatten_cons, mem_append, not_or]
      exact ⟨hm, hearlier⟩

lemma mem_rising_iff {mark : WithBot Nat} {reply : Message}
    (hroot : reply.threadRootId = some rootId) (hmark : mark < reply.sequence)
    (harrives : reply ∈ batches.flatten)
    (hdistinct : ∀ m ∈ batches.flatMap (group rootId), m.sequence = reply.sequence → m = reply) :
    reply ∈ rising (·.sequence) mark (batches.flatMap (group rootId)) ↔
      ¬Overtaken batches reply := by
  rw [Rising.mem_rising]
  constructor
  · rintro ⟨-, before, after, hsplit, hbefore⟩ ⟨earlier, later, rfl, habsent, m, hm, hthread, hnewer⟩
    have hm' : m ∈ earlier.flatMap (group rootId) :=
      mem_flatMap_group.mpr ⟨hm, hthread.trans hroot⟩
    have habsent' : reply ∉ earlier.flatMap (group rootId) :=
      fun hin => habsent (mem_flatMap_group.mp hin).1
    rw [flatMap_append] at hsplit
    rcases append_eq_append_iff.mp hsplit with ⟨more, hb, -⟩ | ⟨more, he, hl⟩
    · have hlt := hbefore m (hb ▸ mem_append_left _ hm')
      exact absurd hnewer (Nat.lt_asymm hlt)
    · cases more with
      | nil =>
        rw [append_nil] at he
        exact absurd hnewer (Nat.lt_asymm (hbefore m (he ▸ hm')))
      | cons x more =>
        obtain ⟨rfl, -⟩ := cons.inj hl
        exact absurd (he ▸ mem_append_right _ mem_cons_self) habsent'
  · intro hturn
    obtain ⟨earlier, batch, later, rfl, hbatch, habsent⟩ := exists_first_batch harrives
    obtain ⟨before, after, hsplit, hfirst⟩ :=
      eq_append_cons_of_mem (mem_group.mpr ⟨hbatch, hroot⟩)
    refine ⟨hmark, earlier.flatMap (group rootId) ++ before,
      after ++ later.flatMap (group rootId), ?_, fun m hm => ?_⟩
    · rw [flatMap_append, flatMap_cons, hsplit]
      simp
    have harrived : m ∈ (earlier ++ batch :: later).flatMap (group rootId) := by
      rw [flatMap_append, flatMap_cons, hsplit]
      rcases mem_append.mp hm with hm | hm
      · exact mem_append_left _ hm
      · exact mem_append_right _ (mem_append_left _ (mem_append_left _ hm))
    have hother : m ≠ reply := by
      rintro rfl
      rcases mem_append.mp hm with hm | hm
      · exact habsent (mem_flatMap_group.mp hm).1
      · exact hfirst hm
    have hle : m.sequence ≤ reply.sequence := by
      rcases mem_append.mp hm with hm | hm
      · obtain ⟨hm, hthread⟩ := mem_flatMap_group.mp hm
        by_contra hnewer
        exact hturn ⟨earlier, batch :: later, rfl, habsent, m, hm, hthread.trans hroot.symm,
          not_le.mp hnewer⟩
      · have hsorted := @Rising.pairwise_insertionSort Message Nat _ (·.sequence)
          (batch.filter fun m => m.threadRootId = some rootId)
        rw [show (batch.filter fun m => m.threadRootId = some rootId).insertionSort
          (fun x y => x.sequence ≤ y.sequence) = before ++ reply :: after from hsplit] at hsorted
        exact (pairwise_append.mp hsorted).2.2 m hm reply mem_cons_self
    exact lt_of_le_of_ne hle fun heq => hother (hdistinct m harrived heq)

/-- The newest sequence a summary reflects. -/
def mark (summary : Option ThreadSummary) : WithBot Nat :=
  summary.elim ⊥ fun known => known.lastReplySequence

lemma foldl_withReply (summary : Option ThreadSummary) (replies : List Message) :
    replies.foldl (withReply viewerIsMember) summary =
      (rising (·.sequence) (mark summary) replies).foldl (addReply viewerIsMember) summary := by
  refine @Rising.foldl_skip Message Nat _ _ (·.sequence) mark _ _ (fun s m hle => ?_)
    (fun s m hlt => ?_) (fun s m _ => rfl) summary replies
  · cases s with
    | none => exact absurd hle (not_le.mpr (WithBot.bot_lt_coe _))
    | some known => exact if_pos (WithBot.coe_le_coe.mp hle)
  · cases s with
    | none => rfl
    | some known => exact if_neg fun hle => hlt (WithBot.coe_le_coe.mpr hle)

lemma le_mark_summarize {cursor : Nat} {replies : List Message} (hm : m ∈ replies) :
    (m.sequence : WithBot Nat) ≤ mark (summarize viewerIsMember cursor replies) := by
  rw [summarize, if_neg (ne_nil_of_mem hm)]
  exact WithBot.coe_le_coe.mpr (le_foldl_max (mem_map.mpr ⟨m, hm, rfl⟩))

lemma mark_summarize_lt {cursor k : Nat} {replies : List Message}
    (h : ∀ m ∈ replies, m.sequence < k) : mark (summarize viewerIsMember cursor replies) < k := by
  by_cases hnil : replies = []
  · rw [summarize, if_pos hnil]
    exact WithBot.bot_lt_coe k
  · obtain ⟨m, hm⟩ := exists_mem_of_ne_nil _ hnil
    rw [summarize, if_neg hnil]
    refine WithBot.coe_lt_coe.mpr (Nat.lt_of_le_pred (Nat.zero_lt_of_lt (h m hm)) ?_)
    refine foldl_max_le_iff.mpr ⟨Nat.zero_le _, fun n hn => ?_⟩
    obtain ⟨x, hx, rfl⟩ := mem_map.mp hn
    exact Nat.le_pred_of_lt (h x hx)

/-- The summary of the replies that were read, with the later ones folded in, is the summary of
all exactly if no later reply of a person was overtaken. -/
lemma foldl_eq_summarize_iff {cursor : Nat} {replies all : List Message} (h : Ordered (replies ++ all))
    (hroot : ∀ m ∈ all, m.threadRootId = some rootId) (hcursor : ∀ m ∈ all, cursor < m.sequence)
    (hknown : ∀ m ∈ batches.flatMap (group rootId), m ∈ replies ++ all)
    (hall : ∀ m ∈ all, m ∈ batches.flatten) :
    (batches.flatMap (group rootId)).foldl (withReply viewerIsMember)
        (summarize viewerIsMember cursor replies) =
      summarize viewerIsMember cursor (replies ++ all) ↔
        ∀ m ∈ all, m.isReply → ¬Overtaken batches m := by
  have hmark (m : Message) (hm : m ∈ all) :
      mark (summarize viewerIsMember cursor replies) < m.sequence :=
    mark_summarize_lt fun x hx => (pairwise_append.mp h.sequence).2.2 x hx m hm
  have hturn (m : Message) (hm : m ∈ all) :
      m ∈ rising (·.sequence) (mark (summarize viewerIsMember cursor replies))
        (batches.flatMap (group rootId)) ↔ ¬Overtaken batches m :=
    mem_rising_iff (hroot m hm) (hmark m hm) (hall m hm) fun x hx heq =>
      Rising.eq_of_key h.sequence (hknown x hx) (mem_append_right _ hm) heq
  rw [foldl_withReply]
  generalize htaken : rising (·.sequence) (mark (summarize viewerIsMember cursor replies))
    (batches.flatMap (group rootId)) = taken at hturn ⊢
  have hmem (m : Message) (hm : m ∈ taken) : m ∈ all := by
    rw [← htaken] at hm
    have habove := Rising.lt_of_mem_rising hm
    rcases mem_append.mp (hknown m ((Rising.sublist_rising _ _).subset hm)) with hold | hnew
    · exact absurd (le_mark_summarize hold) (not_le.mpr habove)
    · exact hnew
  have hsorted : taken.Pairwise fun x y => x.sequence < y.sequence :=
    htaken ▸ Rising.pairwise_rising _ _
  have hsub : Sublist taken all :=
    Rising.sublist_of_subset hsorted (pairwise_append.mp h.sequence).2.1 hmem
  have hordered : Ordered (replies ++ taken) := h.sublist (hsub.append_left replies)
  rw [← summarize_append hordered fun m hm => hcursor m (hmem m hm)]
  constructor
  · intro heq m hm hreply
    have hcount := congrArg (fun s => (s.map (·.replyCount)).getD 0) heq
    simp only [replyCount_summarize, countP_append] at hcount
    rw [Nat.add_left_cancel_iff, countP_eq_length_filter, countP_eq_length_filter] at hcount
    have hfilter := (hsub.filter (·.isReply)).eq_of_length hcount
    have hin : m ∈ taken.filter (·.isReply) := hfilter ▸ mem_filter.mpr ⟨hm, hreply⟩
    exact (hturn m hm).mp (mem_of_mem_filter hin)
  · intro hnone
    cases hlast : all.getLast? with
    | none =>
      rw [getLast?_eq_none_iff] at hlast
      subst hlast
      rw [sublist_nil.mp hsub]
    | some newest =>
      obtain ⟨init, rfl⟩ := getLast?_eq_some_iff.mp hlast
      have hin : newest ∈ init ++ [newest] := mem_append_right _ mem_cons_self
      have hle (m : Message) (hm : m ∈ replies ++ (init ++ [newest])) :
          m.sequence ≤ newest.sequence := by
        rw [← append_assoc] at hm h
        rcases mem_append.mp hm with hm | hm
        · exact ((pairwise_append.mp h.sequence).2.2 m hm newest mem_cons_self).le
        · rw [mem_singleton.mp hm]
      -- nothing overtakes the newest reply of all
      have hnewest : newest ∈ taken := by
        refine (hturn newest hin).mpr ?_
        rintro ⟨earlier, later, rfl, -, m, hm, hthread, hlt⟩
        have harrived : m ∈ (earlier ++ later).flatMap (group rootId) := by
          rw [flatMap_append]
          exact mem_append_left _
            (mem_flatMap_group.mpr ⟨hm, hthread.trans (hroot newest hin)⟩)
        exact absurd hlt (not_lt.mpr (hle m (hknown m harrived)))
      refine summarize_congr h hnewest hmem hle ((hsub.filter _).antisymm ?_)
      refine Rising.sublist_of_subset
        ((pairwise_append.mp h.sequence).2.1.sublist (filter_sublist ..))
        (hsorted.sublist (filter_sublist ..)) fun m hm => ?_
      obtain ⟨hm, hreply⟩ := mem_filter.mp hm
      exact mem_filter.mpr ⟨(hturn m hm).mpr (hnone m hm hreply), hreply⟩

/-! ### The conversation over time -/

namespace Conversation

/-- What holds of a conversation at any time. -/
structure Sound (c : Conversation) : Prop where
  ordered : Ordered c.messages
  positive : ∀ m ∈ c.messages, 0 < m.sequence
  read : ∀ rootId n, c.reads rootId = some n → ∃ m ∈ c.replies rootId, m.sequence = n

variable {c : Conversation}

lemma mem_replies {m : Message} :
    m ∈ c.replies rootId ↔ m ∈ c.messages ∧ m.threadRootId = some rootId := by
  simp [replies]

lemma sequence_of_latestThrough {through n : Nat}
    (h : c.latestThrough rootId through = some n) : ∃ m ∈ c.replies rootId, m.sequence = n := by
  obtain ⟨m, hm, hn⟩ := mem_map.mp (max?_mem h)
  exact ⟨m, mem_of_mem_filter hm, hn⟩

lemma ordered_concat {messages : List Message} {message : Message} (h : Ordered messages)
    (hlast : ∀ m ∈ messages, m.sequence < message.sequence ∧ m.createdAt ≤ message.createdAt) :
    Ordered (messages ++ [message]) := by
  refine ⟨pairwise_append.mpr ⟨h.sequence, pairwise_singleton _ _, fun m hm x hx => ?_⟩,
    pairwise_append.mpr ⟨h.createdAt, pairwise_singleton _ _, fun m hm x hx => ?_⟩⟩
  · rw [mem_singleton.mp hx]
    exact (hlast m hm).1
  · rw [mem_singleton.mp hx]
    exact (hlast m hm).2

lemma sound_step {c' : Conversation} {event : Event} (h : c.Sound)
    (hstep : step c event = some c') : c'.Sound ∧ c.messages <+: c'.messages := by
  cases event with
  | post message =>
    obtain ⟨⟨hpositive, hlast⟩, hc⟩ := Option.ite_none_right_eq_some.mp hstep
    cases hc
    refine ⟨⟨ordered_concat h.ordered hlast, fun m hm => ?_, fun rootId n hn => ?_⟩,
      prefix_append _ _⟩
    · rcases mem_append.mp hm with hm | hm
      · exact h.positive m hm
      · rw [mem_singleton.mp hm]
        exact hpositive
    · obtain ⟨m, hm, heq⟩ := h.read rootId n hn
      obtain ⟨hm, hroot⟩ := mem_replies.mp hm
      exact ⟨m, mem_replies.mpr ⟨mem_append_left _ hm, hroot⟩, heq⟩
  | markThreadRead rootMessageId throughSequence =>
    simp only [step] at hstep
    split at hstep
    · cases hstep
      exact ⟨h, prefix_rfl⟩
    · next latest hlatest =>
      cases hstep
      refine ⟨⟨h.ordered, h.positive, fun rootId n hn => ?_⟩, prefix_rfl⟩
      by_cases hroot : rootId = rootMessageId
      · subst hroot
        simp only [Function.update_self, Option.some.injEq] at hn
        rcases max_choice ((c.reads rootId).getD 0) latest with hmax | hmax
        · cases hread : c.reads rootId with
          | none =>
            have hzero : latest = n := by
              rw [hread] at hn
              simpa using hn
            exact hzero ▸ sequence_of_latestThrough hlatest
          | some known =>
            rw [hmax, hread] at hn
            exact hn ▸ h.read rootId known hread
        · exact hn ▸ hmax.symm ▸ sequence_of_latestThrough hlatest
      · have hother : c.reads rootId = some n := by
          rw [← hn]
          exact (Function.update_of_ne hroot _ _).symm
        exact h.read rootId n hother

lemma sound_run {c' : Conversation} {events : List Event} (h : c.Sound)
    (hrun : run step c events = some c') : c'.Sound ∧ c.messages <+: c'.messages := by
  have hok : Transition.Permitted step (fun _ _ => True) c events :=
    Transition.permitted_of_forall (fun _ _ => trivial) _ _
  constructor
  · exact Transition.invariant (fun s l t hs _ hl => (sound_step hs hl).1) h hok hrun
  · exact @Transition.relation _ _ step _ _ (fun c c' => c.messages <+: c'.messages)
      (fun _ => prefix_rfl) (fun _ _ _ => IsPrefix.trans)
      (fun s l t hs _ hl => sound_step hs hl) _ _ _ h hok hrun

lemma sound_empty : empty.Sound where
  ordered := ⟨.nil, .nil⟩
  positive _ hm := absurd hm not_mem_nil
  read _ _ hn := by cases hn

end Conversation

open Conversation (empty) in
/-- A window's page was read at one moment, and by a later one all replies of the thread that came
since have arrived, in whatever batches: then the summary is the server's, for a cursor that has
not moved, exactly if no reply of a person was overtaken by a newer one. -/
theorem folded_eq_read_iff {rootId : String} {viewerIsMember : Bool} {c c' : Conversation}
    {events₀ events : List Conversation.Event} {pages : List WindowPage} {page : WindowPage}
    {i : Nat} {batches : List (List Message)}
    (hstart : run Conversation.step empty events₀ = some c)
    (hrun : run Conversation.step c events = some c') (hcursor : c'.reads rootId = c.reads rootId)
    (hpage : pages[i]? = some page) (hroot : rootId ∈ page.messages)
    (hread : page.threads rootId = c.readWindowThreads viewerIsMember page.messages rootId)
    (hknown : ∀ batch ∈ batches, ∀ m ∈ batch, m.threadRootId = some rootId → m ∈ c'.messages)
    (hall : ∀ m ∈ c'.replies rootId, m ∉ c.messages → ∃ batch ∈ batches, m ∈ batch) :
    ∃ page', (batches.foldl (foldThreadReplies viewerIsMember) pages)[i]? = some page' ∧
      page'.messages = page.messages ∧
      (page'.threads rootId = c'.readWindowThreads viewerIsMember page'.messages rootId ↔
        ∀ m ∈ c'.replies rootId, m ∉ c.messages → m.isReply → ¬Overtaken batches m) := by
  obtain ⟨hc, -⟩ := sound_run sound_empty hstart
  obtain ⟨hc', added, hadded⟩ := sound_run hc hrun
  have hreplies : c'.replies rootId =
      c.replies rootId ++ added.filter fun m => m.threadRootId = some rootId := by
    rw [replies, ← hadded, filter_append]
    rfl
  have hordered : Ordered (c'.replies rootId) := hc'.ordered.sublist filter_sublist
  have hlast (m : Message) (hm : m ∈ added) (x : Message) (hx : x ∈ c.messages) :
      x.sequence < m.sequence := by
    have hsorted := hc'.ordered.sequence
    rw [← hadded] at hsorted
    exact (pairwise_append.mp hsorted).2.2 x hx m hm
  have hnew (m : Message) : m ∈ added.filter (fun m => m.threadRootId = some rootId) ↔
      m ∈ c'.replies rootId ∧ m ∉ c.messages := by
    rw [hreplies, mem_append]
    constructor
    · intro hm
      refine ⟨.inr hm, fun hold => ?_⟩
      exact absurd (hlast m (mem_of_mem_filter hm) m hold) (lt_irrefl _)
    · rintro ⟨hold | hm, hfresh⟩
      · exact absurd (mem_replies.mp hold).1 hfresh
      · exact hm
  refine ⟨batches.foldl (fun page batch => foldPage viewerIsMember batch page) page, ?_,
    messages_foldl batches page, ?_⟩
  · rw [foldl_foldThreadReplies, getElem?_map, hpage, Option.map_some]
  · rw [messages_foldl, threads_foldl hroot, hread,
      readWindowThreads_eq (hc.ordered.sublist filter_sublist) hroot,
      readWindowThreads_eq hordered hroot, hcursor, hreplies]
    rw [hreplies] at hordered
    rw [foldl_eq_summarize_iff hordered]
    · simp only [hnew, hreplies, and_imp]
    · exact fun m hm => of_decide_eq_true (mem_filter.mp hm).2
    · intro m hm
      have hadded' := mem_of_mem_filter hm
      cases hcursor' : c.reads rootId with
      | none => exact hc'.positive m (hadded ▸ mem_append_right _ hadded')
      | some n =>
        obtain ⟨x, hx, rfl⟩ := hc.read rootId n hcursor'
        exact hlast m hadded' x (mem_replies.mp hx).1
    · intro m hm
      obtain ⟨hm, hthread⟩ := mem_flatMap_group.mp hm
      obtain ⟨batch, hbatch, hm⟩ := mem_flatten.mp hm
      rw [← hreplies]
      exact mem_replies.mpr ⟨hknown batch hbatch m hm hthread, hthread⟩
    · intro m hm
      obtain ⟨hm, hfresh⟩ := (hnew m).mp hm
      obtain ⟨batch, hbatch, hm⟩ := hall m hm hfresh
      exact mem_flatten.mpr ⟨batch, hbatch, hm⟩

/-! ### A reply that an own send overtook -/

def sampleMessage (id : String) (sequence : Nat) (threadRootId : Option String)
    (senderKind : SenderKind) : Message where
  id := id
  sequence := sequence
  threadRootId := threadRootId
  senderKind := senderKind
  senderName := "name"
  senderAvatarUrl := none
  senderDeleted := false
  body := []
  createdAt := sequence

def sampleReply : Message := sampleMessage "reply" 2 (some "root") .agent

def ownReply : Message := sampleMessage "own" 3 (some "root") .user

/-- A conversation with one root. -/
def rooted : Conversation := ⟨[sampleMessage "root" 1 none .user], fun _ => none⟩

/-- The Agent answers, and then the viewer. -/
def answered : Conversation := { rooted with messages := rooted.messages ++ [sampleReply, ownReply] }

def rootPage : WindowPage := ⟨["root"], fun _ => none⟩

theorem folded_loses_overtaken : ¬ ∀ (rootId : String) (viewerIsMember : Bool) (c c' : Conversation)
      (events₀ events : List Conversation.Event) (pages : List WindowPage) (page : WindowPage)
      (i : Nat) (batches : List (List Message)),
      run Conversation.step Conversation.empty events₀ = some c →
      run Conversation.step c events = some c' → c'.reads rootId = c.reads rootId →
      pages[i]? = some page → rootId ∈ page.messages →
      page.threads rootId = c.readWindowThreads viewerIsMember page.messages rootId →
      (∀ batch ∈ batches, ∀ m ∈ batch, m.threadRootId = some rootId → m ∈ c'.messages) →
      (∀ m ∈ c'.replies rootId, ∃ batch ∈ batches, m ∈ batch) →
      ∀ page', (batches.foldl (foldThreadReplies viewerIsMember) pages)[i]? = some page' →
        (page'.threads rootId).map (·.replyCount) =
          (c'.readWindowThreads viewerIsMember page'.messages rootId).map (·.replyCount) := by
  intro h
  have heq := h "root" true rooted answered [.post (sampleMessage "root" 1 none .user)]
    [.post sampleReply, .post ownReply] [rootPage] rootPage 0 [[ownReply], [sampleReply]] rfl rfl rfl
    rfl (by decide) rfl (by decide) (by decide) _ rfl
  exact absurd heq (by decide)

/-- Arriving in turn, the two replies leave the summary that the server reads. -/
theorem folded_eq_read_iff_inTurn :
    ∃ page', ([[sampleReply], [ownReply, sampleReply]].foldl (foldThreadReplies true)
        [rootPage])[0]? = some page' ∧ page'.messages = rootPage.messages ∧
      (page'.threads "root" = answered.readWindowThreads true page'.messages "root" ↔
        ∀ m ∈ answered.replies "root", m ∉ rooted.messages → m.isReply →
          ¬Overtaken [[sampleReply], [ownReply, sampleReply]] m) :=
  @folded_eq_read_iff "root" true rooted answered [.post (sampleMessage "root" 1 none .user)]
    [.post sampleReply, .post ownReply] [rootPage] rootPage 0 _ rfl rfl rfl rfl (by decide) rfl
    (by decide) (by decide)

end Coforge.Threads
