import Coforge.Reconciliation.World

/-!
# Reconciliation shows everything

What the cursor has passed is in the window or its buffer, and in the threads. A page that is not
full is all that had arrived since it was asked for, so a drain that finishes has brought whatever
was there at the last call.
-/

namespace Coforge.Reconciliation

open Transition List Option

/-! ### What merging keeps -/

section Merging

variable {w : World} {updates : List Message} {m r : Message} {moment : Nat} {thread : ThreadQuery}

lemma messagesOf_foldSummaries (pages : List WindowPage) (replies : List Message) :
    messagesOf (foldSummaries pages replies) = messagesOf pages := by
  rw [messagesOf, messagesOf, flatMap_def, flatMap_def, foldSummaries_messages]

lemma ids_append (xs ys : List Message) : ids (xs ++ ys) = ids xs ++ ids ys := map_append

lemma ids_messagesOf_concat (older : List WindowPage) (page : WindowPage) (i : String) :
    i ∈ ids (messagesOf (older ++ [page])) ↔ i ∈ ids (messagesOf older) ∨ i ∈ ids page.messages := by
  simp [messagesOf, ids_append]

lemma shows_foldRoots {roots : List Message} (hpages : w.pages ≠ [])
    (h : w.shows m ∨ m ∈ roots) : (w.foldRoots roots).shows m := by
  rw [World.foldRoots, getLast?_eq_some_getLast hpages]
  dsimp only
  split_ifs with hroots
  · subst hroots
    exact h.resolve_right not_mem_nil
  · have hid : m ∈ roots → m.id ∈ ids roots := mem_map_of_mem
    have hshown : w.shows m ↔ (m.id ∈ ids (messagesOf w.pages.dropLast) ∨
        m.id ∈ ids (w.pages.getLast hpages).messages) ∨ m.id ∈ ids w.pending := by
      rw [World.shows, ← ids_messagesOf_concat, dropLast_append_getLast hpages]
    rw [hshown] at h
    rw [World.shows, updateLast, ids_messagesOf_concat, foldWindowUpdates]
    split_ifs <;> simp only [mem_ids_mergeMessages, ids_append, mem_append] <;> tauto

lemma foldRoots_eq (w : World) (roots : List Message) :
    (w.foldRoots roots).committed = w.committed ∧ (w.foldRoots roots).start = w.start ∧
      (w.foldRoots roots).threads = w.threads ∧ (w.foldRoots roots).reconciler = w.reconciler ∧
      (w.foldRoots roots).wanted = w.wanted := by
  rw [World.foldRoots]
  split
  · split_ifs <;> exact ⟨rfl, rfl, rfl, rfl, rfl⟩
  · exact ⟨rfl, rfl, rfl, rfl, rfl⟩

lemma shows_mergeUpdates (hpages : w.pages ≠ [])
    (h : w.shows m ∨ m ∈ updates ∧ m.topLevel) : (w.mergeUpdates updates).shows m := by
  have hfolded : (w.foldRoots (updates.filter Message.topLevel)).shows m :=
    shows_foldRoots hpages (h.imp_right fun h => mem_filter.mpr h)
  rw [World.mergeUpdates, World.shows, messagesOf_foldSummaries]
  exact hfolded

lemma mergeUpdates_eq (w : World) (updates : List Message) :
    (w.mergeUpdates updates).committed = w.committed ∧ (w.mergeUpdates updates).start = w.start ∧
      (w.mergeUpdates updates).reconciler = w.reconciler ∧
      (w.mergeUpdates updates).wanted = w.wanted ∧ (w.mergeUpdates updates).threads =
        foldThreads w.threads updates w.committed.length := by
  obtain ⟨hcommitted, hstart, hthreads, hreconciler, hwanted⟩ :=
    foldRoots_eq w (updates.filter Message.topLevel)
  refine ⟨hcommitted, hstart, hreconciler, hwanted, ?_⟩
  rw [World.mergeUpdates]
  dsimp only
  rw [hthreads, hcommitted]

lemma mergeUpdates_pages (hpages : w.pages ≠ []) : (w.mergeUpdates updates).pages ≠ [] := by
  have hfolded : (w.foldRoots (updates.filter Message.topLevel)).pages ≠ [] := by
    rw [World.foldRoots]
    split
    · split_ifs
      · exact hpages
      · simp [updateLast]
    · exact hpages
  rw [World.mergeUpdates]
  simpa [foldSummaries] using hfolded

/-! ### What the threads hold -/

/-- What a thread holds was there when the read of it that is under way was made. -/
def ThreadQuery.Fetched (committed : List Message) (thread : ThreadQuery) : Prop :=
  ∀ loaded ∈ thread.replies, ∀ x ∈ loaded, x ∈ committed ∧
    ∀ since ∈ thread.reading, x ∈ committed.take since

lemma mem_of_mem_mergeMessages {base incoming : List Message} (h : m ∈ mergeMessages base incoming) :
    m ∈ base ∨ m ∈ incoming := by
  have hput : ∀ l byId : List Message,
      m ∈ l.foldl (fun byId x => Keyed.put Message.id x byId) byId → m ∈ byId ∨ m ∈ l := by
    intro l
    induction l with
    | nil => exact fun _ h => .inl h
    | cons x xs ih =>
      intro byId h
      rcases ih _ h with h | h
      · rcases Keyed.mem_of_mem_put h with rfl | h
        · exact .inr mem_cons_self
        · exact .inl h
      · exact .inr (mem_cons_of_mem x h)
  rw [mergeMessages, mem_mergeSort] at h
  rcases hput _ _ h with h | h
  · cases h
  · exact mem_append.mp h

end Merging

section Threads

variable {committed group : List Message} {thread : ThreadQuery} {r : Message}

lemma mem_ids (h : r ∈ group) : r.id ∈ ids group := mem_map_of_mem h

lemma fetched_startReadOver (h : ∀ loaded ∈ thread.replies, ∀ x ∈ loaded, x ∈ committed) :
    (startReadOver thread committed.length).Fetched committed := by
  intro loaded hloaded x hx
  refine ⟨h loaded hloaded x hx, ?_⟩
  intro since hsince
  obtain ⟨_, -, rfl⟩ := map_eq_some_iff.mp hsince
  rw [take_length]
  exact h loaded hloaded x hx

lemma fetched_foldThread (hunique : ∀ x ∈ committed, ∀ y ∈ committed, x.id = y.id → x = y)
    (hgroup : ∀ x ∈ group, x ∈ committed) (h : thread.Fetched committed) :
    (foldThread thread group committed.length).Fetched committed := by
  rw [foldThread]
  cases hreplies : thread.replies with
  | none =>
    intro loaded hloaded
    rw [startReadOver, hreplies] at hloaded
    cases hloaded
  | some loaded =>
    have hmerged : ∀ x ∈ mergeMessages loaded group, x ∈ committed := by
      intro x hx
      rcases mem_of_mem_mergeMessages hx with hx | hx
      · exact (h loaded hreplies x hx).1
      · exact hgroup x hx
    dsimp only
    split_ifs with hnew
    · refine fetched_startReadOver ?_
      rintro _ ⟨⟩
      exact hmerged
    · -- Nothing is new, so what is merged was loaded.
      rintro _ ⟨⟩ x hx
      refine ⟨hmerged x hx, ?_⟩
      have hloaded : x ∈ loaded := by
        rcases mem_of_mem_mergeMessages hx with hx' | hx'
        · exact hx'
        · have hheld : x.id ∈ ids loaded := by
            by_contra hnot
            exact hnew (any_eq_true.mpr ⟨x, hx', by simpa using hnot⟩)
          obtain ⟨y, hy, hyx⟩ := mem_map.mp hheld
          rw [← hunique y (h loaded hreplies y hy).1 x (hgroup x hx') hyx]
          exact hy
      exact (h loaded hreplies x hloaded).2

lemma holds_startReadOver (hr : r ∈ committed) (h : ∀ loaded ∈ thread.replies, r.id ∈ ids loaded) :
    (startReadOver thread committed.length).Holds committed r := by
  refine ⟨h, ?_⟩
  intro since hsince
  obtain ⟨_, -, rfl⟩ := map_eq_some_iff.mp hsince
  rwa [take_length]

lemma holds_foldThread (hunique : ∀ x ∈ committed, ∀ y ∈ committed, x.id = y.id → x = y)
    (hgroup : ∀ x ∈ group, x ∈ committed) (hfetched : thread.Fetched committed)
    (hr : r ∈ committed) (h : thread.Holds committed r ∨ r ∈ group) :
    (foldThread thread group committed.length).Holds committed r := by
  have hids : ∀ loaded ∈ thread.replies, r.id ∈ ids (mergeMessages loaded group) := by
    intro loaded hloaded
    rw [mem_ids_mergeMessages]
    exact h.imp (fun h => h.1 loaded hloaded) mem_ids
  have hfolded := fetched_foldThread hunique hgroup hfetched
  rw [foldThread] at hfolded ⊢
  cases hreplies : thread.replies with
  | none =>
    refine holds_startReadOver hr ?_
    rw [hreplies]
    rintro _ ⟨⟩
  | some loaded =>
    simp only [hreplies] at hfolded ⊢
    have hmerged := hids loaded hreplies
    split_ifs at hfolded ⊢ with hnew
    · refine holds_startReadOver hr ?_
      rintro _ ⟨⟩
      exact hmerged
    · refine ⟨?_, ?_⟩
      · rintro _ ⟨⟩
        exact hmerged
      · intro since hsince
        obtain ⟨y, hy, hyr⟩ := mem_map.mp hmerged
        obtain ⟨hcommitted, hread⟩ := hfolded _ rfl y hy
        rw [← hunique y hcommitted r hr hyr]
        exact hread since hsince

end Threads

/-! ### The invariant -/

/-- A sequence is no later than the newest message. -/
def Reached (committed : List Message) (n : Nat) : Prop :=
  n = 0 ∨ ∃ m ∈ committed, n ≤ m.sequence

/-- What does not concern the reconciler. -/
structure World.Sound (w : World) : Prop where
  sorted : w.committed.Pairwise fun x y => x.sequence < y.sequence
  positive : ∀ m ∈ w.committed, 0 < m.sequence
  unique : ∀ x ∈ w.committed, ∀ y ∈ w.committed, x.id = y.id → x = y
  pages : w.pages ≠ []
  fetched : ∀ rootId, (w.threads rootId).Fetched w.committed
  wanted : w.wanted ≤ w.committed.length

/-- What the cursor has passed is shown and held; so is, while no page is awaited, whatever was
there at the last call. -/
structure World.Covered (w : World) : Prop extends w.Sound where
  ordered : w.reconciler.cursor.afterSequence ≤ w.reconciler.cursor.replyBound
  reached : Reached w.committed w.reconciler.cursor.replyBound
  roots : ∀ m ∈ w.committed, m.topLevel → w.start ≤ m.sequence →
    m.sequence ≤ w.reconciler.cursor.afterSequence → w.shows m
  replies : w.holdsThrough w.reconciler.cursor.replyBound
  /-- The page that is awaited starts where everything is held, and was asked for since the last
  call, unless another follows it. -/
  asked : ∀ asked since, w.reconciler.active = .loading asked since →
    asked.afterSequence ≤ w.reconciler.cursor.afterSequence ∧
      Reached w.committed asked.replyBound ∧ w.holdsThrough asked.replyBound ∧
      (w.wanted ≤ since ∨ w.reconciler.requested) ∧ since ≤ w.committed.length
  done : (∀ asked since, w.reconciler.active ≠ .loading asked since) →
    ∀ m ∈ w.committed.take w.wanted,
      (m.topLevel → m.sequence ≤ w.reconciler.cursor.afterSequence) ∧ (¬m.topLevel → w.holds m)

section Steps

variable {w w' : World} {updates : List Message} {m r : Message}

variable {n : Nat}

lemma Reached.mono {committed : List Message} {k : Nat} (h : Reached committed k) (hle : n ≤ k) :
    Reached committed n := by
  rcases h with rfl | ⟨m, hm, hk⟩
  · exact .inl (Nat.le_zero.mp hle)
  · exact .inr ⟨m, hm, hle.trans hk⟩

lemma Reached.append {committed : List Message} (h : Reached committed n) (m : Message) :
    Reached (committed ++ [m]) n := by
  rcases h with h | ⟨x, hx, hn⟩
  · exact .inl h
  · exact .inr ⟨x, mem_append_left _ hx, hn⟩

lemma holds_mergeUpdates (hw : w.Sound) (hupdates : ∀ x ∈ updates, x ∈ w.committed)
    (hr : r ∈ w.committed) (h : w.holds r ∨ r ∈ updates) : (w.mergeUpdates updates).holds r := by
  obtain ⟨hcommitted, -, -, -, hthreads⟩ := mergeUpdates_eq w updates
  intro rootId hroot
  rw [hcommitted, hthreads, foldThreads]
  have hmem : r ∈ updates → r ∈ repliesTo rootId updates := fun h =>
    mem_filter.mpr ⟨h, by simpa using hroot⟩
  split_ifs with hnone
  · rcases h with h | h
    · exact h rootId hroot
    · have hin := hmem h
      rw [hnone] at hin
      cases hin
  · exact holds_foldThread hw.unique (fun x hx => hupdates x (mem_of_mem_filter hx))
      (hw.fetched rootId) hr (h.imp (fun h => h rootId hroot) hmem)

lemma sound_mergeUpdates (hw : w.Sound) (hupdates : ∀ x ∈ updates, x ∈ w.committed) :
    (w.mergeUpdates updates).Sound := by
  obtain ⟨hcommitted, -, -, hwanted, hthreads⟩ := mergeUpdates_eq w updates
  refine ⟨?_, ?_, ?_, mergeUpdates_pages hw.pages, ?_, ?_⟩
  · rw [hcommitted]
    exact hw.sorted
  · rw [hcommitted]
    exact hw.positive
  · rw [hcommitted]
    exact hw.unique
  · intro rootId
    rw [hcommitted, hthreads, foldThreads]
    split_ifs with hnone
    · exact hw.fetched rootId
    · exact fetched_foldThread hw.unique (fun x hx => hupdates x (mem_of_mem_filter hx))
        (hw.fetched rootId)
  · rw [hcommitted, hwanted]
    exact hw.wanted

lemma covered_mergeUpdates (hw : w.Covered) (hupdates : ∀ x ∈ updates, x ∈ w.committed) :
    (w.mergeUpdates updates).Covered := by
  obtain ⟨hcommitted, hstart, hreconciler, hwanted, -⟩ := mergeUpdates_eq w updates
  have hthrough : ∀ bound, w.holdsThrough bound → (w.mergeUpdates updates).holdsThrough bound := by
    intro bound h r hr hreply hle
    rw [hcommitted] at hr
    exact holds_mergeUpdates hw.toSound hupdates hr (.inl (h r hr hreply hle))
  refine ⟨sound_mergeUpdates hw.toSound hupdates, ?_, ?_, ?_, ?_, ?_, ?_⟩
  · rw [hreconciler]
    exact hw.ordered
  · rw [hcommitted, hreconciler]
    exact hw.reached
  · intro m hm htop hle hpassed
    rw [hcommitted] at hm
    rw [hstart] at hle
    rw [hreconciler] at hpassed
    exact shows_mergeUpdates hw.pages (.inl (hw.roots m hm htop hle hpassed))
  · rw [hreconciler]
    exact hthrough _ hw.replies
  · intro asked since hactive
    rw [hreconciler] at hactive ⊢
    rw [hcommitted, hwanted]
    obtain ⟨hle, hreached, hheld, hwant, hsince⟩ := hw.asked asked since hactive
    exact ⟨hle, hreached, hthrough _ hheld, hwant, hsince⟩
  · intro hidle m hm
    rw [hreconciler] at hidle ⊢
    rw [hcommitted, hwanted] at hm
    obtain ⟨htop, hreply⟩ := hw.done hidle m hm
    refine ⟨htop, fun h => ?_⟩
    exact holds_mergeUpdates hw.toSound hupdates (mem_of_mem_take hm) (.inl (hreply h))

lemma mem_take_of_le (hw : w.Sound) {moment : Nat} {y : Message} (hm : m ∈ w.committed)
    (hy : y ∈ w.committed.take moment) (hle : m.sequence ≤ y.sequence) :
    m ∈ w.committed.take moment :=
  Page.mem_take_of_not_rel hw.sorted hm hy (Nat.not_lt.mpr hle)

/-- A page that answers brings everything up to the cursor, and where it is the last, everything
that was there when it was asked for. -/
lemma covered_answered (hw : w.Covered) {asked : ConversationUpdatesCursor} {since moment : Nat}
    {page : List Message} (hactive : w.reconciler.active = .loading asked since)
    (hsince : since ≤ moment) (hpage : page = loadPage asked (w.committed.take moment))
    (hshown : ∀ m ∈ page, m.topLevel → w.shows m) (hheld : ∀ r ∈ page, ¬r.topLevel → w.holds r) :
    { w with reconciler := w.reconciler.answered page w.committed.length }.Covered := by
  obtain ⟨haskedLe, -, haskedHeld, hwant, -⟩ := hw.asked asked since hactive
  have hsorted : (w.committed.take moment).Pairwise fun x y => x.sequence < y.sequence :=
    hw.sorted.sublist (take_sublist _ _)
  have hin : ∀ y ∈ page, y ∈ w.committed.take moment := by
    rw [hpage]
    exact fun y hy => mem_of_mem_loadPage hy
  have hupto : ∀ x ∈ w.committed, arrived asked x → ∀ y ∈ page, x.sequence ≤ y.sequence →
      x ∈ page := by
    intro x hx harrived y hy hle
    have hxt := mem_take_of_le hw.toSound hx (hin y hy) hle
    rw [hpage] at hy ⊢
    exact mem_loadPage_of_le hsorted hxt harrived hy hle
  obtain ⟨hcursor, hnext⟩ := answered_spec w.reconciler page w.committed.length
  set passed := Reconciler.passed w.reconciler.cursor page with hpassed
  have hroots : ∀ m ∈ w.committed, m.topLevel → w.start ≤ m.sequence →
      m.sequence ≤ passed.afterSequence → w.shows m := by
    intro m hm htop hstart hle
    by_cases hold : m.sequence ≤ w.reconciler.cursor.afterSequence
    · exact hw.roots m hm htop hstart hold
    · rcases passed_eq_or_mem w.reconciler.cursor page with h | ⟨y, hy, hyle⟩
      · exact absurd (hle.trans h.le) hold
      · have harrived : arrived asked m :=
          (arrived_topLevel htop).mpr (haskedLe.trans_lt (Nat.lt_of_not_le hold))
        exact hshown m (hupto m hm harrived y hy (hle.trans hyle.ge)) htop
  have hreplies : w.holdsThrough passed.replyBound := by
    intro r hr hreply hle
    rw [hpassed, replyBound_passed] at hle
    split_ifs at hle with hempty
    · exact hw.replies r hr hreply hle
    · rcases passed_eq_or_mem w.reconciler.cursor page with h | ⟨y, hy, hyle⟩
      · exact hw.replies r hr hreply ((hle.trans h.le).trans hw.ordered)
      · by_cases hold : r.sequence ≤ asked.replyBound
        · exact haskedHeld r hr hreply hold
        · have harrived : arrived asked r := (arrived_reply hreply).mpr (Nat.lt_of_not_le hold)
          exact hheld r (hupto r hr harrived y hy (hle.trans hyle.ge)) hreply
  have hreached : Reached w.committed passed.replyBound := by
    rw [hpassed, replyBound_passed]
    split_ifs with hempty
    · exact hw.reached
    · rcases passed_eq_or_mem w.reconciler.cursor page with h | ⟨y, hy, hyle⟩
      · rw [h]
        exact hw.reached.mono hw.ordered
      · exact .inr ⟨y, mem_of_mem_take (hin y hy), hyle.ge⟩
  have hordered : passed.afterSequence ≤ passed.replyBound := by
    rw [hpassed, replyBound_passed]
    split_ifs with hempty
    · rw [hempty]
      exact hw.ordered
    · exact le_rfl
  refine ⟨⟨hw.sorted, hw.positive, hw.unique, hw.pages, hw.fetched, hw.wanted⟩, ?_, ?_, ?_, ?_, ?_,
    ?_⟩
  · rwa [hcursor]
  · rwa [hcursor]
  · rwa [hcursor]
  · rwa [hcursor]
  · intro asked' since' hactive'
    rcases hnext with hnext | ⟨-, -, hnext⟩
    · obtain ⟨rfl, rfl⟩ := Drain.loading.inj (hnext.symm.trans hactive')
      rw [hcursor]
      exact ⟨le_rfl, hreached, hreplies, .inl hw.wanted, le_rfl⟩
    · cases hnext.symm.trans hactive'
  · intro hidle m hm
    rcases hnext with hnext | ⟨hlength, hrequested, -⟩
    · exact absurd hnext (hidle _ _)
    · have hwantedLe : w.wanted ≤ moment := by
        rcases hwant with h | h
        · exact h.trans hsince
        · rw [hrequested] at h
          cases h
      have hmt : m ∈ w.committed.take moment := (take_subset_take_left _ hwantedLe) hm
      have hmc : m ∈ w.committed := mem_of_mem_take hm
      have hall : arrived asked m → m ∈ page := by
        intro harrived
        rw [hpage] at hlength ⊢
        exact mem_loadPage_of_length hlength hmt harrived
      rw [hcursor]
      constructor
      · intro htop
        by_cases hold : m.sequence ≤ asked.afterSequence
        · exact (hold.trans haskedLe).trans (afterSequence_le_passed _ _)
        · exact sequence_le_passed _
            (hall ((arrived_topLevel htop).mpr (Nat.lt_of_not_le hold)))
      · intro hreply
        by_cases hold : m.sequence ≤ asked.replyBound
        · exact haskedHeld m hmc hreply hold
        · exact hheld m (hall ((arrived_reply hreply).mpr (Nat.lt_of_not_le hold))) hreply

lemma covered_commit (hw : w.Covered) (hpositive : 0 < m.sequence)
    (hnew : ∀ x ∈ w.committed, x.sequence < m.sequence ∧ x.id ≠ m.id) :
    { w with committed := w.committed ++ [m] }.Covered := by
  have hbeyond : ∀ n, Reached w.committed n → ¬m.sequence ≤ n := by
    rintro n (rfl | ⟨x, hx, hn⟩) hle
    · exact absurd hle (Nat.not_le.mpr hpositive)
    · exact absurd (hle.trans hn) (Nat.not_le.mpr (hnew x hx).1)
  have htake : ∀ (k : Nat) (x : Message), x ∈ w.committed.take k →
      x ∈ (w.committed ++ [m]).take k := by
    intro k x hx
    rw [take_append]
    exact mem_append_left _ hx
  have hholds : ∀ r, w.holds r → { w with committed := w.committed ++ [m] }.holds r := by
    intro r hr rootId hroot
    exact ⟨(hr rootId hroot).1, fun since hsince => htake since r ((hr rootId hroot).2 since hsince)⟩
  have hthrough : ∀ n, Reached w.committed n → w.holdsThrough n →
      { w with committed := w.committed ++ [m] }.holdsThrough n := by
    intro n hn h r hr hreply hle
    rcases mem_append.mp hr with hr | hr
    · exact hholds r (h r hr hreply hle)
    · rw [mem_singleton.mp hr] at hle
      exact absurd hle (hbeyond n hn)
  refine ⟨⟨?_, ?_, ?_, hw.pages, ?_, ?_⟩, hw.ordered, hw.reached.append m, ?_,
    hthrough _ hw.reached hw.replies, ?_, ?_⟩
  · rw [pairwise_append]
    refine ⟨hw.sorted, pairwise_singleton _ _, ?_⟩
    intro x hx y hy
    rw [mem_singleton.mp hy]
    exact (hnew x hx).1
  · intro x hx
    rcases mem_append.mp hx with hx | hx
    · exact hw.positive x hx
    · rwa [mem_singleton.mp hx]
  · intro x hx y hy hid
    rcases mem_append.mp hx with hx | hx <;> rcases mem_append.mp hy with hy | hy
    · exact hw.unique x hx y hy hid
    · rw [mem_singleton.mp hy] at hid
      exact absurd hid (hnew x hx).2
    · rw [mem_singleton.mp hx] at hid
      exact absurd hid.symm (hnew y hy).2
    · rw [mem_singleton.mp hx, mem_singleton.mp hy]
  · intro rootId loaded hloaded x hx
    obtain ⟨hcommitted, hread⟩ := hw.fetched rootId loaded hloaded x hx
    exact ⟨mem_append_left _ hcommitted, fun since hsince => htake since x (hread since hsince)⟩
  · exact hw.wanted.trans (by simp)
  · intro x hx htop hstart hle
    rcases mem_append.mp hx with hx | hx
    · exact hw.roots x hx htop hstart hle
    · rw [mem_singleton.mp hx] at hle
      exact absurd (hle.trans hw.ordered) (hbeyond _ hw.reached)
  · intro asked since hactive
    obtain ⟨hle, hreached, hheld, hwant, hsince⟩ := hw.asked asked since hactive
    exact ⟨hle, hreached.append m, hthrough _ hreached hheld, hwant, hsince.trans (by simp)⟩
  · intro hidle x hx
    have hx' : x ∈ w.committed.take w.wanted := by
      rwa [take_append_of_le_length hw.wanted] at hx
    obtain ⟨htop, hreply⟩ := hw.done hidle x hx'
    exact ⟨htop, fun h => hholds x (hreply h)⟩

lemma covered_reconcile (hw : w.Covered) (hfinished : w.reconciler.active ≠ .finished) : { w with
      reconciler := w.reconciler.reconcile w.committed.length
      wanted := w.committed.length }.Covered := by
  cases hactive : w.reconciler.active with
  | finished => exact absurd hactive hfinished
  | idle =>
    have hreconcile : w.reconciler.reconcile w.committed.length =
        { w.reconciler with
          requested := false
          active := .loading w.reconciler.cursor w.committed.length } := by
      simp [Reconciler.reconcile, Reconciler.drain, Reconciler.load, hactive]
    rw [hreconcile]
    refine ⟨⟨hw.sorted, hw.positive, hw.unique, hw.pages, hw.fetched, le_rfl⟩, hw.ordered,
      hw.reached, hw.roots, hw.replies, ?_, fun hidle => absurd rfl (hidle _ _)⟩
    rintro asked since ⟨⟩
    exact ⟨le_rfl, hw.reached, hw.replies, .inl le_rfl, le_rfl⟩
  | loading asked since =>
    have hreconcile : w.reconciler.reconcile w.committed.length =
        { w.reconciler with requested := true } := by
      simp [Reconciler.reconcile, hactive]
    rw [hreconcile]
    refine ⟨⟨hw.sorted, hw.positive, hw.unique, hw.pages, hw.fetched, le_rfl⟩, hw.ordered,
      hw.reached, hw.roots, hw.replies, ?_, fun hidle => absurd hactive (hidle _ _)⟩
    intro asked' since' hactive'
    obtain ⟨hle, hreached, hheld, -, hsince⟩ := hw.asked asked' since' hactive'
    exact ⟨hle, hreached, hheld, .inr rfl, hsince⟩

lemma covered_settle (hw : w.Covered) (hfinished : w.reconciler.active = .finished) :
    { w with reconciler := w.reconciler.settle }.Covered := by
  refine ⟨⟨hw.sorted, hw.positive, hw.unique, hw.pages, hw.fetched, hw.wanted⟩, hw.ordered,
    hw.reached, hw.roots, hw.replies, ?_, fun _ => hw.done ?_⟩
  · rintro _ _ ⟨⟩
  · intro asked since h
    cases hfinished.symm.trans h

variable {pages : List WindowPage}

lemma positionOf_eq (hpages : pages ≠ []) : positionOf pages = (pages.getLast hpages).position := by
  rw [positionOf, getLast?_eq_some_getLast hpages]

lemma positionOf_ordered (hpages : pages ≠ []) :
    (positionOf pages).afterSequence ≤ (positionOf pages).replyBound := by
  rw [positionOf_eq hpages]
  exact le_foldl_max _ _

lemma positionOf_afterSequence (hpages : pages ≠ []) : (positionOf pages).afterSequence = 0 ∨
      ∃ x ∈ messagesOf pages, x.sequence = (positionOf pages).afterSequence := by
  rw [positionOf_eq hpages, WindowPage.position]
  cases hlast : (pages.getLast hpages).messages.getLast? with
  | none => exact .inl rfl
  | some x =>
    have hx : x ∈ messagesOf pages :=
      mem_flatMap.mpr ⟨_, getLast_mem hpages, mem_of_getLast? hlast⟩
    exact .inr ⟨x, hx, rfl⟩

lemma exists_of_le_positionOf (hpages : pages ≠ [])
    (hpositive : 0 < n) (hle : n ≤ (positionOf pages).afterSequence) :
    ∃ x ∈ messagesOf pages, n ≤ x.sequence := by
  rcases positionOf_afterSequence hpages with h | ⟨x, hx, hxe⟩
  · rw [h] at hle
    exact absurd hle (Nat.not_le.mpr hpositive)
  · exact ⟨x, hx, hle.trans hxe.ge⟩

lemma reached_positionOf {messages : List Message}
    (hread : ReadOf messages pages) : Reached messages (positionOf pages).replyBound := by
  obtain ⟨hpages, hmem, -, hsummaries⟩ := hread
  have hafter := positionOf_afterSequence hpages
  rw [positionOf_eq hpages] at hafter ⊢
  rcases foldl_max_mem (pages.getLast hpages).position.afterSequence
    ((pages.getLast hpages).threads.map Prod.snd) with h | h
  · change Reached _ (foldl max (pages.getLast hpages).position.afterSequence _)
    rw [h]
    rcases hafter with h | ⟨x, hx, hxe⟩
    · exact .inl h
    · exact .inr ⟨x, (hmem x hx).1, hxe.ge⟩
  · obtain ⟨t, ht, hte⟩ := mem_map.mp h
    obtain ⟨r, hr, -, hrt⟩ := hsummaries _ (getLast_mem hpages) t ht
    exact .inr ⟨r, hr, (hrt.trans hte).ge⟩

lemma Reached.subset {messages committed : List Message} (h : Reached messages n)
    (hsub : messages ⊆ committed) : Reached committed n := by
  rcases h with h | ⟨m, hm, hn⟩
  · exact .inl h
  · exact .inr ⟨m, hsub hm, hn⟩

/-- A re-read shows what the cursor has passed, and moves it only past what the threads hold. -/
lemma covered_windowRead (hw : w.Covered) {moment : Nat}
    (hread : ReadOf (w.committed.take moment) pages)
    (hserved : Served w (.windowRead pages moment)) : { w with
      pages
      start := startOf pages
      reconciler := w.reconciler.advance (positionOf pages) }.Covered := by
  have hreached := (reached_positionOf hread).subset (take_subset _ _)
  obtain ⟨hpages, hmem, hwhole, -⟩ := hread
  obtain ⟨hkeeps, hholds⟩ := hserved
  have hcases : w.reconciler.advance (positionOf pages) = w.reconciler ∨
      w.reconciler.cursor.afterSequence < (positionOf pages).afterSequence ∧
        w.reconciler.advance (positionOf pages) =
          { w.reconciler with cursor := positionOf pages } := by
    rw [Reconciler.advance]
    split_ifs with h
    · exact .inr ⟨h, rfl⟩
    · exact .inl rfl
  have hshown : ∀ m ∈ w.committed, m.topLevel → startOf pages ≤ m.sequence →
      m.sequence ≤ w.reconciler.cursor.afterSequence →
        { w with pages }.shows m := hkeeps
  rcases hcases with hsame | ⟨hlt, hmoved⟩
  · rw [hsame]
    exact ⟨⟨hw.sorted, hw.positive, hw.unique, hpages, hw.fetched, hw.wanted⟩, hw.ordered,
      hw.reached, hshown, hw.replies, hw.asked, hw.done⟩
  · rw [hmoved]
    refine ⟨⟨hw.sorted, hw.positive, hw.unique, hpages, hw.fetched, hw.wanted⟩,
      positionOf_ordered hpages, hreached, ?_, hholds hlt, ?_, ?_⟩
    · intro m hm htop hstart hle
      obtain ⟨x, hx, hxle⟩ := exists_of_le_positionOf hpages (hw.positive m hm) hle
      have hmt := mem_take_of_le hw.toSound hm (hmem x hx).1 hxle
      exact .inl (mem_ids (hwhole m hmt htop hstart ⟨x, hx, hxle⟩))
    · intro asked since hactive
      obtain ⟨hle, hrest⟩ := hw.asked asked since hactive
      exact ⟨hle.trans hlt.le, hrest⟩
    · intro hidle m hm
      obtain ⟨htop, hreply⟩ := hw.done hidle m hm
      exact ⟨fun h => (htop h).trans hlt.le, hreply⟩

lemma covered_setThread (hw : w.Covered) {rootId : String} {thread : ThreadQuery}
    (hfetched : thread.Fetched w.committed)
    (hholds : ∀ r ∈ w.committed, r.threadRootId = some rootId →
      (w.threads rootId).Holds w.committed r → thread.Holds w.committed r) :
    (w.setThread rootId thread).Covered := by
  have hkept : ∀ r ∈ w.committed, w.holds r → (w.setThread rootId thread).holds r := by
    intro r hr h root hroot
    rw [World.setThread]
    by_cases heq : root = rootId
    · subst heq
      dsimp only
      rw [Function.update_self]
      exact hholds r hr hroot (h root hroot)
    · dsimp only
      rw [Function.update_of_ne heq]
      exact h root hroot
  have hthrough : ∀ n, w.holdsThrough n → (w.setThread rootId thread).holdsThrough n :=
    fun n h r hr hreply hle => hkept r hr (h r hr hreply hle)
  refine ⟨⟨hw.sorted, hw.positive, hw.unique, hw.pages, ?_, hw.wanted⟩, hw.ordered, hw.reached,
    hw.roots, hthrough _ hw.replies, ?_, ?_⟩
  · intro root
    rw [World.setThread]
    by_cases heq : root = rootId
    · subst heq
      dsimp only
      rw [Function.update_self]
      exact hfetched
    · dsimp only
      rw [Function.update_of_ne heq]
      exact hw.fetched root
  · intro asked since hactive
    obtain ⟨hle, hreached, hheld, hwant, hsince⟩ := hw.asked asked since hactive
    exact ⟨hle, hreached, hthrough _ hheld, hwant, hsince⟩
  · intro hidle m hm
    obtain ⟨htop, hreply⟩ := hw.done hidle m hm
    exact ⟨htop, fun h => hkept m (mem_of_mem_take hm) (hreply h)⟩

lemma covered_threadRead (hw : w.Covered) {rootId : String} {since moment : Nat}
    (hreading : (w.threads rootId).reading = some since) (hle : since ≤ moment) :
    (w.setThread rootId
      { replies := some (repliesTo rootId (w.committed.take moment)), reading := none }).Covered := by
  refine covered_setThread hw ?_ ?_
  · rintro _ ⟨⟩ x hx
    refine ⟨mem_of_mem_take (mem_of_mem_filter hx), ?_⟩
    rintro _ ⟨⟩
  · intro r _ hroot h
    refine ⟨?_, ?_⟩
    · rintro _ ⟨⟩
      have hr := take_subset_take_left _ hle (h.2 since hreading)
      exact mem_ids (mem_filter.mpr ⟨hr, by simpa using hroot⟩)
    · rintro _ ⟨⟩

lemma covered_step {event : Event} (hw : w.Covered) (hserved : Served w event)
    (hstep : step w event = some w') : w'.Covered := by
  cases event with
  | commit m =>
    obtain ⟨⟨hpositive, hnew⟩, hw'⟩ := ite_none_right_eq_some.mp hstep
    cases hw'
    exact covered_commit hw hpositive hnew
  | reconcile =>
    cases hstep
    exact covered_reconcile hw hserved
  | pageAnswers moment =>
    simp only [step] at hstep
    cases hactive : w.reconciler.active with
    | idle =>
      rw [hactive] at hstep
      cases hstep
    | finished =>
      rw [hactive] at hstep
      cases hstep
    | loading asked since =>
      rw [hactive] at hstep
      obtain ⟨⟨hsince, -⟩, hw'⟩ := ite_none_right_eq_some.mp hstep
      cases hw'
      generalize hpage : loadPage asked (w.committed.take moment) = page
      have hin : ∀ y ∈ page, y ∈ w.committed := by
        rw [← hpage]
        exact fun y hy => mem_of_mem_take (mem_of_mem_loadPage hy)
      by_cases hempty : page = []
      · rw [if_pos hempty]
        subst hempty
        exact covered_answered hw hactive hsince hpage.symm (fun _ h => by cases h)
          fun _ h => by cases h
      · rw [if_neg hempty]
        obtain ⟨hcommitted, -, hreconciler, -, -⟩ := mergeUpdates_eq w page
        have hmerged := covered_mergeUpdates hw hin
        rw [← hreconciler] at hactive ⊢
        rw [← hcommitted] at hpage ⊢
        exact covered_answered hmerged hactive hsince hpage.symm
          (fun m hm htop => shows_mergeUpdates hw.pages (.inr ⟨hm, htop⟩))
          fun r hr _ => holds_mergeUpdates hw.toSound hin (hin r hr) (.inr hr)
  | settle =>
    obtain ⟨hfinished, ⟨⟩⟩ := ite_none_right_eq_some.mp hstep
    exact covered_settle hw hfinished
  | windowRead pages moment =>
    obtain ⟨hread, ⟨⟩⟩ := ite_none_right_eq_some.mp hstep
    exact covered_windowRead hw hread hserved
  | sent m =>
    obtain ⟨hm, ⟨⟩⟩ := ite_none_right_eq_some.mp hstep
    exact covered_mergeUpdates hw fun x hx => mem_singleton.mp hx ▸ hm
  | openThread rootId =>
    obtain ⟨-, hw'⟩ := ite_none_right_eq_some.mp hstep
    cases hw'
    refine covered_setThread hw (by rintro _ ⟨⟩) ?_
    intro r hr _ _
    refine ⟨by rintro _ ⟨⟩, ?_⟩
    rintro _ ⟨⟩
    rwa [take_length]
  | rereadThread rootId =>
    obtain ⟨-, hw'⟩ := ite_none_right_eq_some.mp hstep
    cases hw'
    refine covered_setThread hw ?_ ?_
    · intro loaded hloaded x hx
      have hcommitted := (hw.fetched rootId loaded hloaded x hx).1
      refine ⟨hcommitted, ?_⟩
      rintro _ ⟨⟩
      rwa [take_length]
    · intro r hr _ h
      refine ⟨h.1, ?_⟩
      rintro _ ⟨⟩
      rwa [take_length]
  | threadRead rootId moment =>
    simp only [step] at hstep
    cases hreading : (w.threads rootId).reading with
    | none =>
      rw [hreading] at hstep
      cases hstep
    | some since =>
      rw [hreading] at hstep
      obtain ⟨hle, ⟨⟩⟩ := ite_none_right_eq_some.mp hstep
      exact covered_threadRead hw hreading hle
  | closeThread rootId =>
    cases hstep
    exact covered_setThread hw (by rintro _ ⟨⟩) fun _ _ _ _ =>
      ⟨by rintro _ ⟨⟩, by rintro _ ⟨⟩⟩

lemma covered_opened (hw : Opened w) : w.Covered := by
  have hreached := reached_positionOf hw.read
  obtain ⟨hpages, -, hwhole, -⟩ := hw.read
  have hfetched : ∀ rootId, (w.threads rootId).Fetched w.committed := by
    intro rootId
    rw [hw.threads rootId]
    rintro _ ⟨⟩
  have hholds : ∀ r, w.holds r := by
    intro r rootId _
    rw [hw.threads rootId]
    refine ⟨by rintro _ ⟨⟩, by rintro _ ⟨⟩⟩
  have hwanted : w.wanted ≤ w.committed.length := hw.wanted ▸ Nat.zero_le _
  refine ⟨⟨hw.sorted, hw.positive, hw.unique, hpages, hfetched, hwanted⟩, ?_, ?_, ?_,
    fun r _ _ _ => hholds r, ?_, ?_⟩
  · rw [hw.reconciler]
    exact positionOf_ordered hpages
  · rw [hw.reconciler]
    exact hreached
  · intro m hm htop hstart hle
    rw [hw.start] at hstart
    rw [hw.reconciler] at hle
    have hexists := exists_of_le_positionOf hpages (hw.positive m hm) hle
    exact .inl (mem_ids (hwhole m hm htop hstart hexists))
  · intro asked since hactive
    rw [hw.reconciler] at hactive
    cases hactive
  · intro _ m hm
    rw [hw.wanted, take_zero] at hm
    cases hm

/-- Where every step meets the condition, every call has settled, and one was made after the last
commit, every top-level message past the window's start is in the window or its buffer, and every
reply of an open thread is among its loaded replies. -/
theorem reconciliation_shows_everything {w₀ : World} {events : List Event} (hopened : Opened w₀)
    (hserved : Permitted step Served w₀ events) (hrun : run step w₀ events = some w)
    (hsettled : w.reconciler.active = .idle) (hwanted : w.wanted = w.committed.length) :
    (∀ m ∈ w.committed, m.topLevel → w.start ≤ m.sequence → w.shows m) ∧
      ∀ r ∈ w.committed, ∀ rootId, r.threadRootId = some rootId →
        ∀ loaded, (w.threads rootId).replies = some loaded → r.id ∈ ids loaded := by
  have hcovered : w.Covered :=
    invariant (fun _ _ _ hw hok hstep => covered_step hw hok hstep) (covered_opened hopened)
      hserved hrun
  have hidle : ∀ asked since, w.reconciler.active ≠ .loading asked since := by
    rw [hsettled]
    rintro _ _ ⟨⟩
  have hdone := hcovered.done hidle
  rw [hwanted, take_length] at hdone
  constructor
  · intro m hm htop hstart
    exact hcovered.roots m hm htop hstart ((hdone m hm).1 htop)
  · intro r hr rootId hroot loaded hloaded
    have hreply : ¬r.topLevel := by simp [Message.topLevel, hroot]
    exact ((hdone r hr).2 hreply rootId hroot).1 loaded hloaded

end Steps

/-! ### A reply that a re-read moves past -/

def root : Message where
  id := "root"
  sequence := 1
  threadRootId := none

def reply : Message where
  id := "reply"
  sequence := 2
  threadRootId := some "root"

def later : Message where
  id := "later"
  sequence := 3
  threadRootId := none

/-- The window as a read answers it, once there is nothing but the root. -/
def firstRead : WindowPage where
  messages := [root]
  hasNewer := false
  threads := []

/-- The window as a read answers it, once there are all three. -/
def secondRead : WindowPage where
  messages := [root, later]
  hasNewer := false
  threads := [("root", 2)]

/-- The page, opened from the first read. -/
def opened : World where
  committed := [root]
  pages := [firstRead]
  start := 1
  pending := []
  threads _ := { replies := none, reading := none }
  reconciler := .create (positionOf [firstRead])
  wanted := 0

/-- A thread is opened and read; a reply in it and a message come. -/
def arrivals : List Event :=
  [.openThread "root", .threadRead "root" 1, .commit reply, .commit later]

/-- The reconciler brings both before the window is read again. -/
def broughtFirst : List Event :=
  arrivals ++ [.reconcile, .pageAnswers 3, .settle, .windowRead [secondRead] 3, .reconcile,
    .pageAnswers 3, .settle]

/-- The window is read again before the reconciler is called. -/
def reread : List Event :=
  arrivals ++ [.windowRead [secondRead] 3, .reconcile, .pageAnswers 3, .settle]

lemma opened_opened : Opened opened where
  sorted := by decide
  positive := by decide
  unique := by decide
  read := by decide
  start := rfl
  pending := rfl
  threads _ := rfl
  reconciler := rfl
  wanted := rfl

/-- Where the reconciler came first, the thread holds the reply. -/
theorem brought_reply_is_shown : ∃ w, run step opened broughtFirst = some w ∧
      ∀ loaded, (w.threads "root").replies = some loaded → reply.id ∈ ids loaded := by
  have hrun : (run step opened broughtFirst).isSome := by decide
  obtain ⟨w, hw⟩ := isSome_iff_exists.mp hrun
  have hstate : (run step opened broughtFirst).map (fun w =>
      (w.reconciler.active, w.wanted, w.committed)) = some (.idle, 3, [root, reply, later]) := by
    decide
  rw [hw, map_some, some.injEq] at hstate
  obtain ⟨hsettled, hwanted, hcommitted⟩ :
      w.reconciler.active = .idle ∧ w.wanted = 3 ∧ w.committed = [root, reply, later] := by
    simpa using hstate
  have hshown := reconciliation_shows_everything opened_opened (by decide) hw hsettled
    (by rw [hwanted, hcommitted]; rfl)
  refine ⟨w, hw, fun loaded hloaded => ?_⟩
  exact hshown.2 reply (by simp [hcommitted]) "root" rfl loaded hloaded

/-- Where the window was read again first, every call has settled, one was made after the last
commit, and the open thread lacks the reply. -/
theorem reread_window_drops_reply :
    (run step opened reread).map (fun w =>
      (w.reconciler.active, w.wanted, ids w.committed, (w.threads "root").replies.map ids)) =
        some (.idle, 3, ["root", "reply", "later"], some []) := by
  decide

end Coforge.Reconciliation
