import Coforge.Activity.Trajectory

/-!
# What a trajectory forwards

A thinking run that is still the last announced activity is closed once, before the event that ends
it is forwarded. The streamed deltas are cut into pieces of one kind and subagent, in their order,
and each piece is forwarded as one entry, redacted and cut at the limit.
-/

namespace Coforge.Activity

open List

/-! ### The last announcement -/

/-- The last detail kind that was announced. -/
def announcement (sent : List Sent) : Option DetailKind :=
  (sent.filterMap fun x => x.event.announces).getLast?

lemma announcement_append (xs ys : List Sent) :
    announcement (xs ++ ys) = (announcement ys).or (announcement xs) := by
  rw [announcement, filterMap_append, getLast?_append]
  rfl

lemma announcement_singleton (x : Sent) : announcement [x] = x.event.announces := by
  rw [announcement, filterMap_cons]
  cases x.event.announces <;> rfl

namespace Trajectory

/-- The state follows what was forwarded. -/
def Tracks (t : Trajectory) (r : Trajectory × List Sent) : Prop :=
  r.1.lastAnnounced = (announcement r.2).or t.lastAnnounced ∧ r.1.disposed = t.disposed

lemma tracks_self (t : Trajectory) : Tracks t (t, []) := ⟨rfl, rfl⟩

lemma tracks_forward (t : Trajectory) (x : Sent) : Tracks t (t.forward x) :=
  ⟨by rw [forward, announcement_singleton], rfl⟩

lemma Tracks.next {t : Trajectory} {r : Trajectory × List Sent} (h : Tracks t r)
    {f : Trajectory → Trajectory × List Sent} (hf : ∀ t, Tracks t (f t)) : Tracks t (next r f) := by
  refine ⟨?_, (hf r.1).2.trans h.2⟩
  have hlast : (f r.1).1.lastAnnounced = _ := (hf r.1).1
  rw [Trajectory.next, hlast, h.1, announcement_append, Option.or_assoc]

lemma tracks_flush (t : Trajectory) : Tracks t t.flush := by
  rw [flush]
  cases t.pending with
  | none => exact ⟨rfl, rfl⟩
  | some p =>
    dsimp only
    split_ifs
    · exact ⟨rfl, rfl⟩
    · exact tracks_forward _ _

lemma tracks_closeThinking (t : Trajectory) (e : Event) : Tracks t (t.closeThinking e) := by
  rw [closeThinking]
  split_ifs
  · exact (tracks_flush t).next fun t => tracks_forward t _
  · exact tracks_self t

lemma tracks_acceptDelta (t : Trajectory) (d : Delta) : Tracks t (t.acceptDelta d) := by
  have hopen : Tracks t (t.openRun d) := by
    refine Tracks.next ?_ fun t => ?_
    · rw [switch]
      split_ifs
      · exact tracks_flush t
      · exact tracks_self t
    · rw [startRun]
      split_ifs
      · exact tracks_self t
      · exact tracks_forward t _
      · exact tracks_self t
  exact ⟨hopen.1, hopen.2⟩

lemma tracks_acceptEvent (t : Trajectory) (e : Event) : Tracks t (t.acceptEvent e) := by
  have hpass (e : Event) : Tracks t (t.pass e) := by
    refine Tracks.next ?_ fun t => tracks_forward t _
    split_ifs
    · exact tracks_flush t
    · exact tracks_self t
  cases e with
  | delta d => exact tracks_acceptDelta t d
  | _ => exact hpass _

lemma tracks_accept (t : Trajectory) (e : Event) : Tracks t (t.accept e) := by
  rw [accept]
  split_ifs
  · exact tracks_self t
  · exact (tracks_closeThinking t e).next fun t => tracks_acceptEvent t e

lemma tracks_step (t : Trajectory) (label : Label) :
    (t.step label).1.lastAnnounced = (announcement (t.step label).2).or t.lastAnnounced ∧
      (t.step label).1.disposed = (t.disposed || decide (label = .dispose)) := by
  cases label with
  | accept e =>
    obtain ⟨hlast, hdisposed⟩ := tracks_accept t e
    exact ⟨hlast, hdisposed.trans (by simp)⟩
  | timer =>
    have htimer : Tracks t (t.step .timer) := by
      rw [step]
      split_ifs
      · exact tracks_flush t
      · exact tracks_self t
    exact ⟨htimer.1, htimer.2.trans (by simp)⟩
  | dispose =>
    rw [step, dispose]
    split_ifs with hdisposed
    · exact ⟨rfl, by simp [hdisposed]⟩
    · refine ⟨?_, by simp [next]⟩
      rw [next, append_nil]
      exact (tracks_flush t).1

lemma run_concat (labels : List Label) (label : Label) :
    run (labels ++ [label]) = next (run labels) fun t => t.step label := foldl_concat _ _ _ _

/-- After a run the state knows the last announcement, and whether it was disposed of. -/
lemma run_tracks (labels : List Label) :
    (run labels).1.lastAnnounced = announcement (run labels).2 ∧
      ((run labels).1.disposed = true ↔ Label.dispose ∈ labels) := by
  induction labels using reverseRecOn with
  | nil => exact ⟨rfl, by decide⟩
  | append_singleton labels label ih =>
    obtain ⟨hlast, hdisposed⟩ := tracks_step (run labels).1 label
    rw [run_concat, next]
    refine ⟨?_, ?_⟩
    · rw [hlast, ih.1, announcement_append]
    · rw [hdisposed, Bool.or_eq_true, ih.2, decide_eq_true_iff, mem_append, mem_singleton, eq_comm]

/-! ### Closing a thinking run -/

lemma flush_spec (t : Trajectory) :
    t.flush.1.pending = none ∧ ∃ entries : List Entry, t.flush.2 = entries.map Sent.entry := by
  rw [flush]
  cases t.pending with
  | none => exact ⟨rfl, [], rfl⟩
  | some p =>
    dsimp only
    split_ifs
    · exact ⟨rfl, [], rfl⟩
    · exact ⟨rfl, [_], rfl⟩

lemma flush_of_none {t : Trajectory} (h : t.pending = none) : t.flush.2 = [] := by
  rw [flush, h]

end Trajectory

/-- What a trajectory forwards for an event that ends thinking: the event, or the announcement of
the run that a delta starts. -/
def Event.forwarded : Event → Sent
  | delta d => .announced d.kind
  | e       => .passed e

namespace Trajectory

lemma acceptEvent_of_none {t : Trajectory} {e : Event} (h : t.pending = none)
    (hlast : t.lastAnnounced = some .thinkingEnd) : (t.acceptEvent e).2 = [e.forwarded] := by
  have hpass (e : Event) : (t.pass e).2 = [.passed e] := by
    rw [pass, next]
    split_ifs
    · rw [flush_of_none h]
      rfl
    · rfl
  cases e with
  | delta d =>
    have hswitch : t.switch d = (t, []) := by simp [switch, h]
    have hkind : t.lastAnnounced ≠ some d.kind.detailKind := by
      rw [hlast]
      cases d.kind <;> decide
    rw [acceptEvent, acceptDelta, openRun, next, hswitch]
    simp only [if_pos h, startRun, if_neg hkind]
    rfl
  | _ => exact hpass _

lemma accept_closes {t : Trajectory} {e : Event} (hdisposed : t.disposed = false)
    (hlast : t.lastAnnounced = some .thinkingStarted) (he : e.endsThinking = true) :
    ∃ entries : List Entry, (t.accept e).2 = entries.map Sent.entry ++ [.closed, e.forwarded] := by
  obtain ⟨hpending, entries, hentries⟩ := flush_spec t
  have hclose : t.closeThinking e = next t.flush fun t => t.forward .closed := if_pos ⟨hlast, he⟩
  have haccept : t.accept e = next (t.closeThinking e) fun t => t.acceptEvent e :=
    if_neg (by simp [hdisposed])
  have hnext := @acceptEvent_of_none (next t.flush fun t => t.forward .closed).1 e hpending rfl
  refine ⟨entries, ?_⟩
  rw [haccept, hclose, next, hnext, next, hentries]
  exact append_assoc _ _ _

/-- Nothing that was forwarded closes a thinking run. -/
def Quiet (r : Trajectory × List Sent) : Prop := Sent.closed ∉ r.2

lemma quiet_self (t : Trajectory) : Quiet (t, []) := not_mem_nil

lemma quiet_forward (t : Trajectory) {x : Sent} (hx : Sent.closed ≠ x) : Quiet (t.forward x) :=
  fun h => hx (mem_singleton.mp h)

lemma quiet_flush (t : Trajectory) : Quiet t.flush := by
  obtain ⟨-, entries, hentries⟩ := flush_spec t
  rw [Quiet, hentries]
  simp

lemma Quiet.next {r : Trajectory × List Sent} (h : Quiet r)
    {f : Trajectory → Trajectory × List Sent} (hf : ∀ t, Quiet (f t)) : Quiet (next r f) := by
  intro hmem
  rcases mem_append.mp hmem with hmem | hmem
  · exact h hmem
  · exact hf r.1 hmem

lemma quiet_acceptEvent (t : Trajectory) (e : Event) : Quiet (t.acceptEvent e) := by
  have hpass (e : Event) : Quiet (t.pass e) := by
    refine Quiet.next ?_ fun t => quiet_forward t (by simp)
    split_ifs
    · exact quiet_flush t
    · exact quiet_self t
  cases e with
  | delta d =>
    refine (Quiet.next ?_ fun t => ?_ : Quiet (t.openRun d))
    · rw [switch]
      split_ifs
      · exact quiet_flush t
      · exact quiet_self t
    · rw [startRun]
      split_ifs
      · exact quiet_self t
      · exact quiet_forward t (by simp)
      · exact quiet_self t
  | _ => exact hpass _

/-- A step closes nothing unless it accepts an event that ends the announced thinking run. -/
lemma quiet_step {t : Trajectory} {label : Label}
    (h : ∀ e, label = .accept e → t.disposed = false → t.lastAnnounced = some .thinkingStarted →
      e.endsThinking = false) : Quiet (t.step label) := by
  cases label with
  | accept e =>
    rw [step, accept]
    by_cases hdisposed : t.disposed = true
    · rw [if_pos hdisposed]
      exact quiet_self t
    · rw [if_neg hdisposed, closeThinking]
      refine Quiet.next ?_ fun t => quiet_acceptEvent t e
      by_cases hlast : t.lastAnnounced = some .thinkingStarted
      · have he := h e rfl (by simpa using hdisposed) hlast
        rw [if_neg (by simp [he])]
        exact quiet_self t
      · rw [if_neg fun h => hlast h.1]
        exact quiet_self t
  | timer =>
    rw [step]
    split_ifs
    · exact quiet_flush t
    · exact quiet_self t
  | dispose =>
    rw [step, dispose]
    split_ifs
    · exact quiet_self t
    · exact (quiet_flush t).next fun t => quiet_self _

end Trajectory

/-! ### The pieces of the streamed text -/

/-- The delta of an event. -/
def Event.deltas : Event → List Delta
  | delta d => [d]
  | _       => []

/-- What a label streams to a trajectory that is not disposed of. -/
def Label.deltas : Label → List Delta
  | accept e => e.deltas
  | _        => []

/-- The deltas of a run up to its disposal. -/
def deltas (labels : List Label) : List Delta :=
  (labels.takeWhile (· ≠ .dispose)).flatMap Label.deltas

/-- The text of a piece. -/
def pieceText (piece : List Delta) : List Char := piece.flatMap Delta.text

/-- All deltas of a piece have one kind and one subagent. -/
def Uniform (piece : List Delta) : Prop :=
  ∀ d ∈ piece, ∀ d' ∈ piece, d'.kind = d.kind ∧ d'.subagent = d.subagent

/-- What is retained of a piece that is not flushed yet. -/
def retained : List Delta → Option Pending
  | []      => none
  | d :: ds => some ⟨d.kind, (pieceText (d :: ds)).take Trajectory.pendingLimit, d.subagent,
      Trajectory.pendingLimit < (pieceText (d :: ds)).length⟩

/-- The entry of a piece, if its text is not empty. -/
def shown : List Delta → Option Entry
  | []      => none
  | d :: ds =>
    let text := pieceText (d :: ds)
    let chars := Trajectory.shownText (text.take Trajectory.pendingLimit)
      (Trajectory.pendingLimit < text.length)
    if chars = [] then none else some ⟨d.kind, chars, d.subagent⟩

namespace Trajectory

/-- From a state that retains `rest`, the deltas `ds` are cut into pieces that are forwarded and
others that the new state retains. -/
def Cuts (rest ds : List Delta) (r : Trajectory × List Sent) : Prop :=
  ∃ (pieces : List (List Delta)) (rest' : List Delta), pieces.flatten ++ rest' = rest ++ ds ∧
    (∀ p ∈ pieces, p ≠ [] ∧ Uniform p) ∧ Uniform rest' ∧ r.1.pending = retained rest' ∧
    r.2.filterMap Sent.entry? = pieces.filterMap shown

variable {t : Trajectory} {rest : List Delta}

lemma cuts_self (hrest : Uniform rest) (h : t.pending = retained rest) : Cuts rest [] (t, []) :=
  ⟨[], rest, by simp, by simp, hrest, h, rfl⟩

lemma Cuts.next {ds ds' : List Delta} {r : Trajectory × List Sent} (h : Cuts rest ds r)
    {f : Trajectory → Trajectory × List Sent}
    (hf : ∀ t rest, Uniform rest → t.pending = retained rest → Cuts rest ds' (f t)) :
    Cuts rest (ds ++ ds') (Trajectory.next r f) := by
  obtain ⟨pieces, mid, hflat, hpieces, hmid, hpending, hentries⟩ := h
  obtain ⟨pieces', rest', hflat', hpieces', hrest', hpending', hentries'⟩ := hf r.1 mid hmid hpending
  refine ⟨pieces ++ pieces', rest', ?_, ?_, hrest', hpending', ?_⟩
  · rw [flatten_append, append_assoc, hflat', ← append_assoc, hflat, append_assoc]
  · intro p hp
    exact (mem_append.mp hp).elim (hpieces p) (hpieces' p)
  · rw [Trajectory.next, filterMap_append, hentries, hentries', filterMap_append]

lemma cuts_forward {x : Sent} (hx : x.entry? = none) (hrest : Uniform rest)
    (h : t.pending = retained rest) : Cuts rest [] (t.forward x) :=
  ⟨[], rest, by simp, by simp, hrest, h, by simp [forward, hx]⟩

lemma cuts_flush (hrest : Uniform rest) (h : t.pending = retained rest) : Cuts rest [] t.flush := by
  cases rest with
  | nil =>
    refine ⟨[], [], rfl, by simp, hrest, (flush_spec t).1, ?_⟩
    rw [flush_of_none h]
    rfl
  | cons d ds =>
    refine ⟨[d :: ds], [], by simp, by simpa using hrest, by rintro x ⟨⟩, (flush_spec t).1, ?_⟩
    rw [flush, h, filterMap_cons, shown]
    simp only [retained]
    split_ifs <;> rfl

lemma take_take_append (n : ℕ) (a b : List Char) : (a.take n ++ b).take n = (a ++ b).take n := by
  rw [take_append, take_take, Nat.min_self, take_append, length_take]
  congr 2
  omega

lemma bounded_append (n : ℕ) (a b : List Char) :
    (decide (n < a.length) || decide (n < (a.take n ++ b).length)) =
      decide (n < (a ++ b).length) := by
  rw [Bool.eq_iff_iff, Bool.or_eq_true, decide_eq_true_iff, decide_eq_true_iff,
    decide_eq_true_iff, length_append, length_append, length_take]
  omega

lemma retained_concat {x : Delta} {xs : List Delta} {d : Delta} (h : t.pending = retained (x :: xs)) :
    (t.append d).pending = retained (x :: xs ++ [d]) := by
  have htext : pieceText (x :: (xs ++ [d])) = pieceText (x :: xs) ++ d.text := by
    rw [pieceText, ← cons_append, flatMap_append, flatMap_singleton, pieceText]
  have hright : retained (x :: (xs ++ [d])) = some ⟨x.kind,
      (pieceText (x :: xs) ++ d.text).take pendingLimit, x.subagent,
      pendingLimit < (pieceText (x :: xs) ++ d.text).length⟩ := by rw [retained, htext]
  rw [cons_append, hright, append, h]
  simp only [retained, Option.getD_some, take_take_append]
  exact congrArg (fun b => some (Pending.mk x.kind _ x.subagent b)) (bounded_append _ _ _)

lemma append_of_none {d : Delta} (h : t.pending = none) : (t.append d).pending = retained [d] := by
  rw [append, h, retained, pieceText, flatMap_cons, flatMap_nil, append_nil]
  rfl

lemma startRun_spec (t : Trajectory) (kind : Kind) :
    (t.startRun kind).1.pending = t.pending ∧ (t.startRun kind).2.filterMap Sent.entry? = [] := by
  rw [startRun]
  split_ifs
  · exact ⟨rfl, rfl⟩
  · exact ⟨rfl, rfl⟩

lemma uniform_singleton (d : Delta) : Uniform [d] := by
  intro x hx y hy
  rw [mem_singleton.mp hx, mem_singleton.mp hy]
  exact ⟨rfl, rfl⟩

/-- A delta joins what is retained of its kind and subagent, and else starts a piece of its own. -/
lemma cuts_acceptDelta (hrest : Uniform rest) (h : t.pending = retained rest) (d : Delta) :
    Cuts rest [d] (t.acceptDelta d) := by
  -- With nothing pending the delta is announced and retained alone.
  have hfresh {t : Trajectory} (hnone : t.pending = none) :
      ((t.startRun d.kind).1.append d).pending = retained [d] :=
    append_of_none ((startRun_spec t d.kind).1.trans hnone)
  rw [acceptDelta, openRun, next]
  cases rest with
  | nil =>
    have hswitch : t.switch d = (t, []) := by simp [switch, h, retained]
    have hnone : t.pending = none := h
    refine ⟨[], [d], rfl, by simp, uniform_singleton d, ?_, ?_⟩
    · simp only [hswitch, if_pos hnone]
      exact hfresh hnone
    · simp only [hswitch, if_pos hnone]
      exact (startRun_spec t d.kind).2
  | cons x xs =>
    by_cases hsame : x.kind = d.kind ∧ x.subagent = d.subagent
    · have hswitch : t.switch d = (t, []) := by simp [switch, h, retained, hsame]
      have hsome : t.pending ≠ none := by simp [h, retained]
      refine ⟨[], x :: xs ++ [d], rfl, by simp, ?_, ?_, ?_⟩
      · have hsameAs : ∀ y ∈ x :: xs ++ [d], y.kind = d.kind ∧ y.subagent = d.subagent := by
          intro y hy
          rcases mem_append.mp hy with hy | hy
          · obtain ⟨hkind, hsubagent⟩ := hrest x mem_cons_self y hy
            exact ⟨hkind.trans hsame.1, hsubagent.trans hsame.2⟩
          · rw [mem_singleton.mp hy]
            exact ⟨rfl, rfl⟩
        intro y hy z hz
        exact ⟨(hsameAs z hz).1.trans (hsameAs y hy).1.symm,
          (hsameAs z hz).2.trans (hsameAs y hy).2.symm⟩
      · simp only [hswitch, if_neg hsome]
        exact retained_concat h
      · simp only [hswitch, if_neg hsome]
        rfl
    · have hswitch : t.switch d = t.flush := by
        rw [switch, if_pos]
        simpa [h, retained, imp_iff_not_or] using hsame
      have hnone := (flush_spec t).1
      obtain ⟨pieces, rest', hflat, hpieces, -, hpending, hentries⟩ := cuts_flush hrest h
      have hnil : rest' = [] := by
        cases rest' with
        | nil => rfl
        | cons y ys =>
          rw [hnone] at hpending
          cases hpending
      rw [hnil, append_nil, append_nil] at hflat
      refine ⟨pieces, [d], by rw [hflat], hpieces, uniform_singleton d, ?_, ?_⟩
      · simp only [hswitch, if_pos hnone]
        exact hfresh hnone
      · simp only [hswitch, if_pos hnone, filterMap_append, (startRun_spec _ d.kind).2, append_nil]
        exact hentries

lemma cuts_closeThinking (hrest : Uniform rest) (h : t.pending = retained rest) (e : Event) :
    Cuts rest [] (t.closeThinking e) := by
  rw [closeThinking]
  split_ifs
  · exact (cuts_flush hrest h).next fun t rest hrest h => cuts_forward rfl hrest h
  · exact cuts_self hrest h

lemma cuts_acceptEvent (hrest : Uniform rest) (h : t.pending = retained rest) (e : Event) :
    Cuts rest e.deltas (t.acceptEvent e) := by
  have hpass (e : Event) : Cuts rest [] (t.pass e) := by
    refine @Cuts.next rest [] [] _ ?_ _ fun t rest hrest h => cuts_forward rfl hrest h
    split_ifs
    · exact cuts_flush hrest h
    · exact cuts_self hrest h
  cases e with
  | delta d => exact cuts_acceptDelta hrest h d
  | _ => exact hpass _

lemma cuts_step (hrest : Uniform rest) (h : t.pending = retained rest) (label : Label) :
    Cuts rest (if t.disposed then [] else label.deltas) (t.step label) := by
  cases label with
  | accept e =>
    rw [step, accept]
    split_ifs with hdisposed
    · exact cuts_self hrest h
    · exact (cuts_closeThinking hrest h e).next fun t rest hrest h => cuts_acceptEvent hrest h e
  | timer =>
    have hnil : (if t.disposed = true then [] else Label.timer.deltas) = [] := ite_self _
    rw [hnil, step]
    split_ifs
    · exact cuts_flush hrest h
    · exact cuts_self hrest h
  | dispose =>
    have hnil : (if t.disposed = true then [] else Label.dispose.deltas) = [] := ite_self _
    rw [hnil, step, dispose]
    split_ifs
    · exact cuts_self hrest h
    · exact (cuts_flush hrest h).next fun t rest hrest h => @cuts_self _ rest hrest h

lemma deltas_concat (labels : List Label) (label : Label) : deltas (labels ++ [label]) =
    deltas labels ++ if Label.dispose ∈ labels then [] else label.deltas := by
  have hall : (labels.takeWhile (· ≠ .dispose)).length = labels.length ↔ .dispose ∉ labels := by
    constructor
    · intro hlength hmem
      have hself := takeWhile_prefix _ |>.eq_of_length hlength
      exact of_decide_eq_true (takeWhile_eq_self_iff.mp hself _ hmem) rfl
    · intro hmem
      refine congrArg length (takeWhile_eq_self_iff.mpr fun x hx => ?_)
      exact decide_eq_true fun heq => hmem (heq ▸ hx)
  rw [deltas, takeWhile_append]
  by_cases hmem : Label.dispose ∈ labels
  · rw [if_neg (fun h => hall.mp h hmem), if_pos hmem, append_nil, deltas]
  · have htake : labels.takeWhile (· ≠ .dispose) = labels :=
      takeWhile_prefix _ |>.eq_of_length (hall.mpr hmem)
    rw [if_pos (hall.mpr hmem), if_neg hmem, flatMap_append, deltas, htake]
    congr 1
    cases label with
    | accept e => exact append_nil _
    | _ => rfl

lemma cuts_run (labels : List Label) : Cuts [] (deltas labels) (run labels) := by
  induction labels using reverseRecOn with
  | nil => exact cuts_self (by rintro x ⟨⟩) rfl
  | append_singleton labels label ih =>
    rw [run_concat, deltas_concat]
    have hdisposed := (run_tracks labels).2
    obtain ⟨pieces, mid, hflat, hpieces, hmid, hpending, hentries⟩ := ih
    obtain ⟨pieces', rest', hflat', hpieces', hrest', hpending', hentries'⟩ :=
      cuts_step hmid hpending label
    refine ⟨pieces ++ pieces', rest', ?_, ?_, hrest', hpending', ?_⟩
    · rw [flatten_append, append_assoc, hflat', ← append_assoc, hflat, append_assoc]
      simp only [hdisposed]
    · intro p hp
      exact (mem_append.mp hp).elim (hpieces p) (hpieces' p)
    · rw [next, filterMap_append, hentries, hentries', filterMap_append]

end Trajectory

/-! ### The limit -/

lemma length_shownText_le (text : List Char) (truncated : Bool) :
    (Trajectory.shownText text truncated).length ≤ Trajectory.entryLimit := by
  rw [Trajectory.shownText]
  split_ifs with h
  · rw [length_append, length_take, length_singleton]
    have : Trajectory.entryLimit = 2000 := rfl
    omega
  · exact not_lt.mp fun hlt => h (Or.inl hlt)

lemma length_shown_le {piece : List Delta} {e : Entry} (h : shown piece = some e) :
    e.text.length ≤ Trajectory.entryLimit := by
  cases piece with
  | nil => cases h
  | cons d ds =>
    rw [shown] at h
    split_ifs at h
    obtain rfl := Option.some.inj h
    exact length_shownText_le _ _

/-! ### Runs -/

open Trajectory

/-- The label is an event that ends a thinking run which is the last announced activity. -/
def EndsAnnounced (before : List Label) (label : Label) : Prop :=
  .dispose ∉ before ∧ announcement (run before).2 = some .thinkingStarted ∧
    ∃ e : Event, label = .accept e ∧ e.endsThinking = true

/-- After any run, a step closes a thinking run exactly when it is the last announced activity and
the step accepts an event that ends it: once, and before the event is forwarded. The deltas of the
run are cut into pieces in their order, whose texts are the entries, redacted and within the
limit. -/
theorem trajectory_run (before : List Label) (label : Label) :
    (∀ e, label = .accept e → EndsAnnounced before label → ∃ entries : List Entry,
      ((run before).1.step label).2 = entries.map Sent.entry ++ [.closed, e.forwarded]) ∧
    (¬ EndsAnnounced before label → .closed ∉ ((run before).1.step label).2) ∧
    (∃ (pieces : List (List Delta)) (rest : List Delta),
      pieces.flatten ++ rest = deltas before ∧ (∀ p ∈ pieces, p ≠ [] ∧ Uniform p) ∧
      (run before).1.pending = retained rest ∧
      (run before).2.filterMap Sent.entry? = pieces.filterMap shown) ∧
    ∀ e ∈ (run before).2.filterMap Sent.entry?, e.text.length ≤ entryLimit := by
  obtain ⟨hlast, hdisposed⟩ := run_tracks before
  obtain ⟨pieces, rest, hflat, hpieces, -, hpending, hentries⟩ := cuts_run before
  refine ⟨?_, ?_, ⟨pieces, rest, hflat, hpieces, hpending, hentries⟩, ?_⟩
  · rintro e rfl ⟨hbefore, hannounced, e', heq, hends⟩
    obtain rfl := Label.accept.inj heq
    refine accept_closes ?_ (hlast.trans hannounced) hends
    exact Bool.eq_false_iff.mpr fun h => hbefore (hdisposed.mp h)
  · intro hnot
    refine quiet_step fun e he hfalse hstarted => Bool.eq_false_iff.mpr fun hends => hnot ?_
    refine ⟨fun hmem => ?_, hlast.symm.trans hstarted, e, he, hends⟩
    rw [hdisposed.mpr hmem] at hfalse
    cases hfalse
  · intro e he
    rw [hentries] at he
    obtain ⟨piece, -, hshown⟩ := mem_filterMap.mp he
    exact length_shown_le hshown

/-! ### Runs that are not closed, and text that is replaced -/

/-- A thinking run was announced and not closed since. -/
def unclosed (sent : List Sent) : Bool :=
  (sent.filterMap fun x => x.event.announces).reverse.find?
    (fun kind => kind = .thinkingStarted ∨ kind = .thinkingEnd) = some .thinkingStarted

/-- Another activity takes the place of an announced thinking run, which then is never closed, and
a secret in the text is replaced. -/
theorem unclosed_and_redacted :
    (¬ ∀ (before : List Label) (e : Event), .dispose ∉ before → unclosed (run before).2 = true →
      e.endsThinking = true → .closed ∈ ((run before).1.step (.accept e)).2) ∧
    ¬ ∀ text : List Char, text.length ≤ entryLimit →
      ((run [.accept (.delta ⟨.text, text, none⟩), .accept .completed]).2.filterMap
        Sent.entry?).flatMap Entry.text = text := by
  constructor
  · intro h
    have hclosed := h [.accept (.delta ⟨.thinking, ['a'], none⟩),
      .accept (.activity ⟨.other "system_message", .info, "", []⟩)] .completed (by decide)
      (by decide) (by decide)
    exact absurd hclosed (by decide)
  · intro h
    exact absurd (h "token=abc".toList (by decide)) (by decide)

end Coforge.Activity
