import Coforge.Lib.Scan
import Coforge.References.Alternatives

/-!
# The references of a prose text

`matchesIn` keeps the next match of every alternative until the cursor passes it, and takes the
leftmost of them, the earliest alternative on a tie. This is the same as searching with every
alternative from every cursor.
-/

namespace Coforge.References

open List
open Scan (firstFrom refresh Cached)

/-- Where a pattern matched, and its groups. -/
abbrev Match := ℕ × List (List Char)

/-- The first match of an alternative at or after a cursor. -/
def Alternative.exec (a : Alternative) (text : List Char) (cursor : ℕ) : Option Match :=
  firstFrom (a.matchAt text) text.length cursor

/-- A reading and where it starts. -/
structure Found where
  index   : ℕ
  reading : Reading
  deriving DecidableEq

namespace Found

/-- The index behind the text of a reading. -/
def stop (f : Found) : ℕ := f.index + f.reading.text.length

end Found

def Alternative.found (a : Alternative) (text : List Char) (m : Match) : Found :=
  ⟨m.1, a.read text m.1 m.2⟩

/-- Keeps the earlier one of two matches, and the one that was there first on a tie. -/
def better (best : Option (Alternative × Match)) (a : Alternative) :
    Option Match → Option (Alternative × Match)
  | none   => best
  | some m =>
    match best with
    | none   => some (a, m)
    | some b => if m.1 < b.2.1 then some (a, m) else best

/-- One round over the alternatives and what is upcoming of each: their next matches, and the best
one. -/
def round (text : List Char) (cursor : ℕ) : List (Alternative × Option (Option Match)) →
    Option (Alternative × Match) → List (Option Match) × Option (Alternative × Match)
  | [], best                   => ([], best)
  | (a, pending) :: rest, best =>
    let next := refresh (a.matchAt text) text.length cursor pending
    let (upcoming, best) := round text cursor rest (better best a next)
    (next :: upcoming, best)

/-- The loop of `matchesIn`, which returns when no alternative has a match left. -/
def matchesFrom (alternatives : List Alternative) (text : List Char) :
    ℕ → List (Option (Option Match)) → ℕ → Option (List Found)
  | 0, _, _                   => none
  | fuel + 1, upcoming, cursor =>
    match round text cursor (alternatives.zip upcoming) none with
    | (_, none)                => some []
    | (upcoming, some (a, m)) =>
      let f := a.found text m
      (matchesFrom alternatives text fuel (upcoming.map some) f.stop).map (f :: ·)

def matchesIn (alternatives : List Alternative) (text : List Char) (fuel : ℕ) :
    Option (List Found) :=
  matchesFrom alternatives text fuel (alternatives.map fun _ => none) 0

/-! ### The plain definition -/

/-- The leftmost match at or after a cursor, of the earliest alternative that has it. -/
def leftmost (alternatives : List Alternative) (text : List Char) (cursor : ℕ) :
    Option (Alternative × Match) :=
  (alternatives.filterMap fun a => (a.exec text cursor).map (a, ·)).argmin fun b => b.2.1

/-- Searches with every alternative from each cursor. -/
def rescan (alternatives : List Alternative) (text : List Char) : ℕ → ℕ → Option (List Found)
  | 0, _             => none
  | fuel + 1, cursor =>
    match leftmost alternatives text cursor with
    | none        => some []
    | some (a, m) => (rescan alternatives text fuel (a.found text m).stop).map (a.found text m :: ·)

/-! ### One round -/

/-- What is upcoming of the alternatives is what a search from an earlier cursor gave. -/
def Upcoming (text : List Char) (cursor : ℕ) (upcoming : List (Alternative × Option (Option Match))) :
    Prop := ∀ entry ∈ upcoming, Cached (entry.1.matchAt text) text.length cursor entry.2

variable {text : List Char} {cursor : ℕ}

lemma round_eq
    {entries : List (Alternative × Option (Option Match))} (h : Upcoming text cursor entries)
    (best : Option (Alternative × Match)) : round text cursor entries best =
      (entries.map fun entry => entry.1.exec text cursor,
        ((entries.map Prod.fst).filterMap fun a => (a.exec text cursor).map (a, ·)).foldl
          (List.argAux fun b c => b.2.1 < c.2.1) best) := by
  induction entries generalizing best with
  | nil => rfl
  | cons entry rest ih =>
    obtain ⟨a, pending⟩ := entry
    have hnext : refresh (a.matchAt text) text.length cursor pending = a.exec text cursor :=
      Cached.refresh (h _ mem_cons_self)
    have hrest := fun b => ih (fun entry hentry => h entry (mem_cons_of_mem _ hentry)) b
    rw [round, hnext, hrest, map_cons, map_cons, filterMap_cons]
    cases a.exec text cursor with
    | none => rfl
    | some m =>
      cases best with
      | none => rfl
      | some b => rfl

section

variable {alternatives : List Alternative}

lemma round_zip
    {upcoming : List (Option (Option Match))} (hlength : upcoming.length = alternatives.length)
    (h : Upcoming text cursor (alternatives.zip upcoming)) :
    round text cursor (alternatives.zip upcoming) none =
      (alternatives.map fun a => a.exec text cursor, leftmost alternatives text cursor) := by
  have hfst : (alternatives.zip upcoming).map Prod.fst = alternatives :=
    map_fst_zip hlength.ge
  have hmap : ((alternatives.zip upcoming).map fun entry => entry.1.exec text cursor) =
      alternatives.map fun a => a.exec text cursor := by
    conv_rhs => rw [← hfst, map_map]
    rfl
  rw [round_eq h, hfst, hmap]
  rfl

lemma leftmost_bounds
    {a : Alternative} {m : Match} (h : leftmost alternatives text cursor = some (a, m)) :
    a ∈ alternatives ∧ cursor ≤ m.1 ∧ m.1 ≤ text.length ∧ a.matchAt text m.1 = some m.2 := by
  obtain ⟨a', ha', hfound⟩ := mem_filterMap.mp (argmin_mem h)
  obtain ⟨m', hexec, heq⟩ := Option.map_eq_some_iff.mp hfound
  cases heq
  exact ⟨ha', Scan.bounds hexec⟩

/-! ### The whole loop -/

lemma upcoming_exec {cursor' : ℕ} (h : cursor ≤ cursor') : Upcoming text cursor'
      (alternatives.zip ((alternatives.map fun a => a.exec text cursor).map some)) := by
  intro entry hentry
  rw [map_map, ← map_prod_left_eq_zip] at hentry
  obtain ⟨a, -, rfl⟩ := mem_map.mp hentry
  exact ⟨cursor, h, rfl⟩

lemma matchesFrom_eq (fuel : ℕ) {upcoming : List (Option (Option Match))}
    (hlength : upcoming.length = alternatives.length)
    (h : Upcoming text cursor (alternatives.zip upcoming)) :
    matchesFrom alternatives text fuel upcoming cursor = rescan alternatives text fuel cursor := by
  induction fuel generalizing upcoming cursor with
  | zero => rfl
  | succ fuel ih =>
    rw [matchesFrom, rescan, round_zip hlength h]
    cases hbest : leftmost alternatives text cursor with
    | none => rfl
    | some b =>
      obtain ⟨a, m⟩ := b
      have hstop : cursor ≤ (a.found text m).stop :=
        (leftmost_bounds hbest).2.1.trans (Nat.le_add_right m.1 _)
      have hnext := ih (by rw [length_map, length_map]) (upcoming_exec hstop)
      simp only [hnext]

lemma rescan_sorted {fuel : ℕ}
    {found : List Found} (h : rescan alternatives text fuel cursor = some found) :
    (∀ f ∈ found, cursor ≤ f.index) ∧ found.Pairwise fun f g => f.stop ≤ g.index := by
  induction fuel generalizing cursor found with
  | zero => cases h
  | succ fuel ih =>
    rw [rescan] at h
    cases hbest : leftmost alternatives text cursor with
    | none =>
      rw [hbest] at h
      cases h
      exact ⟨by simp, Pairwise.nil⟩
    | some b =>
      obtain ⟨a, m⟩ := b
      rw [hbest] at h
      obtain ⟨rest, hrest, rfl⟩ := Option.map_eq_some_iff.mp h
      obtain ⟨hahead, hsorted⟩ := ih hrest
      have hcursor : cursor ≤ (a.found text m).index := (leftmost_bounds hbest).2.1
      refine ⟨?_, pairwise_cons.mpr ⟨hahead, hsorted⟩⟩
      intro f hf
      rcases mem_cons.mp hf with rfl | hf
      · exact hcursor
      · have hstop : (a.found text m).index ≤ (a.found text m).stop := Nat.le_add_right _ _
        exact hcursor.trans (hstop.trans (hahead f hf))

lemma rescan_isSome (hconsumes : ∀ a ∈ alternatives, a.Consumes) {fuel : ℕ} (hfuel : 0 < fuel)
    (hle : text.length + 2 ≤ cursor + fuel) : (rescan alternatives text fuel cursor).isSome := by
  induction fuel generalizing cursor with
  | zero => cases hfuel
  | succ fuel ih =>
    rw [rescan]
    cases hbest : leftmost alternatives text cursor with
    | none => rfl
    | some b =>
      obtain ⟨a, m⟩ := b
      obtain ⟨ha, hcursor, hlast, hm⟩ := leftmost_bounds hbest
      have htext : 0 < (a.found text m).reading.text.length :=
        length_pos_iff.mpr (hconsumes a ha text m.1 m.2 hm)
      have hstop : (a.found text m).stop = m.1 + (a.found text m).reading.text.length := rfl
      have hrest := @ih (a.found text m).stop (by omega) (by omega)
      simpa only [Option.isSome_map] using hrest

lemma matchesIn_eq (alternatives : List Alternative) (text : List Char) (fuel : ℕ) :
    matchesIn alternatives text fuel = rescan alternatives text fuel 0 := by
  refine matchesFrom_eq fuel (length_map _) fun entry hentry => ?_
  obtain ⟨a, -, heq⟩ := mem_map.mp (of_mem_zip hentry).2
  rw [← heq]
  trivial

lemma matchesIn_isSome (hconsumes : ∀ a ∈ alternatives, a.Consumes) :
    (matchesIn alternatives text (text.length + 2)).isSome := by
  rw [matchesIn_eq]
  exact rescan_isSome hconsumes (Nat.succ_pos _) (Nat.le_add_left _ _)

end

/-- Keeping the next matches gives the list of searching again with every alternative from every
cursor. Its matches stand in order and do not overlap, and the alternatives of a message's
references always come to an end. -/
theorem matchesIn_eq_rescan (scanners : List Alternative) (text : List Char) :
    (∀ fuel, matchesIn scanners text fuel = rescan scanners text fuel 0) ∧
      (∀ fuel found, matchesIn scanners text fuel = some found →
        found.Pairwise fun f g => f.stop ≤ g.index) ∧ ((∀ a ∈ scanners, a.Consumes) →
        (matchesIn scanners text (text.length + 2)).isSome) ∧
      ∀ u, (matchesIn (alternatives u) text (text.length + 2)).isSome := by
  refine ⟨fun fuel => matchesIn_eq scanners text fuel, fun fuel found h => ?_,
    matchesIn_isSome, fun u => matchesIn_isSome (alternatives_consume u)⟩
  rw [matchesIn_eq] at h
  exact (rescan_sorted h).2

end Coforge.References
