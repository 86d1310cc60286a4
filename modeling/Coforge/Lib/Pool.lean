import Coforge.Lib.Prog
import Coforge.Lib.Run

/-!
# Calls that run side by side

The calls of a component share its state, and each of them is suspended at its own await while
the others go on. A call is known by its place in the list of all calls made so far. `Pool.Spec`
reduces an invariant of all interleavings to the usual rely/guarantee obligations: one `wp` for
each call, and between any two calls that what the one promises is what the other relies on.

`Prog.Can` is the dual of `wp` for one call that runs alone: there are answers with which it ends
as stated.
-/

namespace Async

open Transition Prog

/-- The parts of a component with shared state `σ`, events `ι`, kinds of calls `T`, outcomes `O`
of the world, replies `R` and errors `ε`. -/
structure Pool (σ ι T O : Type) {E : Type} (R : E → Type) (ε : Type) where
  event : σ → ι → Option σ
  body : Nat → T → Prog σ R ε Unit
  answer : (e : E) → O → σ → Option (R e × σ)

/-- A call that has not ended: what it was made for, and its suspended rest. -/
abbrev Live (σ T : Type) {E : Type} (R : E → Type) (ε : Type) : Type :=
  T × Suspended σ R ε Unit

/-- The shared state, and all calls made so far. -/
structure Roster (σ T : Type) {E : Type} (R : E → Type) (ε : Type) where
  shared : σ
  calls : List (Option (Live σ T R ε))

/-- An event, a new call, or a reply to one of the calls. -/
inductive Move (ι T O : Type) where
  | event (l : ι)
  | call (task : T)
  | reply (i : Nat) (o : O)
deriving DecidableEq

namespace Prog

variable {σ E : Type} {R : E → Type} {ε α β : Type} {task : T}

/-- The rest of a call that ran up to its next await, if it did not end. -/
def Halt.live (task : T) : Halt σ R ε Unit → Option (Live σ T R ε)
  | .done _    => none
  | .waiting p => some (task, p)

end Prog

namespace Roster

variable {σ T E : Type} {R : E → Type} {ε : Type}

/-- The call at a place, if it was made and has not ended. -/
def at? (s : Roster σ T R ε) (i : Nat) : Option (Live σ T R ε) :=
  s.calls[i]?.join

@[simp] lemma at?_append_self (u : σ) (cs : List (Option (Live σ T R ε)))
    (c : Option (Live σ T R ε)) : (Roster.mk u (cs ++ [c])).at? cs.length = c := by
  simp [at?]

variable {u : σ} {cs : List (Option (Live σ T R ε))} {c : Option (Live σ T R ε)} {i : Nat}

lemma at?_append_of_ne (hi : i ≠ cs.length) :
    (Roster.mk u (cs ++ [c])).at? i = (Roster.mk u cs).at? i := by
  rcases Nat.lt_or_ge i cs.length with hlt | hge
  · simp [at?, List.getElem?_append_left hlt]
  · have hlong : (cs ++ [c]).length ≤ i := by
      rw [List.length_append, List.length_singleton]
      omega
    rw [at?, at?, List.getElem?_eq_none hlong, List.getElem?_eq_none hge]

lemma at?_set_self (hi : i < cs.length) : (Roster.mk u (cs.set i c)).at? i = c := by
  simp [at?, hi]

lemma at?_set_of_ne
    {j : Nat} (hij : i ≠ j) : (Roster.mk u (cs.set i c)).at? j = (Roster.mk u cs).at? j := by
  simp [at?, hij]

lemma lt_of_at? {s : Roster σ T R ε} {c : Live σ T R ε} (h : s.at? i = some c) :
    i < s.calls.length := by
  rcases Nat.lt_or_ge i s.calls.length with hlt | hge
  · exact hlt
  · simp [at?, hge] at h

end Roster

namespace Pool

variable {σ ι T O E : Type} {R : E → Type} {ε : Type}

def step (M : Pool σ ι T O R ε) (s : Roster σ T R ε) : Move ι T O → Option (Roster σ T R ε)
  | .event l => (M.event s.shared l).map fun t => { s with shared := t }
  | .call task =>
    let (halt, t) := (M.body s.calls.length task).advance s.shared
    some ⟨t, s.calls ++ [halt.live task]⟩
  | .reply i o =>
    match s.at? i with
    | none => none
    | some (task, p) =>
      (M.answer p.effect o s.shared).map fun (r, u) =>
        let (halt, t) := (p.resume r).advance u
        ⟨t, s.calls.set i (halt.live task)⟩

variable {M : Pool σ ι T O R ε} {s t : Roster σ T R ε}

lemma step_event {l : ι} : M.step s (.event l) = some t ↔
      ∃ u, M.event s.shared l = some u ∧ { s with shared := u } = t := by
  simp [step]

lemma step_call {task : T} : M.step s (.call task) = some t ↔
      ∃ halt u, (M.body s.calls.length task).advance s.shared = (halt, u) ∧
        Roster.mk u (s.calls ++ [halt.live task]) = t := by
  constructor
  · intro ht
    exact ⟨_, _, rfl, Option.some.inj ht⟩
  · rintro ⟨halt, u, hadv, rfl⟩
    simp [step, hadv]

lemma step_reply {i : Nat} {o : O} : M.step s (.reply i o) = some t ↔
      ∃ task p, s.at? i = some (task, p) ∧ ∃ r u, M.answer p.effect o s.shared = some (r, u) ∧
        ∃ halt v, (p.resume r).advance u = (halt, v) ∧
          Roster.mk v (s.calls.set i (halt.live task)) = t := by
  rcases h : s.at? i with _ | ⟨task, p⟩
  · simp [step, h]
  · simp only [step, h, Option.map_eq_some_iff, Prod.exists, Option.some.injEq, Prod.mk.injEq]
    constructor
    · rintro ⟨r, u, hans, ht⟩
      exact ⟨task, p, ⟨rfl, rfl⟩, r, u, hans, _, _, rfl, ht⟩
    · rintro ⟨_, _, ⟨rfl, rfl⟩, r, u, hans, _, _, hadv, ht⟩
      refine ⟨r, u, hans, ?_⟩
      rw [hadv]
      exact ht

/-! ### Safety of all interleavings -/

/-- The proof obligations of a pool: an invariant of the shared state, a context for each call,
and what the shared state looks like to a call that has not begun, and to one that is over. -/
structure Spec (M : Pool σ ι T O R ε) where
  inv : σ → Prop
  context : Nat → Context σ R
  fresh : Nat → σ → Prop
  away : Nat → σ → Prop
  rely_refl : ∀ i s, inv s → (context i).rely s s
  rely_trans : ∀ i s t u, (context i).rely s t → (context i).rely t u → (context i).rely s u
  guar_refl : ∀ i s, (context i).guar s s
  guar_trans : ∀ i s t u, (context i).guar s t → (context i).guar t u → (context i).guar s u
  guar_inv : ∀ i s t, inv s → (context i).guar s t → inv t
  guar_rely : ∀ i j s t, i ≠ j → inv s → (context i).guar s t → (context j).rely s t
  event_inv : ∀ s l t, inv s → M.event s l = some t → inv t
  event_rely : ∀ i s l t, inv s → M.event s l = some t → (context i).rely s t
  fresh_rely : ∀ i s t, fresh i s → (context i).rely s t → fresh i t
  away_rely : ∀ i s t, away i s → (context i).rely s t → away i t
  answer_of : ∀ i e o s r t, M.answer e o s = some (r, t) → (context i).answer e s r t
  body_safe : ∀ i task s, inv s → fresh i s →
    wp (context i) (M.body i task) (fun _ => away i) s

namespace Spec

variable (P : Spec M)

/-- A call that is over left nothing behind; one that is under way issued an effect it may issue,
and the rest of it is safe whatever happened since. -/
def Holds (i : Nat) (c : Option (Live σ T R ε)) (s : σ) : Prop :=
  match c with
  | none => P.away i s
  | some (_, p) => ∃ u, (P.context i).issue p.effect u ∧
      p.Safe (P.context i) (fun _ => P.away i) u ∧ (P.context i).rely u s

/-- What holds at every point of a run. -/
structure Inv (s : Roster σ T R ε) : Prop where
  shared : P.inv s.shared
  calls : ∀ i < s.calls.length, P.Holds i (s.at? i) s.shared
  fresh : ∀ i, s.calls.length ≤ i → P.fresh i s.shared

variable {P}

variable {i : Nat} {u v : σ}

/-- What the others do leaves a call as it was. -/
lemma Holds.of_rely {c : Option (Live σ T R ε)} (h : P.Holds i c u)
    (hrely : (P.context i).rely u v) : P.Holds i c v := by
  cases c with
  | none => exact P.away_rely i u v h hrely
  | some c =>
    obtain ⟨w, hissue, hsafe, hw⟩ := h
    exact ⟨w, hissue, hsafe, P.rely_trans i w u v hw hrely⟩

variable {halt : Halt σ R ε Unit}

/-- A stretch of a call up to its next await. -/
lemma advance_holds {p : Prog σ R ε Unit}
    (task : T) (hinv : P.inv u) (h : wp (P.context i) p (fun _ => P.away i) u)
    (hadv : p.advance u = (halt, v)) : (P.context i).guar u v ∧ P.Holds i (halt.live task) v := by
  have hspec := advance_spec (P.guar_refl i) (P.guar_trans i) h
  rw [hadv] at hspec
  obtain ⟨hguar, hhalt⟩ := hspec
  refine ⟨hguar, ?_⟩
  cases halt with
  | done r => exact hhalt
  | waiting q => exact ⟨v, hhalt.1, hhalt.2, P.rely_refl i v (P.guar_inv i u v hinv hguar)⟩

/-- What a new call does up to its first await. -/
lemma Inv.call_spec (hs : P.Inv s) {task : T}
    (hadv : (M.body s.calls.length task).advance s.shared = (halt, u)) :
    (P.context s.calls.length).guar s.shared u ∧ P.Holds s.calls.length (halt.live task) u :=
  advance_holds task hs.shared
    (P.body_safe _ task _ hs.shared (hs.fresh _ (Nat.le_refl _))) hadv

/-- What a call does from a reply to its next await. -/
lemma Inv.reply_spec (hs : P.Inv s) {o : O} {task : T} {p : Suspended σ R ε Unit}
    (hi : s.at? i = some (task, p)) {r : R p.effect}
    (hans : M.answer p.effect o s.shared = some (r, u))
    (hadv : (p.resume r).advance u = (halt, v)) :
    (P.context i).guar s.shared v ∧ P.Holds i (halt.live task) v := by
  have hcall := hs.calls i (Roster.lt_of_at? hi)
  rw [hi] at hcall
  obtain ⟨w, -, hsafe, hrely⟩ := hcall
  obtain ⟨hguar, hwp⟩ := hsafe _ hrely r u (P.answer_of i p.effect o _ r u hans)
  obtain ⟨hguar', hholds⟩ := advance_holds task
    (P.guar_inv i _ _ hs.shared hguar) hwp hadv
  exact ⟨P.guar_trans i _ _ _ hguar hguar', hholds⟩

/-- A step is an event, or does what one call promises. -/
theorem Inv.guar_step {a : Move ι T O} (hs : P.Inv s) (hstep : M.step s a = some t) :
    (∃ l, a = .event l ∧ M.event s.shared l = some t.shared) ∨
      ∃ i, (P.context i).guar s.shared t.shared := by
  cases a with
  | event l =>
    obtain ⟨u, hu, rfl⟩ := step_event.mp hstep
    exact .inl ⟨l, rfl, hu⟩
  | call task =>
    obtain ⟨halt, u, hadv, rfl⟩ := step_call.mp hstep
    exact .inr ⟨_, (hs.call_spec hadv).1⟩
  | reply i o =>
    obtain ⟨task, p, hi, r, u, hans, halt, v, hadv, rfl⟩ := step_reply.mp hstep
    exact .inr ⟨i, (hs.reply_spec hi hans hadv).1⟩

/-- One step of any kind preserves the invariant. -/
theorem safe_step {a : Move ι T O} (hs : P.Inv s) (hstep : M.step s a = some t) : P.Inv t := by
  cases a with
  | event l =>
    obtain ⟨u, hu, rfl⟩ := step_event.mp hstep
    have hrely (i : Nat) := P.event_rely i _ l u hs.shared hu
    exact ⟨P.event_inv _ l u hs.shared hu, fun i hi => (hs.calls i hi).of_rely (hrely i),
      fun i hi => P.fresh_rely i _ _ (hs.fresh i hi) (hrely i)⟩
  | call task =>
    obtain ⟨halt, u, hadv, rfl⟩ := step_call.mp hstep
    obtain ⟨hguar, hholds⟩ := hs.call_spec hadv
    have hrely {i : Nat} (hi : i ≠ s.calls.length) :=
      P.guar_rely _ i _ _ (Ne.symm hi) hs.shared hguar
    refine ⟨P.guar_inv _ _ _ hs.shared hguar, fun i hlt => ?_, fun i hle => ?_⟩
    · by_cases hi : i = s.calls.length
      · subst hi
        rw [Roster.at?_append_self]
        exact hholds
      · rw [Roster.at?_append_of_ne hi]
        have hlt' : i < s.calls.length := by
          simp only [List.length_append, List.length_singleton] at hlt
          omega
        exact (hs.calls i hlt').of_rely (hrely hi)
    · have hle' : s.calls.length + 1 ≤ i := by simpa using hle
      exact P.fresh_rely i _ _ (hs.fresh i (by omega)) (hrely (by omega))
  | reply i o =>
    obtain ⟨task, p, hi, r, u, hans, halt, v, hadv, rfl⟩ := step_reply.mp hstep
    obtain ⟨hguar, hholds⟩ := hs.reply_spec hi hans hadv
    have hothers {j : Nat} (hij : i ≠ j) := P.guar_rely i j _ _ hij hs.shared hguar
    refine ⟨P.guar_inv i _ _ hs.shared hguar, fun j hlt => ?_, fun j hle => ?_⟩
    · by_cases hij : i = j
      · subst hij
        rw [Roster.at?_set_self (Roster.lt_of_at? hi)]
        exact hholds
      · rw [Roster.at?_set_of_ne hij]
        exact (hs.calls j (by simpa using hlt)).of_rely (hothers hij)
    · have hle' : s.calls.length ≤ j := by simpa using hle
      have hlt := Roster.lt_of_at? hi
      exact P.fresh_rely j _ _ (hs.fresh j hle') (hothers (by omega))

/-- The invariant holds at every point of every run. -/
theorem safe_run {moves : List (Move ι T O)} (hs : P.Inv s) (hrun : run M.step s moves = some t) :
    P.Inv t :=
  invariant (fun _ _ _ h (_ : True) => safe_step h) hs (permitted_of_forall (fun _ _ => trivial) _ _)
    hrun

/-- Before the first call. -/
lemma inv_init (hinv : P.inv u) (hfresh : ∀ i, P.fresh i u) : P.Inv (⟨u, []⟩ : Roster σ T R ε) :=
  ⟨hinv, fun _ hi => absurd hi (Nat.not_lt_zero _), fun i _ => hfresh i⟩

/-- A call at an await: the effect was allowed, in a state the others may only have changed. -/
lemma Inv.issued (hs : P.Inv s) {task : T} {p : Suspended σ R ε Unit}
    (hi : s.at? i = some (task, p)) :
    ∃ u, (P.context i).issue p.effect u ∧ (P.context i).rely u s.shared := by
  have hcall := hs.calls i (Roster.lt_of_at? hi)
  rw [hi] at hcall
  obtain ⟨u, hissue, -, hrely⟩ := hcall
  exact ⟨u, hissue, hrely⟩

/-- A call that is not under way has not begun, or is over. -/
lemma Inv.away (hs : P.Inv s) (hi : s.at? i = none) : P.fresh i s.shared ∨ P.away i s.shared := by
  rcases Nat.lt_or_ge i s.calls.length with hlt | hge
  · have hcall := hs.calls i hlt
    rw [hi] at hcall
    exact .inr hcall
  · exact .inl (hs.fresh i hge)

end Spec

/-! ### What the calls leave alone -/

section Keeps

variable {β : Type} {f : σ → β}

/-- No call under way changes what `f` reads of the shared state, except by its answers. -/
def Keeping (f : σ → β) (s : Roster σ T R ε) : Prop :=
  ∀ i task p, s.at? i = some (task, p) → ∀ r, (p.resume r).Keeps f

lemma keeping_nil (f : σ → β) (u : σ) : Keeping f (⟨u, []⟩ : Roster σ T R ε) := by
  intro i task p hp
  simp [Roster.at?] at hp

/-- The rest of a call that keeps `f` keeps it too. -/
lemma keeps_of_live {task task' : T} {p : Suspended σ R ε Unit} {q : Prog σ R ε Unit} {u v : σ}
    {halt : Halt σ R ε Unit} (hq : q.Keeps f) (hadv : q.advance u = (halt, v))
    (hlive : halt.live task = some (task', p)) (r : R p.effect) : (p.resume r).Keeps f := by
  have hwaiting := (hq.advance u).2
  rw [hadv] at hwaiting
  cases halt with
  | done r => cases hlive
  | waiting p' =>
    cases hlive
    exact hwaiting _ rfl r

theorem keeping_step {a : Move ι T O} (hbody : ∀ i task, (M.body i task).Keeps f)
    (hs : Keeping f s) (hstep : M.step s a = some t) : Keeping f t := by
  cases a with
  | event l =>
    obtain ⟨u, hu, rfl⟩ := step_event.mp hstep
    exact hs
  | call task =>
    obtain ⟨halt, u, hadv, rfl⟩ := step_call.mp hstep
    intro i task' p hp
    by_cases hi : i = s.calls.length
    · subst hi
      rw [Roster.at?_append_self] at hp
      exact keeps_of_live (hbody _ task) hadv hp
    · rw [Roster.at?_append_of_ne hi] at hp
      exact hs i task' p hp
  | reply i o =>
    obtain ⟨task, p, hi, r, u, hans, halt, v, hadv, rfl⟩ := step_reply.mp hstep
    intro j task' q hq
    by_cases hij : i = j
    · subst hij
      rw [Roster.at?_set_self (Roster.lt_of_at? hi)] at hq
      exact keeps_of_live (hs i task p hi r) hadv hq
    · rw [Roster.at?_set_of_ne hij] at hq
      exact hs j task' q hq

/-- A reply changes what `f` reads as the answer does. -/
lemma reply_keeps {i : Nat} {o : O} {task : T} {p : Suspended σ R ε Unit} (hs : Keeping f s)
    (hi : s.at? i = some (task, p)) (hstep : M.step s (.reply i o) = some t) :
    ∃ r u, M.answer p.effect o s.shared = some (r, u) ∧ f t.shared = f u := by
  obtain ⟨task', p', hi', r, u, hans, halt, v, hadv, rfl⟩ := step_reply.mp hstep
  obtain ⟨-, rfl⟩ : task' = task ∧ p' = p := by simpa using hi'.symm.trans hi
  have hkept := ((hs i task' p' hi' r).advance u).1
  rw [hadv] at hkept
  exact ⟨r, u, hans, hkept⟩

end Keeps

end Pool

/-! ### What one call can reach -/

namespace Prog

variable {σ E O : Type} {R : E → Type} {ε α β : Type}

/-- If nothing else moves, there are outcomes of the world with which the program ends in `Q`. -/
def Can (answer : (e : E) → O → σ → Option (R e × σ)) :
    Prog σ R ε α → (Except ε α → σ → Prop) → σ → Prop
  | .ret a, Q, s      => Q (.ok a) s
  | .throw e, Q, s    => Q (.error e) s
  | .get k, Q, s      => Can answer (k s) Q s
  | .modify f k, Q, s => Can answer k Q (f s)
  | .await e k, Q, s  => ∃ o r t, answer e o s = some (r, t) ∧ Can answer (k r) Q t

variable {answer : (e : E) → O → σ → Option (R e × σ)} {s : σ}

variable {p : Prog σ R ε α}

lemma Can.mono {Q Q' : Except ε α → σ → Prop} (h : Can answer p Q s)
    (hQ : ∀ r t, Q r t → Q' r t) : Can answer p Q' s := by
  induction p generalizing s with
  | ret a => exact hQ _ _ h
  | throw e => exact hQ _ _ h
  | get k ih => exact ih s h
  | modify f k ih => exact ih h
  | await e k ih =>
    obtain ⟨o, r, t, hans, hk⟩ := h
    exact ⟨o, r, t, hans, ih r hk⟩

lemma Can.bind {f : α → Prog σ R ε β} {Q : Except ε β → σ → Prop}
    (h : Can answer p (either (fun a => Can answer (f a) Q) (fun e => Q (.error e))) s) :
    Can answer (p >>= f) Q s := by
  change Can answer (p.bind f) Q s
  induction p generalizing s with
  | ret a => exact h
  | throw e => exact h
  | get k ih => exact ih s h
  | modify g k ih => exact ih h
  | await e k ih =>
    obtain ⟨o, r, t, hans, hk⟩ := h
    exact ⟨o, r, t, hans, ih r hk⟩

lemma Can.result {Q : Except ε (Except ε α) → σ → Prop}
    (h : Can answer p (fun r => Q (.ok r)) s) : Can answer p.result Q s := by
  induction p generalizing s with
  | ret a => exact h
  | throw e => exact h
  | get k ih => exact ih s h
  | modify g k ih => exact ih h
  | await e k ih =>
    obtain ⟨o, r, t, hans, hk⟩ := h
    exact ⟨o, r, t, hans, ih r hk⟩

lemma Can.tryCatch {f : ε → Prog σ R ε α} {Q : Except ε α → σ → Prop}
    (h : Can answer p (either (fun a => Q (.ok a)) (fun e => Can answer (f e) Q)) s) :
    Can answer (MonadExcept.tryCatch p f) Q s := by
  change Can answer (p.handle f) Q s
  induction p generalizing s with
  | ret a => exact h
  | throw e => exact h
  | get k ih => exact ih s h
  | modify g k ih => exact ih h
  | await e k ih =>
    obtain ⟨o, r, t, hans, hk⟩ := h
    exact ⟨o, r, t, hans, ih r hk⟩

end Prog

namespace Pool

variable {σ ι T O E : Type} {R : E → Type} {ε : Type} {M : Pool σ ι T O R ε}

/-- The replies that bring a program to its end, from its place among the calls. -/
lemma reply_run {Q : Except ε Unit → σ → Prop} {i : Nat} (task : T) {p : Prog σ R ε Unit} {u : σ}
    (h : Can M.answer p Q u) (cs : List (Option (Live σ T R ε))) (hi : i < cs.length)
    {halt : Halt σ R ε Unit} {v : σ} (hadv : p.advance u = (halt, v)) :
    ∃ moves t r, run M.step ⟨v, cs.set i (halt.live task)⟩ moves = some t ∧ Q r t.shared := by
  induction p generalizing u v halt with
  | ret a =>
    cases hadv
    exact ⟨[], _, .ok a, rfl, h⟩
  | throw e =>
    cases hadv
    exact ⟨[], _, .error e, rfl, h⟩
  | get k ih => exact ih u h hadv
  | modify f k ih => exact ih h hadv
  | await e k ih =>
    cases hadv
    obtain ⟨o, r, t, hans, hk⟩ := h
    rcases hnext : (k r).advance t with ⟨halt, v⟩
    obtain ⟨moves, w, q, hrun, hq⟩ := ih r hk hnext
    have hstep : M.step ⟨u, cs.set i (Halt.live task (.waiting ⟨e, k⟩))⟩ (.reply i o) =
        some ⟨v, cs.set i (halt.live task)⟩ := by
      refine step_reply.mpr ⟨task, ⟨e, k⟩, Roster.at?_set_self hi, r, t, hans, halt, v, hnext, ?_⟩
      rw [List.set_set]
    exact ⟨.reply i o :: moves, w, q, run_cons_eq_some.mpr ⟨_, hstep, hrun⟩, hq⟩

/-- A new call can reach, among all others, what its program can reach alone. -/
theorem call_run {Q : Except ε Unit → σ → Prop} {s : Roster σ T R ε} {task : T}
    (h : Can M.answer (M.body s.calls.length task) Q s.shared) :
    ∃ moves t r, run M.step s (.call task :: moves) = some t ∧ Q r t.shared := by
  rcases hadv : (M.body s.calls.length task).advance s.shared with ⟨halt, v⟩
  obtain ⟨moves, t, r, hrun, hQ⟩ := reply_run (M := M) (i := s.calls.length) task h
    (s.calls ++ [none]) (by simp) hadv
  refine ⟨moves, t, r, run_cons_eq_some.mpr ⟨_, step_call.mpr ⟨halt, v, hadv, rfl⟩, ?_⟩, hQ⟩
  simpa using hrun

end Pool

end Async
