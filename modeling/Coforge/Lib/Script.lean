import Coforge.Lib.Prog
import Coforge.Lib.Run

/-!
# A program alone with the world

A program that shares its state with nobody meets the outcomes of the world one after the other.
A list of outcomes, in the order in which the awaits come, determines how far it gets; every point
of every such run is reached by a list. `Safe.run` carries a `wp` along them.
-/

namespace Async.Prog

open Transition

variable {σ E O : Type} {R : E → Type} {ε α : Type}

/-- The world answers the await at which the program stopped. -/
def reply (answer : (e : E) → O → σ → Option (R e × σ)) :
    Halt σ R ε α × σ → O → Option (Halt σ R ε α × σ)
  | (.done _, _), _    => none
  | (.waiting p, s), o => (answer p.effect o s).map fun (r, t) => (p.resume r).advance t

/-- How far a program gets with the given outcomes. -/
def play (answer : (e : E) → O → σ → Option (R e × σ)) (p : Prog σ R ε α) (s : σ)
    (outcomes : List O) : Option (Halt σ R ε α × σ) :=
  run (reply answer) (p.advance s) outcomes

/-- The context of a program whose state nobody else changes. -/
def alone (answer : (e : E) → O → σ → Option (R e × σ)) (guar : σ → σ → Prop)
    (issue : E → σ → Prop) : Context σ R where
  rely s t := s = t
  answer e s r t := ∃ o, answer e o s = some (r, t)
  guar := guar
  issue := issue

variable {answer : (e : E) → O → σ → Option (R e × σ)} {guar : σ → σ → Prop}
  {issue : E → σ → Prop} {Q : Except ε α → σ → Prop}

lemma wp_alone_request {e : E} {Q : Except ε (R e) → σ → Prop} {s : σ} (hissue : issue e s)
    (h : ∀ o r t, answer e o s = some (r, t) → guar s t ∧ Q (.ok r) t) :
    wp (alone answer guar issue) (request e) Q s := by
  refine ⟨hissue, ?_⟩
  rintro _ rfl r t ⟨o, hans⟩
  exact h o r t hans

/-- A program that ended as it should, or waits for an answer after which it is safe. -/
def Safe (answer : (e : E) → O → σ → Option (R e × σ)) (guar : σ → σ → Prop)
    (issue : E → σ → Prop) (Q : Except ε α → σ → Prop) : Halt σ R ε α × σ → Prop
  | (.done r, s)    => Q r s
  | (.waiting p, s) => issue p.effect s ∧ p.Safe (alone answer guar issue) Q s

section

variable (hrefl : ∀ s, guar s s) (htrans : ∀ s t u, guar s t → guar t u → guar s u)
include hrefl htrans

lemma safe_advance {p : Prog σ R ε α} {s : σ} (h : wp (alone answer guar issue) p Q s) :
    guar s (p.advance s).2 ∧ Safe answer guar issue Q (p.advance s) := by
  have hspec := advance_spec (c := alone answer guar issue) hrefl htrans h
  rcases hadv : p.advance s with ⟨halt, t⟩
  rw [hadv] at hspec
  refine ⟨hspec.1, ?_⟩
  cases halt with
  | done r => exact hspec.2
  | waiting q => exact hspec.2

lemma Safe.reply {x y : Halt σ R ε α × σ} {o : O} (hx : Safe answer guar issue Q x)
    (h : Prog.reply answer x o = some y) : guar x.2 y.2 ∧ Safe answer guar issue Q y := by
  obtain ⟨halt, s⟩ := x
  cases halt with
  | done r => exact nomatch h
  | waiting p =>
    obtain ⟨⟨r, t⟩, hans, rfl⟩ := Option.map_eq_some_iff.mp h
    obtain ⟨hguar, hwp⟩ := hx.2 s rfl r t ⟨o, hans⟩
    obtain ⟨hguar', hsafe⟩ := safe_advance hrefl htrans hwp
    exact ⟨htrans _ _ _ hguar hguar', hsafe⟩

/-- From any safe point, every later one is safe, and the promise holds between the two. -/
theorem Safe.run {x y : Halt σ R ε α × σ} {outcomes : List O} (hx : Safe answer guar issue Q x)
    (h : Transition.run (Prog.reply answer) x outcomes = some y) :
    guar x.2 y.2 ∧ Safe answer guar issue Q y := by
  have hok : Permitted (Prog.reply answer) (fun _ _ => True) x outcomes :=
    permitted_of_forall (fun _ _ => trivial) x outcomes
  constructor
  · refine @relation _ _ (Prog.reply answer) _ _ (fun x y => guar x.2 y.2) (fun x => hrefl x.2)
      (fun x y z => htrans x.2 y.2 z.2) ?_ x y outcomes hx hok h
    intro x o y hx _ hstep
    exact (hx.reply hrefl htrans hstep).symm
  · refine invariant ?_ hx hok h
    intro x o y hx _ hstep
    exact (hx.reply hrefl htrans hstep).2

/-- Every point that a program reaches is safe. -/
theorem play_safe {p : Prog σ R ε α} {s : σ} {outcomes : List O} {y : Halt σ R ε α × σ}
    (hp : wp (alone answer guar issue) p Q s) (h : play answer p s outcomes = some y) :
    guar s y.2 ∧ Safe answer guar issue Q y := by
  obtain ⟨hguar, hsafe⟩ := safe_advance hrefl htrans hp
  obtain ⟨hguar', hsafe'⟩ := hsafe.run hrefl htrans h
  exact ⟨htrans _ _ _ hguar hguar', hsafe'⟩

end

end Async.Prog
