import Mathlib

/-!
# Asynchronous programs over a shared state

A program of type `Prog σ R ε α` runs in one thread of an event loop. Between two awaits it
reads and writes the shared state of type `σ` without interruption. At an await it issues an
effect `e` and is suspended until the reply of type `R e` arrives, and meanwhile the rest of the
system may change the state. It ends with a value of type `α` or an error of type `ε`.

`wp` is the weakest precondition of such a program in a context that says what the others may do
during an await (`rely`), how the world may answer an effect (`answer`), what the program itself
may do to the state (`guar`), and in which states it may issue an effect (`issue`).
-/

namespace Async

/-- A program with state `σ`, replies `R`, errors `ε` and result `α`. -/
inductive Prog (σ : Type) {E : Type} (R : E → Type) (ε α : Type) where
  | ret (a : α)
  | throw (e : ε)
  | get (k : σ → Prog σ R ε α)
  | modify (f : σ → σ) (k : Prog σ R ε α)
  | await (e : E) (k : R e → Prog σ R ε α)

namespace Prog

variable {σ E : Type} {R : E → Type} {ε α β : Type}

def bind : Prog σ R ε α → (α → Prog σ R ε β) → Prog σ R ε β
  | .ret a, f      => f a
  | .throw e, _    => .throw e
  | .get k, f      => .get fun s => (k s).bind f
  | .modify g k, f => .modify g (k.bind f)
  | .await e k, f  => .await e fun r => (k r).bind f

/-- `try p catch h`. -/
def handle : Prog σ R ε α → (ε → Prog σ R ε α) → Prog σ R ε α
  | .ret a, _      => .ret a
  | .throw e, h    => h e
  | .get k, h      => .get fun s => (k s).handle h
  | .modify g k, h => .modify g (k.handle h)
  | .await e k, h  => .await e fun r => (k r).handle h

/-- The outcome of `p` as a value. -/
def result : Prog σ R ε α → Prog σ R ε (Except ε α)
  | .ret a      => .ret (.ok a)
  | .throw e    => .ret (.error e)
  | .get k      => .get fun s => (k s).result
  | .modify g k => .modify g k.result
  | .await e k  => .await e fun r => (k r).result

instance : Monad (Prog σ R ε) where
  pure := .ret
  bind := Prog.bind

instance : MonadExcept ε (Prog σ R ε) where
  throw := .throw
  tryCatch := Prog.handle

/-- Raise the error of an outcome, or return its value. -/
def ofExcept : Except ε α → Prog σ R ε α
  | .ok a    => .ret a
  | .error e => .throw e

/-- `try p finally q`: the cleanup runs on both ways out. -/
def andFinally (p : Prog σ R ε α) (q : Prog σ R ε Unit) : Prog σ R ε α :=
  p.result.bind fun r => q.bind fun _ => ofExcept r

def read : Prog σ R ε σ := .get .ret

def gets (f : σ → α) : Prog σ R ε α := .get fun s => .ret (f s)

def update (f : σ → σ) : Prog σ R ε Unit := .modify f (.ret ())

/-- Issue an effect and wait for its reply. -/
def request (e : E) : Prog σ R ε (R e) := .await e .ret

/-- `for x of xs`. -/
def forEach {γ : Type} : List γ → (γ → Prog σ R ε Unit) → Prog σ R ε Unit
  | [], _      => .ret ()
  | x :: xs, f => (f x).bind fun _ => forEach xs f

/-- The program over a larger state, of which it sees the first part only. -/
def lift {γ : Type} : Prog σ R ε α → Prog (σ × γ) R ε α
  | .ret a      => .ret a
  | .throw e    => .throw e
  | .get k      => .get fun s => (k s.1).lift
  | .modify f k => .modify (fun s => (f s.1, s.2)) k.lift
  | .await e k  => .await e fun r => (k r).lift

section Lift

variable {γ : Type}

@[simp] lemma lift_pure (a : α) : (Pure.pure a : Prog σ R ε α).lift (γ := γ) = Pure.pure a := rfl

@[simp] lemma lift_gets (f : σ → α) :
    (gets f : Prog σ R ε α).lift (γ := γ) = gets fun s => f s.1 := rfl

@[simp] lemma lift_update (f : σ → σ) :
    (update f : Prog σ R ε Unit).lift (γ := γ) = update fun s => (f s.1, s.2) := rfl

@[simp] lemma lift_request (e : E) : (request e : Prog σ R ε (R e)).lift (γ := γ) = request e := rfl

@[simp] lemma lift_bind (p : Prog σ R ε α) (f : α → Prog σ R ε β) :
    (p >>= f).lift (γ := γ) = p.lift >>= fun a => (f a).lift := by
  change (p.bind f).lift = p.lift.bind fun a => (f a).lift
  induction p with
  | ret a => rfl
  | throw e => rfl
  | get k ih => exact congrArg Prog.get (funext fun s => ih s.1)
  | modify g k ih => exact congrArg (Prog.modify _) ih
  | await e k ih => exact congrArg (Prog.await e) (funext ih)

@[simp] lemma lift_result (p : Prog σ R ε α) : p.result.lift (γ := γ) = p.lift.result := by
  induction p with
  | ret a => rfl
  | throw e => rfl
  | get k ih => exact congrArg Prog.get (funext fun s => ih s.1)
  | modify g k ih => exact congrArg (Prog.modify _) ih
  | await e k ih => exact congrArg (Prog.await e) (funext ih)

@[simp] lemma lift_andFinally (p : Prog σ R ε α) (q : Prog σ R ε Unit) :
    (p.andFinally q).lift (γ := γ) = p.lift.andFinally q.lift := by
  have hexcept (r : Except ε α) : (ofExcept r : Prog σ R ε α).lift (γ := γ) = ofExcept r := by
    cases r <;> rfl
  change (p.result >>= fun r => q >>= fun _ => ofExcept r).lift =
    p.lift.result >>= fun r => q.lift >>= fun _ => ofExcept r
  simp only [lift_bind, lift_result, hexcept]

@[simp] lemma lift_forEach {δ : Type} (xs : List δ) (f : δ → Prog σ R ε Unit) :
    (forEach xs f).lift (γ := γ) = forEach xs fun x => (f x).lift := by
  induction xs with
  | nil => rfl
  | cons x xs ih =>
    change ((f x) >>= fun _ => forEach xs f).lift = (f x).lift >>= fun _ => forEach xs _
    rw [lift_bind]
    simp only [ih]

end Lift

/-! ### Running to the next await -/

/-- A program at an await: the effect it issued and what it does with the reply. -/
structure Suspended (σ : Type) {E : Type} (R : E → Type) (ε α : Type) where
  effect : E
  resume : R effect → Prog σ R ε α

/-- Where a program stops: it ended, or it waits. -/
inductive Halt (σ : Type) {E : Type} (R : E → Type) (ε α : Type) where
  | done (r : Except ε α)
  | waiting (p : Suspended σ R ε α)

/-- Run a program up to its next await. -/
def advance : Prog σ R ε α → σ → Halt σ R ε α × σ
  | .ret a, s      => (.done (.ok a), s)
  | .throw e, s    => (.done (.error e), s)
  | .get k, s      => (k s).advance s
  | .modify f k, s => k.advance (f s)
  | .await e k, s  => (.waiting ⟨e, k⟩, s)

/-! ### What a program leaves alone -/

/-- Between its awaits the program does not change what `f` reads of the state. -/
def Keeps {β : Type} (f : σ → β) : Prog σ R ε α → Prop
  | .ret _      => True
  | .throw _    => True
  | .get k      => ∀ s, (k s).Keeps f
  | .modify g k => (∀ s, f (g s) = f s) ∧ k.Keeps f
  | .await _ k  => ∀ r, (k r).Keeps f

/-- A program lifted to a larger state does not touch the rest of it. -/
lemma keeps_lift {γ : Type} (p : Prog σ R ε α) : (p.lift (γ := γ)).Keeps Prod.snd := by
  induction p with
  | ret a => trivial
  | throw e => trivial
  | get k ih => exact fun s => ih s.1
  | modify g k ih => exact ⟨fun _ => rfl, ih⟩
  | await e k ih => exact ih

variable {p : Prog σ R ε α}

lemma Keeps.advance {β : Type} {f : σ → β} (h : p.Keeps f) (s : σ) : f (p.advance s).2 = f s ∧
      ∀ q, (p.advance s).1 = .waiting q → ∀ r, (q.resume r).Keeps f := by
  induction p generalizing s with
  | ret a => exact ⟨rfl, nofun⟩
  | throw e => exact ⟨rfl, nofun⟩
  | get k ih => exact ih s (h s) s
  | modify g k ih =>
    obtain ⟨hkept, hwaiting⟩ := ih h.2 (g s)
    exact ⟨hkept.trans (h.1 s), hwaiting⟩
  | await e k ih =>
    refine ⟨rfl, fun q hq => ?_⟩
    cases hq
    exact h

/-! ### Weakest preconditions -/

/-- What a program may count on, and what it promises, while it shares the state. An answer is
the reply with the state it leaves. -/
structure Context (σ : Type) {E : Type} (R : E → Type) where
  rely : σ → σ → Prop
  answer : (e : E) → σ → R e → σ → Prop
  guar : σ → σ → Prop
  issue : E → σ → Prop

/-- The postcondition with one branch for each outcome. -/
def either {γ : Type*} (f : α → γ) (g : ε → γ) : Except ε α → γ
  | .ok a    => f a
  | .error e => g e

@[simp] lemma either_ok {γ : Type*} (f : α → γ) (g : ε → γ) (a : α) :
    either f g (.ok a) = f a := rfl

@[simp] lemma either_error {γ : Type*} (f : α → γ) (g : ε → γ) (e : ε) :
    either f g (.error e) = g e := rfl

/-- From a state in `wp c p Q`, however the others interfere and whatever the world
answers, the program keeps its promises and ends in `Q`. -/
def wp (c : Context σ R) : Prog σ R ε α → (Except ε α → σ → Prop) → σ → Prop
  | .ret a, Q, s      => Q (.ok a) s
  | .throw e, Q, s    => Q (.error e) s
  | .get k, Q, s      => wp c (k s) Q s
  | .modify f k, Q, s => c.guar s (f s) ∧ wp c k Q (f s)
  | .await e k, Q, s  => c.issue e s ∧ ∀ s', c.rely s s' → ∀ r t, c.answer e s' r t →
      c.guar s' t ∧ wp c (k r) Q t

variable {c : Context σ R} {Q Q' : Except ε α → σ → Prop} {s : σ}

@[simp] lemma wp_ret (a : α) : wp c (.ret a) Q = Q (.ok a) := rfl

@[simp] lemma wp_throw (e : ε) : wp c (.throw e) Q = Q (.error e) := rfl

@[simp] lemma wp_get (k : σ → Prog σ R ε α) : wp c (.get k) Q s = wp c (k s) Q s := rfl

@[simp] lemma wp_modify (f : σ → σ) (k : Prog σ R ε α) :
    wp c (.modify f k) Q s = (c.guar s (f s) ∧ wp c k Q (f s)) := rfl

@[simp] lemma wp_pure (a : α) : wp c (Pure.pure a : Prog σ R ε α) Q = Q (.ok a) := rfl

@[simp] lemma wp_read {Q : Except ε σ → σ → Prop} :
    wp c (Prog.read : Prog σ R ε σ) Q s = Q (.ok s) s := rfl

@[simp] lemma wp_gets (f : σ → α) : wp c (Prog.gets f : Prog σ R ε α) Q s = Q (.ok (f s)) s := rfl

@[simp] lemma wp_update {Q : Except ε Unit → σ → Prop} (f : σ → σ) :
    wp c (Prog.update f : Prog σ R ε Unit) Q s = (c.guar s (f s) ∧ Q (.ok ()) (f s)) := rfl

lemma wp_request {e : E} {Q : Except ε (R e) → σ → Prop} :
    wp c (Prog.request e : Prog σ R ε (R e)) Q s =
      (c.issue e s ∧ ∀ s', c.rely s s' → ∀ r t, c.answer e s' r t →
        c.guar s' t ∧ Q (.ok r) t) := rfl

@[simp] lemma wp_ofExcept (r : Except ε α) : wp c (Prog.ofExcept r : Prog σ R ε α) Q = Q r := by
  cases r <;> rfl

lemma wp_ite {P : Prop} [Decidable P] (p q : Prog σ R ε α) : wp c (if P then p else q) Q s =
      if P then wp c p Q s else wp c q Q s := by
  split <;> rfl

/-- Consequence. -/
lemma wp_mono (hQ : ∀ r t, Q r t → Q' r t) (h : wp c p Q s) : wp c p Q' s := by
  induction p generalizing s with
  | ret a => exact hQ _ _ h
  | throw e => exact hQ _ _ h
  | get k ih => exact ih _ h
  | modify f k ih => exact ⟨h.1, ih h.2⟩
  | await e k ih =>
    exact ⟨h.1, fun s' hs' r t ht => ⟨(h.2 s' hs' r t ht).1, ih r (h.2 s' hs' r t ht).2⟩⟩

lemma wp_bind' {f : α → Prog σ R ε β} {Q : Except ε β → σ → Prop} : wp c (p.bind f) Q s ↔
      wp c p (either (fun a => wp c (f a) Q) (fun e => Q (.error e))) s := by
  induction p generalizing s with
  | ret a => rfl
  | throw e => rfl
  | get k ih => exact ih s
  | modify g k ih => exact and_congr_right fun _ => ih
  | await e k ih =>
    refine and_congr_right fun _ => ?_
    refine forall₂_congr fun s' _ => forall₃_congr fun r t _ => and_congr_right fun _ => ih r

/-- Sequencing. -/
@[simp] lemma wp_bind {f : α → Prog σ R ε β} {Q : Except ε β → σ → Prop} : wp c (p >>= f) Q s ↔
      wp c p (either (fun a => wp c (f a) Q) (fun e => Q (.error e))) s :=
  wp_bind'

@[simp] lemma wp_map {f : α → β} {Q : Except ε β → σ → Prop} :
    wp c (f <$> p) Q s ↔ wp c p (either (fun a => Q (.ok (f a))) (fun e => Q (.error e))) s :=
  wp_bind'

lemma wp_result {Q : Except ε (Except ε α) → σ → Prop} :
    wp c p.result Q s ↔ wp c p (fun r t => Q (.ok r) t) s := by
  induction p generalizing s with
  | ret a => rfl
  | throw e => rfl
  | get k ih => exact ih s
  | modify g k ih => exact and_congr_right fun _ => ih
  | await e k ih =>
    refine and_congr_right fun _ => ?_
    refine forall₂_congr fun s' _ => forall₃_congr fun r t _ => and_congr_right fun _ => ih r

/-- `try p catch h`. -/
@[simp] lemma wp_tryCatch {h : ε → Prog σ R ε α} : wp c (tryCatch p h) Q s ↔
      wp c p (either (fun a => Q (.ok a)) (fun e => wp c (h e) Q)) s := by
  change wp c (p.handle h) Q s ↔ _
  induction p generalizing s with
  | ret a => rfl
  | throw e => rfl
  | get k ih => exact ih s
  | modify g k ih => exact and_congr_right fun _ => ih
  | await e k ih =>
    refine and_congr_right fun _ => ?_
    refine forall₂_congr fun s' _ => forall₃_congr fun r t _ => and_congr_right fun _ => ih r

/-- `try p finally q`: an error of the cleanup replaces the outcome. -/
@[simp] lemma wp_andFinally {q : Prog σ R ε Unit} : wp c (p.andFinally q) Q s ↔
      wp c p (fun r => wp c q (either (fun _ => Q r) (fun e => Q (.error e)))) s := by
  simp only [andFinally, wp_bind', wp_result, wp_ofExcept, either_ok]

/-- A loop: `Inv xs` is what holds while the elements `xs` are still to come. -/
lemma wp_forEach {γ : Type} {xs : List γ} {f : γ → Prog σ R ε Unit} {Q : Except ε Unit → σ → Prop}
    (Inv : List γ → σ → Prop) (hdone : ∀ t, Inv [] t → Q (.ok ()) t)
    (hstep : ∀ y ys t, Inv (y :: ys) t →
      wp c (f y) (either (fun _ => Inv ys) (fun e => Q (.error e))) t) (h : Inv xs s) :
    wp c (forEach xs f) Q s := by
  induction xs generalizing s with
  | nil => exact hdone s h
  | cons y ys ih =>
    refine wp_bind'.mpr (wp_mono ?_ (hstep y ys s h))
    intro r t ht
    cases r with
    | ok a => exact ih ht
    | error e => exact ht

/-- A lifted program keeps an assertion about the whole state, if the steps it makes on its part
keep it, and so do the others and the world. -/
lemma wp_lift {γ : Type} {c : Context σ R} {c' : Context (σ × γ) R} {I : σ × γ → Prop}
    (hrely : ∀ e s t, I s → c.issue e s.1 → c'.rely s t → c.rely s.1 t.1 ∧ I t)
    (hissue : ∀ e s, I s → c.issue e s.1 → c'.issue e s)
    (hanswer : ∀ e s r t, I s → c'.answer e s r t → c.answer e s.1 r t.1)
    (hreply : ∀ e s r t, I s → c'.answer e s r t → c.guar s.1 t.1 → c'.guar s t ∧ I t)
    (hmodify : ∀ s t, I s → c.guar s.1 t → c'.guar s (t, s.2) ∧ I (t, s.2)) {s : σ × γ} (hI : I s) (h : wp c p Q s.1) :
    wp c' p.lift (fun r t => Q r t.1 ∧ I t) s := by
  induction p generalizing s with
  | ret a => exact ⟨h, hI⟩
  | throw e => exact ⟨h, hI⟩
  | get k ih => exact ih s.1 hI h
  | modify f k ih =>
    obtain ⟨hguar, hI'⟩ := hmodify s _ hI h.1
    exact ⟨hguar, ih hI' h.2⟩
  | await e k ih =>
    refine ⟨hissue e s hI h.1, fun s' hs' r t ht => ?_⟩
    obtain ⟨hs₁, hI'⟩ := hrely e s s' hI h.1 hs'
    obtain ⟨hguar, hk⟩ := h.2 s'.1 hs₁ r t.1 (hanswer e s' r t hI' ht)
    obtain ⟨hguar', hI''⟩ := hreply e s' r t hI' ht hguar
    exact ⟨hguar', ih r hI'' hk⟩

/-- Where everything is allowed, every program is safe. -/
lemma wp_top (hguar : ∀ s t, c.guar s t) (hissue : ∀ e s, c.issue e s) :
    wp c p (fun _ _ => True) s := by
  induction p generalizing s with
  | ret a => trivial
  | throw e => trivial
  | get k ih => exact ih s
  | modify f k ih => exact ⟨hguar _ _, ih⟩
  | await e k ih => exact ⟨hissue e s, fun s' _ r t _ => ⟨hguar _ _, ih r⟩⟩

/-- What a suspended program needs of its reply. -/
def Suspended.Safe (c : Context σ R) (p : Suspended σ R ε α) (Q : Except ε α → σ → Prop)
    (s : σ) : Prop :=
  ∀ s', c.rely s s' → ∀ r t, c.answer p.effect s' r t →
    c.guar s' t ∧ wp c (p.resume r) Q t

/-- Running to the next await keeps the promises, and leaves a program whose await is allowed
and whose continuation is safe, or an outcome that meets the postcondition. -/
lemma advance_spec (hrefl : ∀ s, c.guar s s)
    (htrans : ∀ s t u, c.guar s t → c.guar t u → c.guar s u) (h : wp c p Q s) :
    c.guar s (p.advance s).2 ∧
      match (p.advance s).1 with
      | .done r    => Q r (p.advance s).2
      | .waiting q => c.issue q.effect (p.advance s).2 ∧ q.Safe c Q (p.advance s).2 := by
  induction p generalizing s with
  | ret a => exact ⟨hrefl s, h⟩
  | throw e => exact ⟨hrefl s, h⟩
  | get k ih => exact ih _ h
  | modify f k ih =>
    obtain ⟨hguar, hk⟩ := h
    exact ⟨htrans _ _ _ hguar (ih hk).1, (ih hk).2⟩
  | await e k ih => exact ⟨hrefl s, h⟩

end Prog

end Async
