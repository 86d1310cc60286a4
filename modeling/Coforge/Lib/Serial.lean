import Coforge.Lib.Prog
import Coforge.Lib.Run

/-!
# A queue of serialized operations

A component runs its operations one at a time. While one of them waits for a reply, events still
change the shared state: requests arrive and queue further operations, timers fire, processes
exit. A `Component` says which events there are, which operation is next, what each operation
does, and how the world answers its effects. Its states and steps make a system in the sense of
`Transition`, so every interleaving of the events with the steps of the running operation is a
run.

`Component.Spec` reduces an invariant of all interleavings to one statement for each event and
one `wp` for each operation, and `Component.Spec.safe_run` is the rule that draws it.
-/

namespace Async

open Transition Prog

/-- The parts of a component with shared state `σ`, events `ι`, operations `T`, outcomes `O` of
the world, replies `R` and errors `ε`. -/
structure Component (σ ι T O : Type) {E : Type} (R : E → Type) (ε : Type) where
  event : σ → ι → Option σ
  next : σ → Option (T × σ)
  body : T → Prog σ R ε Unit
  answer : (e : E) → O → σ → Option (R e × σ)

/-- The shared state, and the operation in its turn with its suspended rest. -/
structure Sys (σ T : Type) {E : Type} (R : E → Type) (ε : Type) where
  shared : σ
  turn : Option (T × Suspended σ R ε Unit)

/-- An event, the beginning of the next operation, or a reply to the running one. -/
inductive Act (ι O : Type) where
  | event (l : ι)
  | begin
  | reply (o : O)
deriving DecidableEq

namespace Component

variable {σ ι T O E : Type} {R : E → Type} {ε : Type}

/-- An operation ran up to its next await, or ended. -/
def settle (task : T) : Halt σ R ε Unit × σ → Sys σ T R ε
  | (.done _, s)    => ⟨s, none⟩
  | (.waiting p, s) => ⟨s, some (task, p)⟩

def step (M : Component σ ι T O R ε) (s : Sys σ T R ε) : Act ι O → Option (Sys σ T R ε)
  | .event l => (M.event s.shared l).map fun t => { s with shared := t }
  | .begin =>
    match s.turn with
    | some _ => none
    | none   => (M.next s.shared).map fun (task, t) => settle task ((M.body task).advance t)
  | .reply o =>
    match s.turn with
    | none => none
    | some (task, p) =>
      (M.answer p.effect o s.shared).map fun (r, t) => settle task ((p.resume r).advance t)

variable {M : Component σ ι T O R ε} {s t : Sys σ T R ε}

lemma step_event {l : ι} : M.step s (.event l) = some t ↔
      ∃ u, M.event s.shared l = some u ∧ { s with shared := u } = t := by
  simp [step]

lemma step_begin : M.step s .begin = some t ↔
      s.turn = none ∧ ∃ task u, M.next s.shared = some (task, u) ∧
        settle task ((M.body task).advance u) = t := by
  cases h : s.turn <;> simp [step, h]

lemma step_reply {o : O} : M.step s (.reply o) = some t ↔
      ∃ task p, s.turn = some (task, p) ∧ ∃ r u, M.answer p.effect o s.shared = some (r, u) ∧
        settle task ((p.resume r).advance u) = t := by
  rcases h : s.turn with _ | ⟨task, p⟩
  · simp [step, h]
  · simp only [step, h, Option.map_eq_some_iff, Prod.exists, Option.some.injEq, Prod.mk.injEq]
    constructor
    · rintro ⟨r, u, hans, ht⟩
      exact ⟨task, p, ⟨rfl, rfl⟩, r, u, hans, ht⟩
    · rintro ⟨_, _, ⟨rfl, rfl⟩, r, u, hans, ht⟩
      exact ⟨r, u, hans, ht⟩

/-! ### Safety of all interleavings -/

/-- The proof obligations of a component under a condition `ok` on the steps of its runs: an
invariant `idle` of the states in which no operation is in its turn, and a context for each
operation. -/
structure Spec (M : Component σ ι T O R ε) (ok : Sys σ T R ε → Act ι O → Prop) where
  idle : σ → Prop
  context : T → Context σ R
  rely_refl : ∀ task s, (context task).rely s s
  rely_trans : ∀ task s t u, (context task).rely s t → (context task).rely t u →
    (context task).rely s u
  guar_refl : ∀ task s, (context task).guar s s
  guar_trans : ∀ task s t u, (context task).guar s t → (context task).guar t u →
    (context task).guar s u
  event_idle : ∀ s l t, s.turn = none → ok s (.event l) → M.event s.shared l = some t →
    idle s.shared → idle t
  event_rely : ∀ s task p l t, s.turn = some (task, p) → ok s (.event l) →
    M.event s.shared l = some t → (context task).rely s.shared t
  reply_answer : ∀ s task p o r t, s.turn = some (task, p) → ok s (.reply o) →
    M.answer p.effect o s.shared = some (r, t) → (context task).answer p.effect s.shared r t
  body_safe : ∀ s task t, s.turn = none → ok s .begin → M.next s.shared = some (task, t) →
    idle s.shared → wp (context task) (M.body task) (fun _ => idle) t

namespace Spec

variable {ok : Sys σ T R ε → Act ι O → Prop} (P : Spec M ok)

/-- What holds at every point of a run: the idle invariant, or a running operation whose await
was allowed and whose rest is safe whatever happened since. -/
def Inv (s : Sys σ T R ε) : Prop :=
  match s.turn with
  | none => P.idle s.shared
  | some (task, p) => ∃ u, (P.context task).issue p.effect u ∧
      p.Safe (P.context task) (fun _ => P.idle) u ∧ (P.context task).rely u s.shared

lemma inv_idle (h : s.turn = none) : P.Inv s ↔ P.idle s.shared := by
  simp [Inv, h]

lemma inv_turn {task : T} {p : Suspended σ R ε Unit} (h : s.turn = some (task, p)) :
    P.Inv s ↔ ∃ u, (P.context task).issue p.effect u ∧
      p.Safe (P.context task) (fun _ => P.idle) u ∧ (P.context task).rely u s.shared := by
  simp [Inv, h]

/-- Running an operation to its next await: the promise holds across the step, and so does the
invariant after it. -/
lemma settle_safe {task : T} {p : Prog σ R ε Unit} {u : σ}
    (h : wp (P.context task) p (fun _ => P.idle) u) :
    (P.context task).guar u (settle task (p.advance u)).shared ∧
      P.Inv (settle task (p.advance u)) := by
  have hspec := advance_spec (P.guar_refl task) (P.guar_trans task) h
  rcases hadv : p.advance u with ⟨halt, v⟩
  rw [hadv] at hspec
  cases halt with
  | done r => exact ⟨hspec.1, (P.inv_idle rfl).mpr hspec.2⟩
  | waiting q =>
    exact ⟨hspec.1, (P.inv_turn rfl).mpr ⟨v, hspec.2.1, hspec.2.2, P.rely_refl task v⟩⟩

/-- A reply keeps the promises of the operation in its turn. -/
lemma reply_safe {o : O} (hs : P.Inv s) (hok : ok s (.reply o))
    (hstep : M.step s (.reply o) = some t) :
    ∃ task p, s.turn = some (task, p) ∧ (P.context task).guar s.shared t.shared ∧ P.Inv t := by
  obtain ⟨task, p, hturn, r, u, hans, rfl⟩ := step_reply.mp hstep
  obtain ⟨v, -, hsafe, hrely⟩ := (P.inv_turn hturn).mp hs
  obtain ⟨hguar, hwp⟩ := hsafe _ hrely r u (P.reply_answer s task p o r u hturn hok hans)
  obtain ⟨hguar', hinv⟩ := P.settle_safe hwp
  exact ⟨task, p, hturn, P.guar_trans task _ _ _ hguar hguar', hinv⟩

/-- So does the first stretch of an operation. -/
lemma begin_safe (hs : P.Inv s) (hok : ok s .begin) (hstep : M.step s .begin = some t) :
    ∃ task u, M.next s.shared = some (task, u) ∧ (P.context task).guar u t.shared ∧ P.Inv t := by
  obtain ⟨hturn, task, u, hnext, rfl⟩ := step_begin.mp hstep
  have hidle := (P.inv_idle hturn).mp hs
  obtain ⟨hguar, hinv⟩ := P.settle_safe (P.body_safe s task u hturn hok hnext hidle)
  exact ⟨task, u, hnext, hguar, hinv⟩

/-- An event keeps what the running operation relies on. -/
lemma event_safe {l : ι} (hs : P.Inv s) (hok : ok s (.event l))
    (hstep : M.step s (.event l) = some t) : P.Inv t := by
  obtain ⟨u, hu, rfl⟩ := step_event.mp hstep
  rcases hturn : s.turn with _ | ⟨task, p⟩
  · have hidle := P.event_idle s l u hturn hok hu ((P.inv_idle hturn).mp hs)
    exact (P.inv_idle rfl).mpr hidle
  · obtain ⟨v, hissue, hsafe, hrely⟩ := (P.inv_turn hturn).mp hs
    have hrely' := P.rely_trans task _ _ _ hrely (P.event_rely s task p l u hturn hok hu)
    exact (P.inv_turn rfl).mpr ⟨v, hissue, hsafe, hrely'⟩

/-- One step of any kind preserves the invariant. -/
theorem safe_step {a : Act ι O} (hs : P.Inv s) (hok : ok s a) (hstep : M.step s a = some t) :
    P.Inv t := by
  cases a with
  | event l => exact P.event_safe hs hok hstep
  | begin =>
    obtain ⟨_, _, _, _, hinv⟩ := P.begin_safe hs hok hstep
    exact hinv
  | reply o =>
    obtain ⟨_, _, _, _, hinv⟩ := P.reply_safe hs hok hstep
    exact hinv

/-- The invariant holds at every point of every run that meets the condition. -/
theorem safe_run {acts : List (Act ι O)} (hs : P.Inv s) (hok : Permitted M.step ok s acts)
    (hrun : run M.step s acts = some t) : P.Inv t :=
  invariant (fun _ _ _ => P.safe_step) hs hok hrun

/-- What the events, the queue and the promises of the operations all imply holds between the
first and the last state of a run. -/
theorem relate_run {Rel : σ → σ → Prop} (hrefl : ∀ s, Rel s s)
    (htrans : ∀ s t u, Rel s t → Rel t u → Rel s u)
    (hevent : ∀ s l u, P.Inv s → ok s (.event l) → M.event s.shared l = some u → Rel s.shared u)
    (hnext : ∀ s task u, M.next s = some (task, u) → Rel s u)
    (hguar : ∀ task s u, (P.context task).guar s u → Rel s u)
    {acts : List (Act ι O)} (hs : P.Inv s) (hok : Permitted M.step ok s acts)
    (hrun : run M.step s acts = some t) : Rel s.shared t.shared := by
  have hrel := @relation _ _ M.step ok P.Inv (fun s t => Rel s.shared t.shared)
    (fun s => hrefl s.shared) (fun s t u => htrans s.shared t.shared u.shared)
  refine hrel ?_ hs hok hrun
  intro s a t hs hok hstep
  refine ⟨P.safe_step hs hok hstep, ?_⟩
  cases a with
  | event l =>
    obtain ⟨u, hu, rfl⟩ := step_event.mp hstep
    exact hevent s l u hs hok hu
  | begin =>
    obtain ⟨task, u, hnext', hguar', -⟩ := P.begin_safe hs hok hstep
    exact htrans _ _ _ (hnext _ task u hnext') (hguar task u _ hguar')
  | reply o =>
    obtain ⟨task, _, -, hguar', -⟩ := P.reply_safe hs hok hstep
    exact hguar task _ _ hguar'

end Spec

end Component

end Async
