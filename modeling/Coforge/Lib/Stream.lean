import Mathlib

/-!
# Streams with epochs

A stream numbers its publications with growing offsets, and a reset gives it an epoch that it never
had before. A position names an epoch and an offset in it, so two positions say something of each
other only within one epoch: then no reset lies between them, and the one before a publication has
the smaller offset (`Timeline.offset_lt_of_published`).
-/

namespace Stream

variable {ε : Type*}

/-- A place in a stream. -/
structure Position (ε : Type*) where
  offset : Nat
  epoch : ε
  deriving DecidableEq, Repr

/-- What happens to a stream. -/
inductive Event (ε : Type*) where
  | published (offset : Nat)
  | reset (epoch : ε)
  deriving DecidableEq, Repr

/-- Where the stream stands after an event. -/
def Position.after (p : Position ε) : Event ε → Position ε
  | .published offset => ⟨offset, p.epoch⟩
  | .reset epoch      => ⟨0, epoch⟩

/-- Where the stream stands after its first events. -/
def topOf (start : Position ε) (events : List (Event ε)) (n : Nat) : Position ε :=
  (events.take n).foldl Position.after start

/-- The events of a stream, the oldest first: offsets grow, and the epoch of a reset is new. -/
structure Timeline (ε : Type*) where
  start : Position ε
  events : List (Event ε)
  grows : ∀ n offset, events[n]? = some (.published offset) → (topOf start events n).offset < offset
  fresh : ∀ n epoch, events[n]? = some (.reset epoch) →
    ∀ m ≤ n, (topOf start events m).epoch ≠ epoch

namespace Timeline

variable {t : Timeline ε} {m n x offset : Nat} {epoch : ε}

def top (t : Timeline ε) (n : Nat) : Position ε := topOf t.start t.events n

lemma top_succ (t : Timeline ε) (n : Nat) :
    t.top (n + 1) = (t.events[n]?).elim (t.top n) (t.top n).after := by
  rw [top, top, topOf, topOf, List.take_add_one, List.foldl_append]
  cases t.events[n]? <;> rfl

lemma top_of_published (h : t.events[n]? = some (.published offset)) :
    t.top (n + 1) = ⟨offset, (t.top n).epoch⟩ := by
  rw [top_succ, h]
  rfl

lemma top_of_reset (h : t.events[n]? = some (.reset epoch)) : t.top (n + 1) = ⟨0, epoch⟩ := by
  rw [top_succ, h]
  rfl

lemma top_of_none (h : t.events[n]? = none) : t.top (n + 1) = t.top n := by
  rw [top_succ, h]
  rfl

/-- The epochs after a reset are none of those before it. -/
lemma epoch_ne_of_reset (h : t.events[x]? = some (.reset epoch)) (hm : m ≤ x) (hn : x < n) :
    (t.top m).epoch ≠ (t.top n).epoch := by
  induction n with
  | zero => exact absurd hn (Nat.not_lt_zero x)
  | succ n ih =>
    rcases (Nat.lt_succ_iff_lt_or_eq.mp hn) with hlt | rfl
    · cases hevent : t.events[n]? with
      | none => rw [top_of_none hevent]; exact ih hlt
      | some event =>
        cases event with
        | published offset => rw [top_of_published hevent]; exact ih hlt
        | reset epoch' => rw [top_of_reset hevent]; exact t.fresh n epoch' hevent m (by omega)
    · rw [top_of_reset h]
      exact t.fresh x epoch h m hm

/-- Between two places of one epoch the epoch does not change. -/
lemma epoch_eq_between (hepoch : (t.top m).epoch = (t.top n).epoch) (hm : m ≤ x) (hn : x ≤ n) :
    (t.top x).epoch = (t.top m).epoch := by
  induction x, hm using Nat.le_induction with
  | base => rfl
  | succ x hm ih =>
    have hbefore := ih (by omega)
    cases hevent : t.events[x]? with
    | none => rw [top_of_none hevent, hbefore]
    | some event =>
      cases event with
      | published offset => rw [top_of_published hevent, hbefore]
      | reset epoch => exact absurd hepoch (epoch_ne_of_reset hevent hm (by omega))

/-- Within an epoch offsets do not fall. -/
lemma offset_mono (hepoch : (t.top m).epoch = (t.top n).epoch) (h : m ≤ n) :
    (t.top m).offset ≤ (t.top n).offset := by
  induction n, h using Nat.le_induction with
  | base => exact le_refl _
  | succ n h ih =>
    have hbefore := epoch_eq_between hepoch h (Nat.le_succ n)
    have hle := ih hbefore.symm
    cases hevent : t.events[n]? with
    | none => rw [top_of_none hevent]; exact hle
    | some event =>
      cases event with
      | published offset =>
        rw [top_of_published hevent]
        exact hle.trans (t.grows n offset hevent).le
      | reset epoch => exact absurd hepoch (epoch_ne_of_reset hevent h (Nat.lt_succ_self n))

/-- A place before a publication has a smaller offset than one after it in the same epoch. -/
theorem offset_lt_of_published (h : t.events[x]? = some (.published offset)) (hm : m ≤ x)
    (hn : x < n) (hepoch : (t.top m).epoch = (t.top n).epoch) :
    (t.top m).offset < (t.top n).offset := by
  have hat := epoch_eq_between hepoch hm hn.le
  have hafter : (t.top (x + 1)).epoch = (t.top m).epoch := by rw [top_of_published h, hat]
  calc (t.top m).offset ≤ (t.top x).offset := offset_mono hat.symm hm
    _ < offset := t.grows x offset h
    _ = (t.top (x + 1)).offset := by rw [top_of_published h]
    _ ≤ (t.top n).offset := offset_mono (hafter.trans hepoch) hn

end Timeline

end Stream
