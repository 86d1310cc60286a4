import Coforge.Supervisor.System

/-!
# What lifecycle work leaves alone

Lifecycle work reads bindings, edits their lifecycle fields and saves them again. A `Concern` is
something that such edits keep: a property of bindings, the Workspaces that have to stay
registered, and an assertion about what the work does not touch. One walk through the operations
shows that they keep every concern, while stops write their intents beside them.

The walk has two grades. A machine is `Loose` when what the store holds is right, and `Sound` when
what the supervisor works with is right too. A reload makes a loose machine sound.
-/

namespace Coforge.Supervisor

open Async
open Async.Prog hiding throw

/-! ### Edits of a binding -/

/-- The fields of a binding that lifecycle work has no part in. -/
def ManagedBinding.kept (b : ManagedBinding) :
    DaemonConfig × Option (List String) × Option (List String) ×
      Option (List LegacyUpgradeRequest) × Option (List UpgradeOperation) :=
  (b.toDaemonConfig, b.restartRequestIds, b.upgradeRequestIds, b.upgradeRequests,
    b.upgradeOperations)

@[simp] lemma ManagedBinding.stopped_kept (b : ManagedBinding) : b.stopped.kept = b.kept := by
  obtain ⟨_, h⟩ := b.stopped_eq
  rw [h]
  rfl

/-- A registry whose bindings satisfy `keeps` and that has a binding for each Workspace of
`stays`. -/
structure Registry.Keeps (keeps : ManagedBinding → Prop) (stays : String → Prop)
    (registry : Registry) : Prop where
  all : ∀ b ∈ registry, keeps b
  stay : ∀ id, stays id → ∃ b ∈ registry, b.workspaceId = id

section Keeps

variable {keeps : ManagedBinding → Prop} {stays : String → Prop} {registry : Registry}

lemma Registry.Keeps.replace (h : registry.Keeps keeps stays) {b : ManagedBinding}
    (hb : keeps b) : (registry.replace b).Keeps keeps stays := by
  constructor
  · intro c hc
    rcases mem_replace.mp hc with rfl | ⟨hc, -⟩
    · exact hb
    · exact h.all c hc
  · intro id hid
    obtain ⟨c, hc, rfl⟩ := h.stay id hid
    by_cases hcb : c.workspaceId = b.workspaceId
    · exact ⟨b, mem_replace.mpr (.inl rfl), hcb.symm⟩
    · exact ⟨c, mem_replace.mpr (.inr ⟨hc, hcb⟩), rfl⟩

lemma Registry.Keeps.map (h : registry.Keeps keeps stays) {f : ManagedBinding → ManagedBinding}
    (hkeeps : ∀ b, keeps b → keeps (f b)) (hid : ∀ b, (f b).workspaceId = b.workspaceId) :
    Registry.Keeps keeps stays (registry.map f) := by
  constructor
  · intro c hc
    obtain ⟨b, hb, rfl⟩ := List.mem_map.mp hc
    exact hkeeps b (h.all b hb)
  · intro id hstay
    obtain ⟨b, hb, rfl⟩ := h.stay id hstay
    exact ⟨f b, List.mem_map_of_mem hb, hid b⟩

lemma Registry.Keeps.find (h : registry.Keeps keeps stays) {id : String} {b : ManagedBinding}
    (hb : registry.find id = some b) : keeps b :=
  h.all b (mem_of_find hb).1

end Keeps

/-! ### Concerns -/

/-- The store, and the intents on their way to it, hold what is to be kept. What the supervisor
works with does too, unless it has to read the store again. -/
structure Held (keeps : ManagedBinding → Prop) (stays : String → Prop) (s : Machine) : Prop where
  disk : s.disk.Keeps keeps stays
  bindings : s.reloadRequired = false → s.bindings.Keeps keeps stays
  writing : ∀ i ∈ s.intents, ∀ before next, i.phase = .writing before next →
    next.Keeps keeps stays

/-- What a command recorded on its way to throw at its end is no pause. -/
def Progress.Calm (p : Progress) : Prop :=
  p.refused ≠ some .launchesPaused ∧ p.superseded ≠ some .launchesPaused

lemma Progress.init_calm : Progress.init.Calm := ⟨by simp [Progress.init], by simp [Progress.init]⟩

/-- The requests and the intents are as they were, but for those that are done with. -/
structure Quiet (s t : Machine) : Prop where
  pending : t.pending = s.pending := by rfl
  sequence : t.sequence = s.sequence := by rfl
  paused : t.paused → s.paused := by exact id
  intents : ∀ i ∈ t.intents, i ∈ s.intents := by exact fun _ h => h
  calm : s.progress.Calm → t.progress.Calm := by exact id

/-- The command in its turn is where it was, and so are its marks and those of others. -/
structure Aside (s t : Machine) : Prop extends Quiet s t where
  stillPaused : s.paused → t.paused := by exact id
  targets : t.progress.targets = s.progress.targets := by rfl
  done : t.progress.done = s.progress.done := by rfl
  marked : t.marked = s.marked := by rfl
  underWay : t.underWay = s.underWay := by rfl

/-! ### Changes of other parts -/

lemma Progress.Calm.of_same {p q : Progress}
    (h : (q.refused, q.superseded) = (p.refused, p.superseded)) (hcalm : p.Calm) : q.Calm := by
  obtain ⟨hrefused, hsuperseded⟩ := Prod.mk.inj h
  rwa [Progress.Calm, hrefused, hsuperseded]

lemma Quiet.of_same {s t : Machine}
    (h : (t.pending, t.sequence, t.paused, t.intents, t.progress.refused, t.progress.superseded) =
      (s.pending, s.sequence, s.paused, s.intents, s.progress.refused, s.progress.superseded)) :
    Quiet s t := by
  simp only [Prod.mk.injEq] at h
  obtain ⟨hpending, hsequence, hpaused, hintents, hrefused, hsuperseded⟩ := h
  exact ⟨hpending, hsequence, fun hp => hpaused ▸ hp, fun _ hi => hintents ▸ hi,
    .of_same (Prod.ext hrefused hsuperseded)⟩

lemma Aside.of_same {s t : Machine}
    (h : (t.pending, t.sequence, t.paused, t.intents, t.progress.refused, t.progress.superseded,
        t.progress.targets, t.progress.done, t.marked, t.underWay) =
      (s.pending, s.sequence, s.paused, s.intents, s.progress.refused, s.progress.superseded,
        s.progress.targets, s.progress.done, s.marked, s.underWay)) : Aside s t := by
  simp only [Prod.mk.injEq] at h
  obtain ⟨hpending, hsequence, hpaused, hintents, hrefused, hsuperseded, htargets, hdone, hmarked,
    hunderWay⟩ := h
  refine ⟨.of_same ?_, fun hp => hpaused ▸ hp, htargets, hdone, hmarked, hunderWay⟩
  rw [hpending, hsequence, hpaused, hintents, hrefused, hsuperseded]

/-- What is to be kept. `stage` is an assertion about the part of the machine that work on a
single Workspace does not touch, and `allows` are the changes it may make. -/
structure Concern where
  keeps : ManagedBinding → Prop
  stays : String → Prop
  stage : Machine → Prop
  allows : Machine → Machine → Prop
  keeps_of_kept : ∀ {b c : ManagedBinding}, c.kept = b.kept → keeps b → keeps c
  stage_aside : ∀ {s t}, Aside s t → stage s → stage t
  allows_aside : ∀ {s t}, Held keeps stays s → Held keeps stays t → Aside s t → allows s t

namespace Concern

variable (C : Concern)

structure Loose (s : Machine) : Prop where
  held : Held C.keeps C.stays s
  stage : C.stage s
  calm : s.progress.Calm

structure Sound (s : Machine) : Prop extends C.Loose s where
  bindings : s.bindings.Keeps C.keeps C.stays

/-- A save that writes what is to be kept. -/
def Saves : Effect → Prop
  | .save _ next => next.Keeps C.keeps C.stays
  | _            => True

/-- The answers of the world, whatever is observed. -/
def Answers (e : Effect) (s : Machine) (r : Reply e) (t : Machine) : Prop :=
  ∃ accepts o g g', World.answer accepts (s, g) e o = some (r, (t, g'))

def ctx : Context Machine Reply where
  rely s t := (C.Loose s → C.Loose t) ∧ (C.Sound s → C.Sound t)
  answer := Answers
  guar := C.allows
  issue e s := C.Loose s ∧ C.Saves e

/-- The work left the machine sound, and did not fail for a pause. -/
def Post {α : Type} (good : α → Prop) (r : Except SupervisorError α) (t : Machine) : Prop :=
  C.Sound t ∧ either good (· ≠ .launchesPaused) r

variable {C} {α β : Type} {good : α → Prop} {good' : β → Prop} {s t : Machine}

lemma Loose.stage_aside (h : C.Loose s) (hst : Aside s t) : C.stage t :=
  C.stage_aside hst h.stage

lemma Loose.aside (h : C.Loose s) (hst : Aside s t) (hdisk : t.disk = s.disk)
    (hbindings : t.bindings = s.bindings) (hreload : t.reloadRequired = s.reloadRequired)
    (hintents : t.intents = s.intents) : C.Loose t where
  stage := C.stage_aside hst h.stage
  calm := hst.calm h.calm
  held :=
    { disk := hdisk ▸ h.held.disk
      bindings := by rw [hreload, hbindings]; exact h.held.bindings
      writing := by rw [hintents]; exact h.held.writing }

lemma Sound.aside (h : C.Sound s) (hst : Aside s t) (hdisk : t.disk = s.disk)
    (hbindings : t.bindings = s.bindings) (hreload : t.reloadRequired = s.reloadRequired)
    (hintents : t.intents = s.intents) : C.Sound t where
  toLoose := h.toLoose.aside hst hdisk hbindings hreload hintents
  bindings := hbindings ▸ h.bindings

lemma keeps_toStore (s : Machine) {b : ManagedBinding} (h : C.keeps b) : C.keeps (s.toStore b) := by
  unfold Machine.toStore
  split_ifs
  · exact C.keeps_of_kept b.stopped_kept h
  · exact h

lemma Sound.intended (h : s.bindings.Keeps C.keeps C.stays) : s.intended.Keeps C.keeps C.stays := by
  refine h.map (fun b => keeps_toStore s) fun b => ?_
  unfold Machine.toStore
  split_ifs <;> simp

/-! ### Rules -/

variable {e : Effect} {r : Reply e}

lemma answers_cases (h : Answers e s r t) :
    t = s ∨ t = { s with locked := true } ∨ (∃ recorded, e = .save recorded t.disk ∧
      t = { s with disk := t.disk }) ∨
    ∃ sequence, t = { s with intents := s.intents.filter (·.sequence ≠ sequence) } := by
  obtain ⟨accepts, o, g, g', hans⟩ := h
  rcases World.answer_cases hans with h | ⟨-, -, h⟩ | ⟨recorded, next, rfl, -, h⟩ | ⟨q, i, f, -, -, -, h⟩
  · exact .inl (congrArg Prod.fst h)
  · exact .inr (.inl (congrArg Prod.fst h))
  · obtain rfl : t = { s with disk := next } := congrArg Prod.fst h
    exact .inr (.inr (.inl ⟨recorded, rfl, rfl⟩))
  · exact .inr (.inr (.inr ⟨q, congrArg Prod.fst h⟩))

lemma answers_load {r : Reply .load} (h : Answers .load s r t) :
    (∃ message, r = .error message) ∨ (r = .ok s.disk ∧ t = s) := by
  obtain ⟨accepts, o, g, g', hans⟩ := h
  cases o with
  | ok => cases hans; exact .inr ⟨rfl, rfl⟩
  | failed message => cases hans; exact .inl ⟨message, rfl⟩
  | _ => cases hans

lemma answers_start {b : ManagedBinding} {e : SupervisorError}
    (h : Answers (.start b) s (.error e) t) : e.ofProcess := by
  obtain ⟨accepts, o, g, g', hans⟩ := h
  cases o with
  | value v => cases v <;> cases hans
  | raised e' =>
    obtain ⟨hof, hans⟩ := Option.ite_none_right_eq_some.mp hans
    cases hans
    exact hof
  | _ => cases hans

lemma answers_aside (h : Answers e s r t) : Aside s t ∧ t.bindings = s.bindings := by
  rcases answers_cases h with rfl | h | ⟨_, -, h⟩ | ⟨_, h⟩
  · exact ⟨(.of_same rfl), rfl⟩
  · rw [h]
    exact ⟨(.of_same rfl), rfl⟩
  · rw [h]
    exact ⟨(.of_same rfl), rfl⟩
  · rw [h]
    exact ⟨{ intents := fun i hi => (List.mem_filter.mp hi).1 }, rfl⟩

lemma answers_loose (hsave : C.Saves e) (h : Answers e s r t) (hs : C.Loose s) : C.Loose t := by
  have haside := (answers_aside h).1
  refine ⟨?_, C.stage_aside haside hs.stage, haside.calm hs.calm⟩
  rcases answers_cases h with rfl | rfl | ⟨_, rfl, ht⟩ | ⟨_, rfl⟩
  · exact hs.held
  · exact ⟨hs.held.disk, hs.held.bindings, hs.held.writing⟩
  · rw [ht]
    exact ⟨hsave, hs.held.bindings, hs.held.writing⟩
  · refine ⟨hs.held.disk, hs.held.bindings, fun i hi => hs.held.writing i ?_⟩
    exact (List.mem_filter.mp hi).1

lemma answers_sound (hsave : C.Saves e) (h : Answers e s r t) (hs : C.Sound s) : C.Sound t :=
  ⟨answers_loose hsave h hs.toLoose, (answers_aside h).2 ▸ hs.bindings⟩

lemma wp_loose {Q : Except SupervisorError (Reply e) → Machine → Prop}
    (hsave : C.Saves e) (hs : C.Loose s)
    (hk : ∀ s' r t, C.Loose s' → Answers e s' r t → C.Loose t → Q (.ok r) t) :
    wp C.ctx (request e) Q s := by
  rw [wp_request]
  refine ⟨⟨hs, hsave⟩, fun s' hs' r t hans => ?_⟩
  have hs' := hs'.1 hs
  have ht := answers_loose hsave hans hs'
  exact ⟨C.allows_aside hs'.held ht.held (answers_aside hans).1, hk s' r t hs' hans ht⟩

lemma wp_call {Q : Except SupervisorError (Reply e) → Machine → Prop}
    (hsave : C.Saves e) (hs : C.Sound s)
    (hk : ∀ s' r t, C.Sound s' → Answers e s' r t → C.Sound t → Q (.ok r) t) :
    wp C.ctx (request e) Q s := by
  rw [wp_request]
  refine ⟨⟨hs.toLoose, hsave⟩, fun s' hs' r t hans => ?_⟩
  have hs' := hs'.2 hs
  have ht := answers_sound hsave hans hs'
  exact ⟨C.allows_aside hs'.held ht.held (answers_aside hans).1, hk s' r t hs' hans ht⟩

lemma wp_orThrow {r : Except String α} (hs : C.Sound s) (hgood : ∀ a, good a) :
    wp C.ctx (Calls.orThrow r) (C.Post good) s := by
  cases r with
  | ok a => exact ⟨hs, hgood a⟩
  | error e => exact ⟨hs, by simp⟩

lemma wp_change {f : Machine → Machine} (hs : C.Sound s) (hf : Aside s (f s))
    (hdisk : (f s).disk = s.disk) (hbindings : (f s).bindings = s.bindings)
    (hreload : (f s).reloadRequired = s.reloadRequired) (hintents : (f s).intents = s.intents) :
    wp C.ctx (update f) (C.Post fun _ => True) s := by
  have ht := hs.aside hf hdisk hbindings hreload hintents
  rw [wp_update]
  exact ⟨C.allows_aside hs.held ht.held hf, ht, trivial⟩

lemma wp_seq {p : Op α} {f : α → Op β} (hp : wp C.ctx p (C.Post good) s)
    (hf : ∀ a t, good a → C.Sound t → wp C.ctx (f a) (C.Post good') t) :
    wp C.ctx (p >>= f) (C.Post good') s := by
  rw [wp_bind]
  refine wp_mono ?_ hp
  rintro (e | a) t ⟨ht, h⟩
  · exact ⟨ht, h⟩
  · exact hf a t h ht

lemma wp_finally {p : Op α} {q : Op Unit} (hp : wp C.ctx p (C.Post good) s)
    (hq : ∀ t, C.Sound t → wp C.ctx q (C.Post fun _ => True) t) :
    wp C.ctx (p.andFinally q) (C.Post good) s := by
  rw [wp_andFinally]
  refine wp_mono ?_ hp
  rintro r t ⟨ht, hr⟩
  refine wp_mono ?_ (hq t ht)
  rintro (e | _) u ⟨hu, h⟩
  · exact ⟨hu, h⟩
  · exact ⟨hu, hr⟩

/-! ### The store -/

lemma wp_exclusive {write : Op α} (hs : C.Sound s)
    (h : ∀ t, C.Sound t → wp C.ctx write (C.Post good) t) :
    wp C.ctx (exclusive write) (C.Post good) s := by
  unfold exclusive Calls.exclusive
  refine wp_bind.mpr (wp_call (e := .exclusive) trivial hs fun _ r t _ _ ht => ?_)
  refine wp_finally (h t ht) fun u hu => ?_
  exact wp_change hu (.of_same rfl) rfl rfl rfl rfl

variable {recorded : Option String}

lemma wp_store {next : Registry} (hnext : next.Keeps C.keeps C.stays)
    (hs : C.Sound s) : wp C.ctx (store recorded next) (C.Post fun _ => True) s := by
  unfold store Calls.save
  refine wp_bind.mpr (wp_call (e := .save recorded next) hnext hs fun _ r t _ _ ht => ?_)
  cases r with
  | ok =>
    have hu : C.Sound { t with bindings := next } :=
      { held := ⟨ht.held.disk, fun _ => hnext, ht.held.writing⟩
        stage := ht.stage_aside (.of_same rfl)
        calm := ht.calm
        bindings := hnext }
    exact ⟨C.allows_aside ht.held hu.held (.of_same rfl), hu, trivial⟩
  | error e =>
    have hu : C.Sound { t with reloadRequired := true } :=
      { held := ⟨ht.held.disk, fun h => (by cases h), ht.held.writing⟩
        stage := ht.stage_aside (.of_same rfl)
        calm := ht.calm
        bindings := ht.bindings }
    exact ⟨C.allows_aside ht.held hu.held (.of_same rfl), hu, by simp⟩

lemma wp_refresh (hs : C.Loose s) :
    wp C.ctx refresh (fun r t => C.Loose t ∧ either (fun _ => C.Sound t) (· ≠ .launchesPaused) r)
      s := by
  have hunlock {t : Machine} (ht : C.Loose t) : C.Loose { t with locked := false } :=
    ht.aside (.of_same rfl) rfl rfl rfl rfl
  have hunlocked {t : Machine} (ht : C.Sound t) : C.Sound { t with locked := false } :=
    ht.aside (.of_same rfl) rfl rfl rfl rfl
  unfold refresh exclusive Calls.exclusive
  refine wp_bind.mpr (wp_loose (e := .exclusive) trivial hs fun _ r t _ _ ht => ?_)
  simp only [either_ok, wp_andFinally, reloadIfRequired, wp_bind, wp_gets]
  by_cases hreload : t.reloadRequired
  · simp only [hreload, if_true, Calls.load, wp_bind]
    refine wp_loose (e := .load) trivial ht fun t' r u ht' hans hu => ?_
    rcases answers_load hans with ⟨message, rfl⟩ | ⟨rfl, rfl⟩
    · exact ⟨C.allows_aside hu.held (hunlock hu).held (.of_same rfl), hunlock hu, by simp⟩
    · have hv : C.Sound { u with bindings := u.disk, reloadRequired := false } :=
        { held := ⟨hu.held.disk, fun _ => hu.held.disk, hu.held.writing⟩
          stage := hu.stage_aside (.of_same rfl)
          calm := hu.calm
          bindings := hu.held.disk }
      refine ⟨C.allows_aside hu.held hv.held (.of_same rfl), ?_⟩
      exact ⟨C.allows_aside hv.held (hunlock hv.toLoose).held (.of_same rfl),
        hunlock hv.toLoose, hunlocked hv⟩
  · simp only [hreload]
    have ht' : C.Sound t := ⟨ht, ht.held.bindings (by simpa using hreload)⟩
    exact ⟨C.allows_aside ht.held (hunlock ht).held (.of_same rfl), hunlock ht, hunlocked ht'⟩

lemma wp_saveBinding {b : ManagedBinding} (hb : C.keeps b)
    (hs : C.Sound s) : wp C.ctx (saveBinding recorded b) (C.Post C.keeps) s := by
  unfold saveBinding
  rw [wp_bind, wp_gets, either_ok]
  have hstored := keeps_toStore s hb
  have hwrite : wp C.ctx
      (exclusive do
        let bindings ← gets (·.bindings)
        store recorded (bindings.replace (s.toStore b))) (C.Post fun _ => True) s := by
    refine wp_exclusive hs fun t ht => ?_
    rw [wp_bind, wp_gets, either_ok]
    exact wp_store (ht.bindings.replace hstored) ht
  exact wp_seq hwrite fun _ t _ ht => ⟨ht, hstored⟩

lemma wp_saveEdit {b c : ManagedBinding} (hb : C.keeps b) (hc : c.kept = b.kept) (hs : C.Sound s) :
    wp C.ctx (saveBinding recorded c) (C.Post C.keeps) s :=
  wp_saveBinding (C.keeps_of_kept hc hb) hs

lemma wp_clearFailure {id : String} (hs : C.Sound s) :
    wp C.ctx (clearFailure id) (C.Post fun _ => True) s := by
  unfold clearFailure
  rw [wp_bind, wp_gets, either_ok]
  cases hfind : s.bindings.find id with
  | none => exact ⟨hs, trivial⟩
  | some b =>
    dsimp only
    split_ifs
    · exact wp_seq (wp_saveEdit (hs.bindings.find hfind) rfl hs) fun _ t _ ht => ⟨ht, trivial⟩
    · exact ⟨hs, trivial⟩

/-! ### One Workspace -/

lemma wp_track {workspaceId : String} {work : Op α} (hs : C.Sound s)
    (h : ∀ t, C.Sound t → wp C.ctx work (C.Post good) t) :
    wp C.ctx (track workspaceId work) (C.Post good) s := by
  unfold track
  refine wp_seq (wp_change hs (.of_same rfl) rfl rfl rfl rfl) fun _ t _ ht => ?_
  refine wp_finally (h t ht) fun u hu => ?_
  exact wp_change hu (.of_same rfl) rfl rfl rfl rfl

lemma wp_throwIfAborted {id : String} (hs : C.Sound s) :
    wp C.ctx (throwIfAborted id) (C.Post fun _ => True) s := by
  unfold throwIfAborted
  rw [wp_bind, wp_gets, either_ok]
  split
  · exact ⟨hs, by simp⟩
  · exact ⟨hs, trivial⟩

lemma wp_process (hsave : C.Saves e) {k : Reply e → Op β} (hs : C.Sound s)
    (hk : ∀ r t, C.Sound t → wp C.ctx (k r) (C.Post good') t) :
    wp C.ctx (request e >>= k) (C.Post good') s :=
  wp_bind.mpr (wp_call hsave hs fun _ r t _ _ ht => hk r t ht)

lemma wp_stopWorkspace {b : ManagedBinding} (hs : C.Sound s) :
    wp C.ctx (stopWorkspace b) (C.Post fun _ => True) s := by
  have hstop : wp C.ctx (Calls.stop b) (C.Post fun _ => True) s :=
    wp_process (e := .stop b) trivial hs fun _ _ ht => wp_orThrow ht fun _ => trivial
  refine wp_seq hstop fun _ t _ ht => ?_
  exact wp_change ht (.of_same rfl) rfl rfl rfl rfl

lemma wp_instanceOf {b : ManagedBinding} (hs : C.Sound s) :
    wp C.ctx (Calls.instanceOf b) (C.Post fun _ => True) s :=
  wp_process (e := .instance b) trivial hs fun _ _ ht => wp_orThrow ht fun _ => trivial

lemma wp_launchWorkspace {b : ManagedBinding} (hs : C.Sound s) :
    wp C.ctx (launchWorkspace b) (C.Post fun _ => True) s := by
  unfold launchWorkspace
  refine wp_seq (wp_change hs (.of_same rfl) rfl rfl rfl rfl) fun _ t _ ht => ?_
  refine wp_seq (wp_throwIfAborted ht) fun _ u _ hu => ?_
  unfold Calls.start
  refine wp_bind.mpr (wp_call (e := .start b) trivial hu fun _ r v _ hans hv => ?_)
  cases r with
  | error e =>
    refine ⟨hv, ?_⟩
    rintro rfl
    exact Bool.noConfusion (answers_start hans)
  | ok instanceId =>
    refine wp_seq (wp_change hv (.of_same rfl) rfl rfl rfl rfl) fun _ w _ hw => ?_
    exact ⟨hw, trivial⟩

lemma wp_startWorkspace {b : ManagedBinding} (hs : C.Sound s) :
    wp C.ctx (startWorkspace b) (C.Post fun _ => True) s := by
  unfold startWorkspace
  rw [wp_bind, wp_gets, either_ok]
  split
  · exact wp_launchWorkspace hs
  · refine wp_seq (wp_instanceOf hs) fun live t _ ht => ?_
    split_ifs
    · exact ⟨ht, trivial⟩
    · exact wp_launchWorkspace ht

lemma wp_finishRestart {b : ManagedBinding} {restart : RestartProgress} (hb : C.keeps b)
    (hs : C.Sound s) : wp C.ctx (finishRestart b restart) (C.Post fun _ => True) s := by
  unfold finishRestart
  refine wp_seq (wp_startWorkspace hs) fun instanceId t _ ht => ?_
  split_ifs
  · exact ⟨ht, by simp⟩
  · exact wp_seq (wp_saveEdit hb rfl ht) fun _ u _ hu => ⟨hu, trivial⟩

lemma wp_stopHeld (b : ManagedBinding) (live : Option String) (hs : C.Sound s) :
    wp C.ctx
      (throwIfAborted b.workspaceId >>= fun _ => tryCatch (stopWorkspace b) fun e => do
        if live.isSome then Calls.release b else pure ()
        throw e) (C.Post fun _ => True) s := by
  refine wp_seq (wp_throwIfAborted hs) fun _ t _ ht => ?_
  rw [wp_tryCatch]
  refine wp_mono ?_ (wp_stopWorkspace ht)
  rintro (e | _) u ⟨hu, he⟩
  · have hthrow {v : Machine} (hv : C.Sound v) :
        wp C.ctx (throw e : Op Unit) (C.Post fun _ => True) v := ⟨hv, he⟩
    rw [either_error]
    dsimp only
    split_ifs
    · exact wp_process (e := .release b) trivial hu fun _ v hv => hthrow hv
    · exact hthrow hu
  · exact ⟨hu, trivial⟩

lemma wp_stopForRestart {b : ManagedBinding} {live : Option String} (hs : C.Sound s) :
    wp C.ctx (stopForRestart b live) (C.Post fun _ => True) s := by
  unfold stopForRestart
  dsimp only
  split_ifs with hlive
  · refine wp_process (e := .hold b) trivial hs fun _ t ht => ?_
    simpa only [hlive, if_true] using wp_stopHeld b live ht
  · simpa only [hlive, Bool.false_eq_true, if_false] using wp_stopHeld b live hs

lemma wp_advanceRestart {b : ManagedBinding} (hb : C.keeps b) (hs : C.Sound s) :
    wp C.ctx (advanceRestart b) (C.Post fun _ => True) s := by
  unfold advanceRestart
  cases hrestart : b.restart with
  | none => exact ⟨hs, by simp⟩
  | some restart =>
    dsimp only
    by_cases hphase : restart.phase = .stopping
    · rw [if_pos hphase]
      refine wp_seq (wp_instanceOf hs) fun live t _ ht => ?_
      have hrest {u : Machine} (hu : C.Sound u) : wp C.ctx
          (saveBinding none { b with restart := some { restart with phase := .starting } } >>=
            fun c => finishRestart c restart) (C.Post fun _ => True) u :=
        wp_seq (wp_saveEdit hb rfl hu) fun c v hc hv => wp_finishRestart hc hv
      split_ifs
      · exact wp_seq (wp_stopForRestart ht) fun _ u _ hu => hrest hu
      · exact hrest ht
    · rw [if_neg hphase]
      exact wp_finishRestart hb hs

lemma wp_beginRestart {b : ManagedBinding} {requestId : String} (hb : C.keeps b)
    (hs : C.Sound s) : wp C.ctx (beginRestart b requestId) (C.Post C.keeps) s := by
  unfold beginRestart
  cases b.restart with
  | some _ => exact ⟨hs, hb⟩
  | none => exact wp_seq (wp_instanceOf hs) fun live t _ ht => wp_saveEdit hb rfl ht

lemma wp_restartForOperator {b : ManagedBinding} {requestId : String} (hb : C.keeps b)
    (hs : C.Sound s) : wp C.ctx (restartForOperator b requestId) (C.Post fun _ => True) s := by
  unfold restartForOperator
  split
  · exact ⟨hs, by simp⟩
  · exact ⟨hs, trivial⟩
  · split_ifs
    · exact ⟨hs, by simp⟩
    · refine wp_seq (wp_beginRestart hb hs) fun c t hc ht => ?_
      exact wp_seq (wp_advanceRestart hc ht) fun _ u _ hu => ⟨hu, trivial⟩

lemma wp_startForOperator {operation : LifecycleOperation} {b : ManagedBinding}
    {requestId : Option String} (hb : C.keeps b) (hs : C.Sound s) :
    wp C.ctx (startForOperator operation b requestId) (C.Post fun _ => True) s := by
  unfold startForOperator
  have hclear : wp C.ctx (Calls.clearHealth b) (C.Post fun _ => True) s :=
    wp_process (e := .clearHealth b) trivial hs fun _ _ ht => wp_orThrow ht fun _ => trivial
  refine wp_seq hclear fun _ t _ ht => ?_
  split_ifs
  · cases requestId with
    | some id => exact wp_restartForOperator hb ht
    | none =>
      exact wp_process (e := .randomUUID) trivial ht fun id u hu => wp_restartForOperator hb hu
  · exact wp_seq (wp_advanceRestart hb ht) fun _ u _ hu => ⟨hu, trivial⟩
  · refine wp_seq (wp_saveEdit hb rfl ht) fun c u hc hu => ?_
    exact wp_seq (wp_startWorkspace hu) fun _ v _ hv => ⟨hv, trivial⟩

/-! ### One target of a command -/

lemma wp_refuse {e : SupervisorError} (he : e ≠ .launchesPaused) (hs : C.Sound s) :
    wp C.ctx (refuse e) (C.Post fun _ => True) s := by
  refine wp_change hs { calm := fun h => ⟨?_, h.2⟩ } rfl rfl rfl rfl
  cases hrefused : s.progress.refused with
  | none => simpa [hrefused] using he
  | some e' => simpa [hrefused] using h.1

lemma wp_supersede {e : SupervisorError} (he : e ≠ .launchesPaused) (hs : C.Sound s) :
    wp C.ctx (supersede e) (C.Post fun _ => True) s := by
  refine wp_change hs { calm := fun h => ⟨h.1, ?_⟩ } rfl rfl rfl rfl
  cases hsuperseded : s.progress.superseded with
  | none => simpa [hsuperseded] using he
  | some e' => simpa [hsuperseded] using h.2

variable {command : Command}

lemma wp_skipSuperseded {b : ManagedBinding} {takenBy : Takeover}
    (hb : C.keeps b) (hs : C.Sound s) :
    wp C.ctx (skipSuperseded command b takenBy) (C.Post fun _ => True) s := by
  unfold skipSuperseded
  refine wp_seq (wp_supersede (by simp) hs) fun _ t _ ht => ?_
  cases command.requestId with
  | none => exact ⟨ht, trivial⟩
  | some id =>
    dsimp only
    split_ifs
    · exact wp_seq (wp_saveEdit hb rfl ht) fun _ u _ hu => ⟨hu, trivial⟩
    · exact ⟨ht, trivial⟩

lemma wp_runTarget {b : ManagedBinding} (hb : C.keeps b) (hs : C.Sound s) :
    wp C.ctx (runTarget command b) (C.Post fun _ => True) s := by
  have hrun : wp C.ctx
      (do
        let started ← track b.workspaceId
          (startForOperator command.operation b command.requestId)
        if started then
          update fun s =>
            { s with progress := { s.progress with
                started := s.progress.started ++ [b.workspaceId] } }
        else pure ()
        clearFailure b.workspaceId) (C.Post fun _ => True) s := by
    refine wp_seq (wp_track hs fun t ht => wp_startForOperator hb ht) fun started t _ ht => ?_
    cases started with
    | true =>
      exact wp_seq (wp_change ht (.of_same rfl) rfl rfl rfl rfl) fun _ u _ hu =>
        wp_clearFailure hu
    | false => exact wp_clearFailure ht
  unfold runTarget
  rw [wp_tryCatch]
  refine wp_mono ?_ hrun
  rintro (e | _) t ⟨ht, he⟩
  · rw [either_error]
    split
    · exact wp_refuse (by simp) ht
    · exact wp_supersede (by simp) ht
    · exact ⟨ht, he⟩
  · exact ⟨ht, trivial⟩

lemma wp_startTarget {b : ManagedBinding} (hb : C.keeps b)
    (hs : C.Sound s) : wp C.ctx (startTarget command b) (C.Post fun _ => True) s := by
  unfold startTarget
  have hparked : wp C.ctx (Calls.parkedReason b) (C.Post fun _ => True) s :=
    wp_process (e := .parkedReason b) trivial hs fun _ _ ht => wp_orThrow ht fun _ => trivial
  refine wp_seq hparked fun reason t _ ht => ?_
  cases reason with
  | some reason =>
    dsimp only
    split_ifs
    · exact wp_refuse (by simp) ht
    · exact ⟨ht, trivial⟩
  | none =>
    dsimp only
    rw [wp_bind, wp_gets, either_ok]
    split
    · exact wp_skipSuperseded hb ht
    · exact wp_runTarget hb ht

lemma wp_stopTarget {b : ManagedBinding} (hb : C.keeps b) (hs : C.Sound s) :
    wp C.ctx (stopTarget b) (C.Post fun _ => True) s := by
  unfold stopTarget
  refine wp_seq (wp_saveEdit hb b.stopped_kept hs) fun stored t _ ht => ?_
  exact wp_seq (wp_stopWorkspace ht) fun _ u _ hu => wp_clearFailure hu

/-! ### Operations -/

variable (C) in
/-- How an operation as a whole ends. -/
def Ended (r : Except SupervisorError α) (t : Machine) : Prop :=
  C.Loose t ∧ r ≠ .error .launchesPaused

lemma Post.failed {e : SupervisorError} (h : C.Post good (.error e) t) :
    C.Ended (.error e : Except SupervisorError β) t := by
  refine ⟨h.1.toLoose, fun he => h.2 ?_⟩
  exact Except.error.inj he

lemma Post.ended {r : Except SupervisorError α} (h : C.Post good r t) : C.Ended r t := by
  refine ⟨h.1.toLoose, ?_⟩
  rintro rfl
  exact h.2 rfl

lemma wp_refreshed {f : Unit → Op α} (hs : C.Loose s)
    (hf : ∀ t, C.Sound t → wp C.ctx (f ()) C.Ended t) : wp C.ctx (refresh >>= f) C.Ended s := by
  rw [wp_bind]
  refine wp_mono ?_ (wp_refresh hs)
  rintro (e | _) t ⟨ht, h⟩
  · exact ⟨ht, by simpa using h⟩
  · exact hf t h

lemma wp_runConfigure {config : DaemonConfig} (hs : C.Loose s)
    (hconfig : ∀ previous : Option ManagedBinding, (∀ b ∈ previous, C.keeps b) →
      C.keeps (.configured config previous)) : wp C.ctx (runConfigure config) C.Ended s := by
  unfold runConfigure
  refine wp_refreshed hs fun t ht => ?_
  rw [wp_bind, wp_gets, either_ok]
  dsimp only
  have hprevious : ∀ b ∈ t.bindings.find config.workspaceId, C.keeps b :=
    fun b hb => ht.bindings.find hb
  generalize hprev : t.bindings.find config.workspaceId = previous at hprevious ⊢
  have hrest {u : Machine} (hu : C.Sound u) : wp C.ctx
      (do
        let binding := ManagedBinding.configured config previous
        Calls.clearParked binding
        let _ ← saveBinding none binding
        let _ ← track binding.workspaceId (startWorkspace binding)
        clearFailure binding.workspaceId) C.Ended u := by
    refine wp_mono (Q := C.Post fun _ => True) (fun r v hv => hv.ended) ?_
    have hclear : wp C.ctx (Calls.clearParked (.configured config previous))
        (C.Post fun _ => True) u :=
      wp_process (e := .clearParked _) trivial hu fun _ _ hv => wp_orThrow hv fun _ => trivial
    refine wp_seq hclear fun _ v _ hv => ?_
    refine wp_seq (wp_saveBinding (hconfig previous hprevious) hv) fun _ w _ hw => ?_
    refine wp_seq (wp_track hw fun x hx => wp_startWorkspace hx) fun _ x _ hx => ?_
    exact wp_clearFailure hx
  cases previous with
  | none => exact hrest ht
  | some b =>
    rw [wp_bind]
    refine wp_mono ?_ (wp_stopWorkspace ht)
    rintro (e | _) u hu
    · exact hu.ended
    · exact hrest hu.1

lemma wp_reconcileBinding {b : ManagedBinding} (hb : C.keeps b) (hs : C.Sound s) :
    wp C.ctx (reconcileBinding b) (C.Post fun _ => True) s := by
  unfold reconcileBinding
  by_cases henabled : b.enabled
  · rw [if_neg (not_not.mpr henabled)]
    have hparked : wp C.ctx (Calls.parkedReason b) (C.Post fun _ => True) s :=
      wp_process (e := .parkedReason b) trivial hs fun _ _ ht => wp_orThrow ht fun _ => trivial
    refine wp_seq hparked fun reason t _ ht => ?_
    cases reason with
    | some _ => exact ⟨ht, trivial⟩
    | none =>
      by_cases hrestart : b.restart.isSome
      · simp only [hrestart, if_true]
        refine wp_seq (wp_track ht fun u hu => wp_advanceRestart hb hu) fun _ u _ hu => ?_
        exact wp_clearFailure hu
      · simp only [hrestart]
        refine wp_seq (wp_track ht fun u hu => wp_startWorkspace hu) fun _ u _ hu => ?_
        exact wp_clearFailure hu
  · rw [if_pos henabled]
    exact wp_seq (wp_stopWorkspace hs) fun _ t _ ht => wp_clearFailure ht

lemma wp_reconcileEach {ids : List String} (hs : C.Loose s) :
    wp C.ctx (reconcileEach ids) C.Ended s := by
  induction ids generalizing s with
  | nil => exact ⟨hs, by simp⟩
  | cons id ids ih =>
    unfold reconcileEach
    refine wp_refreshed hs fun t ht => ?_
    rw [wp_bind, wp_gets, either_ok, wp_bind]
    refine wp_result.mpr (wp_mono ?_ (?_ : wp C.ctx _ (C.Post fun _ => True) t))
    · rintro outcome u hu
      rw [either_ok, wp_bind]
      refine wp_mono ?_ (ih hu.1.toLoose)
      rintro (e | failures) v hv
      · exact ⟨hv.1, by simpa using hv.2⟩
      · cases outcome <;> exact ⟨hv.1, by simp⟩
    · cases hfind : t.bindings.find id with
      | none => exact ⟨ht, by simp⟩
      | some b => exact wp_reconcileBinding (ht.bindings.find hfind) ht

lemma wp_reconcileBindings (hs : C.Loose s) : wp C.ctx reconcileBindings C.Ended s := by
  unfold reconcileBindings
  rw [wp_bind, wp_gets, either_ok, wp_bind]
  refine wp_mono ?_ (wp_reconcileEach hs)
  rintro (e | failures) t ht
  · exact ⟨ht.1, by simpa using ht.2⟩
  · rw [either_ok]
    split_ifs <;> exact ⟨ht.1, by simp⟩

lemma wp_reconcile (hs : C.Loose s) : wp C.ctx reconcile C.Ended s := by
  unfold reconcile
  rw [wp_bind, wp_gets, either_ok]
  split_ifs
  · exact ⟨hs, by simp⟩
  · exact wp_refreshed hs fun t ht => wp_reconcileBindings ht.toLoose

lemma wp_resume (hs : C.Loose s) (hresumed : C.stage { s with paused := false })
    (hallows : C.allows s { s with paused := false }) : wp C.ctx resume C.Ended s := by
  have ht : C.Loose { s with paused := false } :=
    ⟨⟨hs.held.disk, hs.held.bindings, hs.held.writing⟩, hresumed, hs.calm⟩
  unfold resume
  rw [wp_bind, wp_update]
  refine ⟨hallows, ?_⟩
  exact wp_refreshed ht fun u hu => wp_reconcileBindings hu.toLoose

lemma wp_shutdown (hs : C.Loose s) : wp C.ctx shutdown C.Ended s := by
  unfold shutdown
  rw [wp_bind, wp_gets, either_ok]
  refine wp_forEach (fun _ => C.Loose) (fun t ht => ⟨ht, by simp⟩) (fun b _ t ht => ?_) hs
  unfold stopWorkspace Calls.stop
  simp only [wp_bind]
  refine wp_loose (e := .stop b) trivial ht fun _ r u _ _ hu => ?_
  cases r with
  | error e => exact ⟨hu, by simp⟩
  | ok =>
    have hv : C.Loose { u with instances := Function.update u.instances b.workspaceId none } :=
      hu.aside (.of_same rfl) rfl rfl rfl rfl
    exact ⟨C.allows_aside hu.held hv.held (.of_same rfl), hv⟩

/-! ### Commands -/

lemma wp_throwRecorded (hs : C.Loose s) :
    wp C.ctx
      (do
        throwIfSome (← gets (·.progress.refused))
        throwIfSome (← gets (·.progress.superseded)) : Op Unit) C.Ended s := by
  have ⟨hrefused, hsuperseded⟩ := hs.calm
  rw [wp_bind, wp_gets, either_ok, wp_bind]
  cases hr : s.progress.refused with
  | some e => exact ⟨hs, fun h => hrefused (by rw [hr, Except.error.inj h])⟩
  | none =>
    change wp C.ctx (throwIfSome s.progress.superseded) C.Ended s
    cases hsup : s.progress.superseded with
    | some e => exact ⟨hs, fun h => hsuperseded (by rw [hsup, Except.error.inj h])⟩
    | none => exact ⟨hs, by simp⟩

section Unstaged

variable (hstage : ∀ t, C.stage t)
  (hallows : ∀ t u, C.Loose t → C.Loose u → Quiet t u → C.allows t u)
include hstage hallows

/-- One target of a command is handled, where nothing is asserted about the command itself. -/
lemma wp_handleTarget {command : Command} {b : ManagedBinding} (hb : C.keeps b)
    (hs : C.Sound s) : wp C.ctx (handleTarget command b) (C.Post fun _ => True) s := by
  have hcount {t : Machine} (ht : C.Sound t) : wp C.ctx
      (update fun s =>
        { s with progress := { s.progress with done := s.progress.done + 1 } }.settle
          b.workspaceId) (C.Post fun _ => True) t := by
    have hu : C.Sound ({ t with progress := { t.progress with
        done := t.progress.done + 1 } }.settle b.workspaceId) ∧
        Quiet t ({ t with progress := { t.progress with
          done := t.progress.done + 1 } }.settle b.workspaceId) := by
      unfold Machine.settle
      split_ifs <;> exact ⟨⟨⟨⟨ht.held.disk, ht.held.bindings, ht.held.writing⟩, hstage _, ht.calm⟩,
        ht.bindings⟩, (.of_same rfl)⟩
    exact ⟨hallows _ _ ht.toLoose hu.1.toLoose hu.2, hu.1, trivial⟩
  unfold handleTarget
  by_cases hstop : command.operation = .stop
  · simp only [hstop, if_true]
    exact wp_seq (wp_stopTarget hb hs) fun _ t _ ht => hcount ht
  · simp only [hstop, if_false]
    exact wp_seq (wp_startTarget hb hs) fun _ t _ ht => hcount ht

lemma wp_runCommand {command : Command} (hs : C.Loose s) :
    wp C.ctx (runCommand command) C.Ended s := by
  unfold runCommand
  refine wp_refreshed hs fun t ht => ?_
  rw [wp_bind, wp_read, either_ok]
  split_ifs
  · exact ⟨ht.toLoose, by simp⟩
  · have hu : C.Sound { t with progress := { t.progress with
        targets := some ((t.targets command.operation command.workspaceId).map
          (·.workspaceId)) } } :=
      ⟨⟨⟨ht.held.disk, ht.held.bindings, ht.held.writing⟩, hstage _, ht.calm⟩, ht.bindings⟩
    rw [wp_bind, wp_update]
    refine ⟨hallows _ _ ht.toLoose hu.toLoose (.of_same rfl), ?_⟩
    rw [either_ok, wp_bind]
    refine wp_forEach (fun bs u => C.Sound u ∧ ∀ b ∈ bs, C.keeps b) (fun u hu => ?_)
      (fun b bs u hu => ?_) ⟨hu, fun b hb => ht.bindings.all b (List.mem_filter.mp hb).1⟩
    · exact wp_throwRecorded hu.1.toLoose
    · refine wp_mono ?_ (wp_handleTarget hstage hallows (hu.2 b List.mem_cons_self) hu.1)
      rintro (e | _) v hv
      · exact hv.ended
      · exact ⟨hv.1, fun c hc => hu.2 c (List.mem_cons_of_mem b hc)⟩

end Unstaged

lemma wp_awaitIntent (hs : C.Loose s) : wp C.ctx (awaitIntent command) C.Ended s := by
  unfold awaitIntent
  split_ifs
  · rw [wp_bind]
    refine wp_loose (e := .intent command.sequence) trivial hs fun _ r t _ _ ht => ?_
    cases r with
    | none => exact ⟨ht, by simp⟩
    | some message => exact ⟨ht, by simp⟩
  · exact ⟨hs, by simp⟩

/-! ### Upgrade operations and failures -/

lemma wp_recordFailure {operation : LifecycleOperation} {ids : List String} {message : String}
    (hs : C.Loose s) : wp C.ctx (recordFailure operation ids message) C.Ended s := by
  unfold recordFailure
  refine wp_refreshed hs fun t ht => ?_
  refine wp_forEach (fun _ => C.Sound) (fun u hu => ⟨hu.toLoose, by simp⟩) (fun id _ u hu => ?_) ht
  rw [wp_bind, wp_read, either_ok]
  cases hfind : u.bindings.find id with
  | none => exact hu
  | some b =>
    refine wp_bind.mpr (wp_mono ?_ (wp_saveEdit (hu.bindings.find hfind) rfl hu))
    rintro (e | c) v hv
    · exact hv.failed
    · exact hv.1

section Upgrades

variable (hoperations : ∀ b operations, C.keeps b →
  C.keeps { b with upgradeOperations := some operations })
include hoperations

variable {requestId : String}

lemma wp_recordIn {b : ManagedBinding} {expectedVersion : String} (hb : C.keeps b)
    (hs : C.Sound s) :
    wp C.ctx (recordIn b requestId expectedVersion) (C.Post fun _ => True) s := by
  have hunblocked : wp C.ctx (unblockedOperations b) (C.Post fun _ => True) s := by
    unfold unblockedOperations
    split
    · exact ⟨hs, trivial⟩
    · next pending _ =>
      refine wp_process (e := .settlePending _ _ _) trivial hs fun settlement t ht => ?_
      cases settlement with
      | none => exact ⟨ht, by simp⟩
      | some settlement => exact ⟨ht, trivial⟩
  unfold recordIn
  split_ifs
  · exact ⟨hs, by simp⟩
  · split
    · split_ifs
      · exact ⟨hs, by simp⟩
      · exact ⟨hs, trivial⟩
    · refine wp_seq hunblocked fun operations t _ ht => ?_
      rw [wp_bind, wp_gets, either_ok]
      exact wp_seq (wp_saveBinding (hoperations b _ hb) ht) fun _ u _ hu => ⟨hu, trivial⟩

variable {workspaceId : String}

lemma wp_recordUpgrade {expectedVersion : String} (hs : C.Loose s) :
    wp C.ctx (recordUpgrade workspaceId requestId expectedVersion) (fun _ => C.Loose) s := by
  unfold recordUpgrade assertMutable
  rw [wp_bind, wp_bind, wp_gets, either_ok]
  split_ifs
  · exact hs
  · rw [wp_pure, either_ok]
    refine wp_mono (Q := C.Ended) (fun r t ht => ht.1) (wp_refreshed hs fun t ht => ?_)
    rw [wp_bind, wp_gets, either_ok]
    cases hfind : t.bindings.find workspaceId with
    | none => exact ⟨ht.toLoose, by simp⟩
    | some b =>
      exact wp_mono (fun r u hu => hu.ended) (wp_recordIn hoperations (ht.bindings.find hfind) ht)

lemma wp_completeUpgrade {settlement : PendingUpgradeSettlement} (hs : C.Loose s) :
    wp C.ctx (completeUpgrade workspaceId requestId settlement) (fun _ => C.Loose) s := by
  unfold completeUpgrade
  refine wp_mono (Q := C.Ended) (fun r t ht => ht.1) (wp_refreshed hs fun t ht => ?_)
  rw [wp_bind, wp_gets, either_ok]
  cases hfind : t.bindings.find workspaceId with
  | none => exact ⟨ht.toLoose, by simp⟩
  | some b =>
    dsimp only
    split
    · exact ⟨ht.toLoose, by simp⟩
    · refine wp_mono (Q := C.Post fun _ => True) (fun r u hu => hu.ended) ?_
      exact wp_seq (wp_saveBinding (hoperations b _ (ht.bindings.find hfind)) ht)
        fun _ u _ hu => ⟨hu, trivial⟩

lemma wp_acknowledgeUpgrade (hs : C.Loose s) :
    wp C.ctx (acknowledgeUpgrade workspaceId requestId) (fun _ => C.Loose) s := by
  unfold acknowledgeUpgrade
  refine wp_mono (Q := C.Ended) (fun r t ht => ht.1) (wp_refreshed hs fun t ht => ?_)
  rw [wp_bind, wp_gets, either_ok]
  cases hfind : t.bindings.find workspaceId with
  | none => exact ⟨ht.toLoose, by simp⟩
  | some b =>
    dsimp only
    split
    · exact ⟨ht.toLoose, by simp⟩
    · split
      · exact ⟨ht.toLoose, by simp⟩
      · exact ⟨ht.toLoose, by simp⟩
      · refine wp_mono (Q := C.Post fun _ => True) (fun r u hu => hu.ended) ?_
        exact wp_seq (wp_saveBinding (hoperations b _ (ht.bindings.find hfind)) ht)
          fun _ u _ hu => ⟨hu, trivial⟩

end Upgrades

/-! ### Beside the work -/

section Beside

variable {accepts : Registry → Bool} {w w' : World} {l : Event}

lemma writing_setIntent {sequence : Nat} {phase : IntentPhase}
    (h : ∀ i ∈ s.intents, ∀ before next, i.phase = .writing before next →
      next.Keeps C.keeps C.stays)
    (hphase : ∀ before next, phase = .writing before next → next.Keeps C.keeps C.stays) :
    ∀ i ∈ (s.setIntent sequence phase).intents, ∀ before next, i.phase = .writing before next →
      next.Keeps C.keeps C.stays := by
  intro i hi before next hi'
  obtain ⟨j, hj, rfl⟩ := List.mem_map.mp hi
  split_ifs at hi'
  · exact hphase before next hi'
  · exact h j hj before next hi'

lemma keeps_reloaded (h : Held C.keeps C.stays s) : s.reloaded.bindings.Keeps C.keeps C.stays := by
  unfold Machine.reloaded
  split_ifs with hreload
  · exact h.disk
  · exact h.bindings (by simpa using hreload)

lemma held_beginIntent {i : StopIntent} (h : Held C.keeps C.stays w.1) :
    Held C.keeps C.stays (beginIntent w i).1 ∧
      (beginIntent w i).1.bindings.Keeps C.keeps C.stays := by
  have hbindings := keeps_reloaded h
  refine ⟨⟨?_, fun _ => hbindings, ?_⟩, hbindings⟩
  · change w.1.reloaded.disk.Keeps C.keeps C.stays
    unfold Machine.reloaded
    split_ifs <;> exact h.disk
  · refine writing_setIntent ?_ ?_
    · unfold Machine.reloaded
      split_ifs <;> exact h.writing
    · rintro before next ⟨⟩
      exact Sound.intended hbindings

lemma held_endIntent {i : StopIntent} {before next : Registry} {outcome : Outcome}
    (h : Held C.keeps C.stays w.1) (hnext : next.Keeps C.keeps C.stays)
    (hend : endIntent accepts w i before next outcome = some w') : Held C.keeps C.stays w'.1 ∧
      (w.1.bindings.Keeps C.keeps C.stays → w'.1.bindings.Keeps C.keeps C.stays) := by
  have hdone {failure : Option String} : ∀ before next,
      IntentPhase.done failure = .writing before next → next.Keeps C.keeps C.stays :=
    fun _ _ h => nomatch h
  rcases endIntent_cases hend with ⟨-, rfl⟩ | ⟨message, rfl⟩ | ⟨message, -, rfl⟩
  · exact ⟨⟨hnext, fun _ => hnext, writing_setIntent h.writing hdone⟩, fun _ => hnext⟩
  · exact ⟨⟨h.disk, fun h => (by cases h), writing_setIntent h.writing hdone⟩, id⟩
  · exact ⟨⟨hnext, fun h => (by cases h), writing_setIntent h.writing hdone⟩, id⟩

lemma held_event (h : Held C.keeps C.stays w.1) (hevent : w.event accepts l = some w') :
    Held C.keeps C.stays w'.1 ∧
      (w.1.bindings.Keeps C.keeps C.stays → w'.1.bindings.Keeps C.keeps C.stays) := by
  rcases World.event_cases hevent with hsame | ⟨i, -, -, -, -, rfl⟩ |
    ⟨i, -, message, -, -, -, rfl⟩ | ⟨i, hi, before, next, outcome, hphase, -, hend⟩
  · refine ⟨⟨hsame.disk ▸ h.disk, ?_, fun i hi before next hphase => ?_⟩,
      fun hb => hsame.bindings ▸ hb⟩
    · rw [hsame.reloadRequired, hsame.bindings]
      exact h.bindings
    · rcases hsame.intents i hi with hi | ⟨hwaiting, -⟩
      · exact h.writing i hi before next hphase
      · rw [hwaiting] at hphase
        cases hphase
  · exact ⟨(held_beginIntent h).1, fun _ => (held_beginIntent h).2⟩
  · exact ⟨⟨h.disk, h.bindings, writing_setIntent h.writing fun _ _ h => nomatch h⟩, id⟩
  · exact held_endIntent (w := (w.1, { w.2 with intentWritten := true })) h
      (h.writing i hi before next hphase) hend

/-- After every event the command in its turn is where it was, and what was marked still is. -/
lemma progress_event (hevent : w.event accepts l = some w') :
    w'.1.progress = w.1.progress ∧ w'.1.marked = w.1.marked ∧
      ∀ id ∈ w.1.underWay, id ∈ w'.1.underWay := by
  rcases World.event_cases hevent with hsame | ⟨i, -, -, -, -, rfl⟩ |
    ⟨i, -, message, -, -, -, rfl⟩ | ⟨i, -, before, next, outcome, -, -, hend⟩
  · exact ⟨hsame.progress, hsame.marked, hsame.underWay⟩
  · simp only [beginIntent, Machine.setIntent, Machine.reloaded]
    split_ifs <;> exact ⟨rfl, rfl, fun _ => id⟩
  · exact ⟨rfl, rfl, fun _ => id⟩
  · rcases endIntent_cases hend with ⟨-, rfl⟩ | ⟨_, rfl⟩ | ⟨_, -, rfl⟩ <;>
      exact ⟨rfl, rfl, fun _ => id⟩

lemma Loose.event (h : C.Loose w.1) (hevent : w.event accepts l = some w')
    (hstage : C.stage w'.1) : C.Loose w'.1 :=
  ⟨(held_event h.held hevent).1, hstage, (progress_event hevent).1 ▸ h.calm⟩

lemma Sound.event (h : C.Sound w.1) (hevent : w.event accepts l = some w')
    (hstage : C.stage w'.1) : C.Sound w'.1 :=
  ⟨h.toLoose.event hevent hstage, (held_event h.held hevent).2 h.bindings⟩

end Beside

end Concern

lemma wp_assertMutable {c : Context World Reply} {Q : Except SupervisorError Unit → World → Prop}
    {w : World} (hrefused : w.1.paused → Q (.error .launchesPaused) w)
    (hlet : w.1.paused = false → Q (.ok ()) w) : wp c assertMutable.lift Q w := by
  change wp c (if w.1.paused then throw .launchesPaused else pure () : Op Unit).lift Q w
  by_cases hp : w.1.paused
  · rw [if_pos hp]
    exact hrefused hp
  · rw [if_neg hp]
    exact hlet (by simpa using hp)

/-! ### Turns -/

section Rules

variable {c : Context World Reply} {Q Q' : Except SupervisorError Unit → World → Prop} {w : World}

lemma wp_letIn {sequence : Nat} {work : Op Unit}
    (hrefused : w.1.paused → Q (.error .launchesPaused) w)
    (hlet : w.1.paused = false → c.guar w (w.1, w.2.decide sequence) ∧
      wp c work.lift Q (w.1, w.2.decide sequence)) : wp c (admitted sequence work) Q w := by
  unfold admitted
  rw [wp_bind]
  refine wp_assertMutable hrefused fun hpaused => ?_
  rw [either_ok, wp_bind, onWatch, wp_update]
  exact hlet hpaused

lemma wp_failsLate {operation : LifecycleOperation} {ids : Machine → List String}
    {deadline : Option Nat} {work : Turn Unit} (h : wp c work Q' w)
    (hok : ∀ w', Q' (.ok ()) w' → Q (.ok ()) w') (herror : ∀ e w', Q' (.error e) w' →
      c.guar w' (w'.1.failedAfterAnswer operation operation.name (ids w'.1) deadline e, w'.2) ∧
      Q (.error e) (w'.1.failedAfterAnswer operation operation.name (ids w'.1) deadline e, w'.2)) :
    wp c (reportLate operation ids deadline work) Q w := by
  unfold reportLate
  rw [wp_tryCatch]
  refine wp_mono ?_ h
  rintro (e | _) w' hw'
  · rw [either_error, wp_bind, onMachine, wp_update]
    exact herror e w' hw'
  · exact hok w' hw'

lemma wp_ends {sequence : Nat} {finish : Machine → Machine} {work : Turn Unit} (h : wp c work Q' w)
    (hok : ∀ w', Q' (.ok ()) w' → c.guar w' (finish w'.1, w'.2) ∧ Q (.ok ()) (finish w'.1, w'.2))
    (herror : ∀ e w', Q' (.error e) w' → c.guar w' (finish w'.1, w'.2) ∧
      c.guar (finish w'.1, w'.2) (finish w'.1, { w'.2.decide sequence with
        rejected := (sequence, e) :: w'.2.rejected }) ∧
      Q (.ok ()) (finish w'.1, { w'.2.decide sequence with
        rejected := (sequence, e) :: w'.2.rejected })) :
    wp c (answered sequence (work.andFinally (onMachine finish))) Q w := by
  unfold answered
  rw [wp_tryCatch, wp_andFinally]
  refine wp_mono ?_ h
  rintro (e | _) w' hw'
  · obtain ⟨hfinish, hrejected⟩ := herror e w' hw'
    exact ⟨hfinish, hrejected⟩
  · exact hok w' hw'

end Rules

/-- The registries, the intents and the records of them are as they were. -/
structure Indifferent (w w' : World) : Prop where
  bindings : w'.1.bindings = w.1.bindings := by rfl
  disk : w'.1.disk = w.1.disk := by rfl
  reloadRequired : w'.1.reloadRequired = w.1.reloadRequired := by rfl
  intents : w'.1.intents = w.1.intents := by rfl
  paused : w'.1.paused = w.1.paused := by rfl
  calm : w.1.progress.Calm → w'.1.progress.Calm := by exact id
  writes : w'.2.writes = w.2.writes := by rfl
  recorded : w'.2.recorded = w.2.recorded := by rfl
  granted : w'.2.granted = w.2.granted := by rfl

lemma Indifferent.of_same {w w' : World}
    (h : (w'.1.bindings, w'.1.disk, w'.1.reloadRequired, w'.1.intents, w'.1.paused,
        w'.1.progress.refused, w'.1.progress.superseded, w'.2.writes, w'.2.recorded, w'.2.granted) =
      (w.1.bindings, w.1.disk, w.1.reloadRequired, w.1.intents, w.1.paused, w.1.progress.refused,
        w.1.progress.superseded, w.2.writes, w.2.recorded, w.2.granted)) : Indifferent w w' := by
  simp only [Prod.mk.injEq] at h
  obtain ⟨hbindings, hdisk, hreload, hintents, hpaused, hrefused, hsuperseded, hwrites, hrecorded,
    hgranted⟩ := h
  exact ⟨hbindings, hdisk, hreload, hintents, hpaused, .of_same (Prod.ext hrefused hsuperseded),
    hwrites, hrecorded, hgranted⟩

lemma indifferent_beginTurn (w : World) (marks : List String) :
    Indifferent w (w.1.beginTurn marks, w.2) :=
  { calm := fun _ => Progress.init_calm }

lemma indifferent_finish (c : Command) (w : World) : Indifferent w (c.finish w.1, w.2) := by
  unfold Command.finish
  split_ifs <;> exact .of_same rfl

lemma indifferent_failedAfterAnswer (w : World) (operation : LifecycleOperation) (name : String)
    (ids : List String) (deadline : Option Nat) (e : SupervisorError) :
    Indifferent w (w.1.failedAfterAnswer operation name ids deadline e, w.2) := by
  unfold Machine.failedAfterAnswer
  split
  · split_ifs <;> exact .of_same rfl
  · exact .of_same rfl

section Turns

variable {c : Context World Reply} {K : World → Prop}
  (hturn : ∀ w w', Indifferent w w' → K w → c.guar w w' ∧ K w')
include hturn

variable {sequence : Nat}

lemma wp_reportedTurn {operation : LifecycleOperation}
    {ids : Machine → List String} {deadline : Option Nat} {work : Op Unit} {w : World} (h : K w)
    (hwork : ∀ w, K w → w.1.paused = false → wp c work.lift (fun _ => K) w) :
    wp c (reportLate operation ids deadline (admitted sequence work)) (fun _ => K) w := by
  have hadmitted : wp c (admitted sequence work) (fun _ => K) w := by
    refine wp_letIn (fun _ => h) fun hpaused => ?_
    have hdecided := hturn w (w.1, w.2.decide sequence) (.of_same rfl) h
    exact ⟨hdecided.1, hwork _ hdecided.2 hpaused⟩
  refine wp_failsLate hadmitted (fun _ hw' => hw') fun e w' hw' => ?_
  exact hturn _ _ (indifferent_failedAfterAnswer w' _ _ _ _ _) hw'

lemma wp_answeredTurn {finish : Machine → Machine} {work : Turn Unit} {w : World}
    (h : wp c work (fun _ => K) w) (hfinish : ∀ w : World, Indifferent w (finish w.1, w.2)) :
    wp c (answered sequence (work.andFinally (onMachine finish))) (fun _ => K) w := by
  refine wp_ends h (fun w' hw' => hturn _ _ (hfinish w') hw') fun e w' hw' => ?_
  have hfinished := hturn _ _ (hfinish w') hw'
  exact ⟨hfinished.1, hturn _ _ (.of_same rfl) hfinished.2⟩

lemma wp_commandTurn {command : Command} {w : World} (h : K w)
    (hintent : ∀ w, K w → wp c (awaitIntent command).lift (fun _ => K) w)
    (hwork : ∀ w, K w → w.1.paused = false → wp c (runCommand command).lift (fun _ => K) w) :
    wp c (body (.command command)) (fun _ => K) w := by
  have hbegun := hturn _ _ (indifferent_beginTurn w command.marks) h
  rw [body, wp_bind, onMachine, wp_update]
  refine ⟨hbegun.1, wp_answeredTurn hturn ?_ (indifferent_finish command)⟩
  unfold commandWork
  rw [wp_bind]
  refine wp_mono ?_ (hintent _ hbegun.2)
  rintro (e | _) w' hw'
  · exact hw'
  · exact wp_reportedTurn hturn hw' hwork

lemma wp_configureTurn {config : DaemonConfig} {deadline : Option Nat} {w : World} (h : K w)
    (hwork : ∀ w, K w → w.1.paused = false → wp c (runConfigure config).lift (fun _ => K) w) :
    wp c (body (.configure config sequence deadline)) (fun _ => K) w := by
  have hbegun := hturn _ _ (indifferent_beginTurn w [config.workspaceId]) h
  rw [body, wp_bind, onMachine, wp_update]
  exact ⟨hbegun.1, wp_answeredTurn hturn (wp_reportedTurn hturn hbegun.2 hwork) fun _ => (.of_same rfl)⟩

end Turns

end Coforge.Supervisor
