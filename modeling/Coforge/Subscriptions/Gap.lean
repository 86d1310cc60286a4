import Coforge.Lib.Stream

/-!
# What a subscribe may have missed

A page reads its lists and subscribes to the signal channels that keep them live, in any order. A
list read carries where the channel's stream stood before its data was read, and a subscription
knows where it stands; `rereadMissedBySubscribe` compares the two and reads a list again where they
cannot show that nothing lies between.

`mem_rereadMissedBySubscribe` says that this is enough: whatever was published before the
subscription started, never reached the page and is not in the list once its read has settled has
the list read again. What the server of the streams promises is in the fields of `ServerRead` and
`Subscribe`.
-/

namespace Coforge.Subscriptions

abbrev StreamPosition := Stream.Position String

/-- Stream positions by channel name. -/
abbrev StreamPositions := String → Option StreamPosition

/-! ### Positions -/

/-- A read may lack what the subscription will never deliver. -/
def streamMovedSince : Option StreamPosition → Option StreamPosition → Bool
  | some read, some subscribed =>
    if read.epoch ≠ subscribed.epoch then true else read.offset < subscribed.offset
  | _, _ => true

/-- Where a list of two reads stands in each channel: the older place, if both are of one epoch. -/
def olderStreamPositions (left right : StreamPositions) : StreamPositions := fun channel =>
  (left channel).bind fun first => (right channel).bind fun second =>
    if second.epoch = first.epoch then some (if first.offset ≤ second.offset then first else second)
    else none

/-- The flags of a `subscribed` event. -/
structure SubscribedRecovery where
  wasRecovering : Bool
  recovered : Bool
  deriving DecidableEq, Repr

inductive SubscriptionGap where
  | unrecovered | lost | none
  deriving DecidableEq, Repr

def subscriptionGap (recovery : SubscribedRecovery) : SubscriptionGap :=
  if !recovery.wasRecovering then .unrecovered else if recovery.recovered then .none else .lost

/-- Where a subscription stands after a delivery, which may have no offset. -/
def movedOn (position : Option StreamPosition) (offset : Option Nat) : Option StreamPosition :=
  position.map fun p =>
    match offset with
    | some offset => if p.offset < offset then ⟨offset, p.epoch⟩ else p
    | none        => p

/-- Where a subscription stands after its deliveries. -/
def standing (start : Option StreamPosition) (delivered : List (Option Nat)) :
    Option StreamPosition :=
  delivered.foldl movedOn start

/-! ### Lists and signals -/

inductive ChatList where
  | channels | dms | channelNames | saved
  deriving DecidableEq, Repr

inductive SignalChannel where
  | workspace | user
  deriving DecidableEq, Repr

inductive ViewerEvent where
  | channelMarked | dmMarked
  | channelJoined | channelLeft | channelClosed | channelOpened
  | dmCreated | dmOpened | dmClosed
  | savedAdded | savedRemoved
  | mutedChanged | pinsChanged
  deriving DecidableEq, Repr

/-- The lists that the page reads again for a viewer event. A moved read cursor carries its count,
so it needs none. -/
def sidebarListsChangedBy : ViewerEvent → List ChatList
  | .channelMarked | .dmMarked        => []
  | .savedAdded | .savedRemoved       => [.saved]
  | .pinsChanged                      => [.channels, .dms]
  | .mutedChanged                     => [.channels]
  | .dmCreated | .dmOpened | .dmClosed => [.dms]
  | _                                 => [.channels]

/-- What is published on the two signal channels. -/
inductive Signal where
  | channelCreated | channelUpdated | channelMessage | directMessage
  | viewer (event : ViewerEvent)
  deriving DecidableEq, Repr

def Signal.channel : Signal → SignalChannel
  | .channelCreated | .channelUpdated | .channelMessage => .workspace
  | .directMessage | .viewer _                          => .user

/-- The lists that lack something without a signal. -/
def Signal.changes : Signal → List ChatList
  | .channelCreated | .channelUpdated => [.channels, .channelNames]
  | .channelMessage                   => [.channels]
  | .directMessage                    => [.dms]
  | .viewer .channelMarked            => [.channels]
  | .viewer .dmMarked                 => [.dms]
  | .viewer event                     => sidebarListsChangedBy event

/-- The lists that a signal channel keeps live. -/
def keptLive : SignalChannel → List ChatList
  | .workspace => [.channels, .channelNames]
  | .user      => [.channels, .dms, .saved]

def listsMissedBySubscribe (channel : SignalChannel) (recovery : SubscribedRecovery) :
    List ChatList :=
  if subscriptionGap recovery = .none then [] else keptLive channel

/-! ### Reading again -/

/-- What asking for a list's position comes to: no answer at all, or one that settles, perhaps
never. -/
inductive ReadPosition where
  | absent
  | pending
  | settled (position : Option StreamPosition)
  deriving DecidableEq, Repr

/-- The lists that are read again; `position` is where the subscription stands once the read of a
list has settled. -/
def rereadMissedBySubscribe (channel : SignalChannel) (recovery : SubscribedRecovery)
    (readPosition : ChatList → ReadPosition) (position : ChatList → Option StreamPosition) :
    List ChatList :=
  let lists := listsMissedBySubscribe channel recovery
  if subscriptionGap recovery ≠ .unrecovered then lists
  else
    let unpositioned := lists.filter fun list => readPosition list = .absent
    let moved := lists.filter fun list =>
      match readPosition list with
      | .settled read => streamMovedSince read (position list)
      | _             => false
    unpositioned ++ moved

/-! ### The server and the page -/

/-- One read of the server: the position of the channel's stream is taken before the data, and what
was published was written before. -/
structure ServerRead (t : Stream.Timeline String) (channel : String) where
  positionTime : Nat
  dataTime : Nat
  ordered : positionTime ≤ dataTime
  positions : StreamPositions
  position_top : ∀ p, positions channel = some p → p = t.top positionTime
  reflects : Nat → Prop
  written : ∀ x < dataTime, reflects x

/-- A list is built from one read or from two. -/
inductive ListRead (t : Stream.Timeline String) (channel : String) where
  | one (read : ServerRead t channel)
  | two (left right : ServerRead t channel)

/-- A subscription of the page: where it starts, and what published before never reached the page.
A recovered one missed nothing. -/
structure Subscribe (t : Stream.Timeline String) where
  recovery : SubscribedRecovery
  startTime : Nat
  start : Option StreamPosition
  start_top : ∀ p, start = some p → p = t.top startTime
  missed : Nat → Prop
  replayed : recovery.wasRecovering → recovery.recovered → ∀ x < startTime, ¬ missed x

section Page

variable {t : Stream.Timeline String} {channel : String}

def ListRead.positions : ListRead t channel → StreamPositions
  | .one read       => read.positions
  | .two left right => olderStreamPositions left.positions right.positions

/-- The list lacks what either of its reads did. -/
def ListRead.Reflects (x : Nat) : ListRead t channel → Prop
  | .one read       => read.reflects x
  | .two left right => left.reflects x ∧ right.reflects x

/-- The Query of a list: whether a read of it is under way, and what the last one brought. -/
structure CachedList (t : Stream.Timeline String) (channel : String) where
  reading : Bool
  data : Option (ListRead t channel)

def CachedList.Reflects (c : CachedList t channel) (x : Nat) : Prop :=
  ∃ read, c.data = some read ∧ read.Reflects x

/-- The first state of a Query with no read under way, from now on. -/
def readSettled (now : CachedList t channel) (later : List (CachedList t channel)) :
    Option (CachedList t channel) :=
  (now :: later).find? fun c => !c.reading

/-- Where a list's last read stands, once no read is under way. -/
def listReadPosition (now : CachedList t channel) (later : List (CachedList t channel)) :
    ReadPosition :=
  (readSettled now later).elim .pending fun c =>
    .settled (c.data.bind fun read => read.positions channel)

end Page

/-! ### Nothing is missed -/

section Missed

variable {t : Stream.Timeline String} {channel : String} {signal : Signal} {list : ChatList}

lemma mem_listsMissedBySubscribe {recovery : SubscribedRecovery} (h : list ∈ signal.changes)
    (hgap : subscriptionGap recovery ≠ .none) :
    list ∈ listsMissedBySubscribe signal.channel recovery := by
  rw [listsMissedBySubscribe, if_neg hgap]
  cases signal with
  | viewer event => cases event <;> revert list <;> decide
  | _ => revert list; decide

lemma standing_spec {start : Option StreamPosition} {delivered : List (Option Nat)}
    {p : StreamPosition} (h : standing start delivered = some p) :
    ∃ first, start = some first ∧ p.epoch = first.epoch ∧ first.offset ≤ p.offset := by
  induction delivered generalizing start with
  | nil => exact ⟨p, h, rfl, le_refl _⟩
  | cons offset delivered ih =>
    obtain ⟨next, hnext, hepoch, hle⟩ := ih h
    obtain ⟨first, hfirst, rfl⟩ := Option.map_eq_some_iff.mp hnext
    refine ⟨first, hfirst, ?_, ?_⟩
    · rw [hepoch]
      cases offset with
      | none => rfl
      | some offset =>
        simp only
        split_ifs <;> rfl
    · refine le_trans ?_ hle
      cases offset with
      | none => exact le_refl _
      | some offset =>
        simp only
        split_ifs with hlt
        · exact hlt.le
        · exact le_refl _

lemma ServerRead.positionTime_le (r : ServerRead t channel) {x : Nat} (h : ¬ r.reflects x) :
    r.positionTime ≤ x := by
  refine r.ordered.trans ?_
  by_contra hlt
  exact h (r.written x (by omega))

lemma olderStreamPositions_spec {left right : StreamPositions} {p : StreamPosition}
    (h : olderStreamPositions left right channel = some p) : ∃ first second,
      left channel = some first ∧ right channel = some second ∧
        (p.epoch = first.epoch ∧ p.offset ≤ first.offset) ∧
          p.epoch = second.epoch ∧ p.offset ≤ second.offset := by
  obtain ⟨first, hfirst, h⟩ := Option.bind_eq_some_iff.mp h
  obtain ⟨second, hsecond, h⟩ := Option.bind_eq_some_iff.mp h
  refine ⟨first, second, hfirst, hsecond, ?_⟩
  by_cases hepoch : second.epoch = first.epoch
  · rw [if_pos hepoch] at h
    cases h
    split_ifs with hle
    · exact ⟨⟨rfl, le_refl _⟩, hepoch.symm, hle⟩
    · exact ⟨⟨hepoch, (not_le.mp hle).le⟩, rfl, le_refl _⟩
  · rw [if_neg hepoch] at h
    cases h

lemma ListRead.position_le {read : ListRead t channel} {x : Nat} (h : ¬ read.Reflects x)
    {p : StreamPosition} (hp : read.positions channel = some p) :
    ∃ time ≤ x, (t.top time).epoch = p.epoch ∧ p.offset ≤ (t.top time).offset := by
  cases read with
  | one read =>
    obtain rfl := read.position_top p hp
    exact ⟨read.positionTime, read.positionTime_le h, rfl, le_refl _⟩
  | two left right =>
    obtain ⟨first, second, hfirst, hsecond, hleft, hright⟩ := olderStreamPositions_spec hp
    obtain rfl := left.position_top first hfirst
    obtain rfl := right.position_top second hsecond
    rcases not_and_or.mp h with hlacks | hlacks
    · exact ⟨left.positionTime, left.positionTime_le hlacks, hleft.1.symm, hleft.2⟩
    · exact ⟨right.positionTime, right.positionTime_le hlacks, hright.1.symm, hright.2⟩

/-- A list that lacks what was published before the subscription started stands behind it. -/
lemma streamMovedSince_of_lacks (s : Subscribe t) {x offset : Nat}
    (hpublished : t.events[x]? = some (.published offset)) (hbefore : x < s.startTime)
    {c : CachedList t channel} (hlacks : ¬ c.Reflects x) (delivered : List (Option Nat)) :
    streamMovedSince (c.data.bind fun read => read.positions channel)
      (standing s.start delivered) = true := by
  rcases hread : c.data.bind fun read => read.positions channel with _ | p
  · rfl
  rcases hnow : standing s.start delivered with _ | q
  · rfl
  obtain ⟨read, hdata, hp⟩ := Option.bind_eq_some_iff.mp hread
  obtain ⟨first, hstart, hepoch, hle⟩ := standing_spec hnow
  obtain ⟨time, htime, hsame, hpast⟩ := ListRead.position_le (fun h => hlacks ⟨read, hdata, h⟩) hp
  obtain rfl := s.start_top first hstart
  rw [streamMovedSince]
  split_ifs with hother
  · rfl
  · rw [not_not] at hother
    have hlt := Stream.Timeline.offset_lt_of_published hpublished htime hbefore
      (hsame.trans (hother.trans hepoch))
    exact decide_eq_true (by omega)

/-- Whatever a channel published before a subscription of it started, never reached the page and is
not in a list that it changes, once the list's read has settled, has the list read again. -/
theorem mem_rereadMissedBySubscribe (hchanges : list ∈ signal.changes) (s : Subscribe t)
    {x offset : Nat} (hpublished : t.events[x]? = some (.published offset))
    (hbefore : x < s.startTime) (hmissed : s.missed x) {now c : CachedList t channel}
    {later : List (CachedList t channel)} (hsettled : readSettled now later = some c)
    (hlacks : ¬ c.Reflects x) {readPosition : ChatList → ReadPosition}
    (hread : readPosition list = .absent ∨ readPosition list = listReadPosition now later)
    (delivered : ChatList → List (Option Nat)) :
    list ∈ rereadMissedBySubscribe signal.channel s.recovery readPosition
      fun list => standing s.start (delivered list) := by
  have hgap : subscriptionGap s.recovery ≠ .none := by
    intro hnone
    rw [subscriptionGap] at hnone
    split_ifs at hnone with hfirst hrecovered
    exact s.replayed (by simpa using hfirst) hrecovered x hbefore hmissed
  have hmem := mem_listsMissedBySubscribe hchanges hgap
  simp only [rereadMissedBySubscribe]
  by_cases hfirst : subscriptionGap s.recovery = .unrecovered
  · rw [if_neg (not_not.mpr hfirst), List.mem_append, List.mem_filter, List.mem_filter]
    rcases hread with habsent | hposition
    · exact Or.inl ⟨hmem, decide_eq_true habsent⟩
    · refine Or.inr ⟨hmem, ?_⟩
      rw [hposition, listReadPosition, hsettled]
      exact streamMovedSince_of_lacks s hpublished hbefore hlacks (delivered list)
  · rw [if_pos hfirst]
    exact hmem

end Missed

/-! ### A message between the read and the subscribe -/

/-- A stream with one publication. -/
def onePublication : Stream.Timeline String where
  start := ⟨0, "e"⟩
  events := [.published 1]
  grows n offset h := by
    obtain ⟨rfl, heq⟩ : n = 0 ∧ Stream.Event.published 1 = .published offset := by
      cases n with
      | zero => exact ⟨rfl, Option.some.inj h⟩
      | succ n => cases h
    cases heq
    exact Nat.zero_lt_one
  fresh n epoch h := by
    cases n with
    | zero => cases Option.some.inj h
    | succ n => cases h

/-- A first subscribe after it. -/
def firstSubscribe : Subscribe onePublication where
  recovery := ⟨false, false⟩
  startTime := 1
  start := some ⟨1, "e"⟩
  start_top p hp := Option.some.inj hp.symm
  missed _ := True
  replayed h := by cases h

/-- A read that came before it. -/
def earlyRead : ServerRead onePublication "user" where
  positionTime := 0
  dataTime := 0
  ordered := Nat.le_refl 0
  positions _ := some ⟨0, "e"⟩
  position_top _ hp := Option.some.inj hp.symm
  reflects _ := False
  written x hx := absurd hx (Nat.not_lt_zero x)

/-- The direct messages, read before one arrived, are read again once the read has settled. -/
theorem mem_rereadMissedBySubscribe_dms : .dms ∈ rereadMissedBySubscribe .user ⟨false, false⟩
      (fun _ => listReadPosition (⟨true, none⟩ : CachedList onePublication "user")
        [⟨false, some (.one earlyRead)⟩]) fun _ => some ⟨1, "e"⟩ := by
  have hlacks : ¬ (⟨false, some (.one earlyRead)⟩ : CachedList onePublication "user").Reflects 0 := by
    rintro ⟨read, hread, hreflects⟩
    cases hread
    exact hreflects
  exact @mem_rereadMissedBySubscribe onePublication "user" .directMessage .dms (by decide)
    firstSubscribe 0 1 rfl Nat.zero_lt_one trivial _ _ _ rfl hlacks _ (Or.inr rfl) fun _ => []

end Coforge.Subscriptions
