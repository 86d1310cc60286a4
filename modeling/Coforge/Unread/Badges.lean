import Mathlib

/-!
# Unread badges of the sidebar

The counts that the sidebar shows, and the sequence through which each has counted. An event counts
a message past that sequence; a list read and a read cursor that moved set the count that the server
made, and leave the sequence where it is.
-/

namespace Coforge.Unread

/-- The keys of a record of counts: a conversation's badge, and its `:seq`. -/
inductive BadgeKey where
  | count (conversationId : String)
  | boundary (conversationId : String)
deriving DecidableEq

abbrev UnreadCounts := BadgeKey → Option Nat

structure UnreadChannel where
  id : String
  unreadCount : Option Nat
deriving DecidableEq

/-- What a badge shows. -/
def badge (current : UnreadCounts) (conversationId : String) : Nat :=
  (current (.count conversationId)).getD 0

def highWater (current : UnreadCounts) (conversationId : String) : Nat :=
  (current (.boundary conversationId)).getD 0

def seedEntry (next : UnreadCounts) (entry : UnreadChannel) : UnreadCounts :=
  if 0 < entry.unreadCount.getD 0 then
    Function.update next (.count entry.id) entry.unreadCount
  else next

/-- Seeds local state from the server's list payload. -/
def seedUnreadCounts (entries : List UnreadChannel) : UnreadCounts :=
  entries.foldl seedEntry fun _ => none

structure UnreadEventInput where
  conversationId : String
  sequence : Nat
  threadRootId : Option String
  agentId : Option String
  peerUserId : Option String
  senderUserId : Option String
deriving DecidableEq

structure UnreadOptions where
  openConversationId : Option String
  conversations : List String
  viewerId : Option String
deriving DecidableEq

def isOwnMessage (event : UnreadEventInput) (viewerId : Option String) : Bool :=
  viewerId.isSome && event.senderUserId = viewerId

/-- The event belongs to a thread: its root is given, and is not empty. -/
def UnreadEventInput.inThread (event : UnreadEventInput) : Bool := event.threadRootId.any (· ≠ "")

/-- The event names the Agent or the member on the other side. -/
def UnreadEventInput.direct (event : UnreadEventInput) : Bool :=
  event.agentId.isSome || event.peerUserId.isSome

/-- The event passes every check, so it moves the high-water mark. -/
def applies (current : UnreadCounts) (event : UnreadEventInput) (options : UnreadOptions) : Bool :=
  some event.conversationId ≠ options.openConversationId && !event.inThread &&
    (event.direct || event.conversationId ∈ options.conversations) &&
    highWater current event.conversationId < event.sequence

/-- Applies one `message.available.v1` event. -/
def applyUnreadEvent (current : UnreadCounts) (event : UnreadEventInput) (options : UnreadOptions) :
    UnreadCounts :=
  let key := event.conversationId
  if some key = options.openConversationId then current
  else if event.inThread then current
  else if !event.direct && key ∉ options.conversations then current
  else if event.sequence ≤ highWater current key then current
  else if isOwnMessage event options.viewerId then
    Function.update current (.boundary key) (some event.sequence)
  else
    Function.update (Function.update current (.boundary key) (some event.sequence))
      (.count key) (some (badge current key + 1))

/-- A conversation was read: clear its badge and remember the boundary it was read to. -/
def clearUnread (current : UnreadCounts) (key : String) (readThroughSequence : Option Nat) :
    UnreadCounts :=
  let boundary := readThroughSequence <|> current (.boundary key)
  let next := Function.update current (.count key) none
  match boundary with
  | some boundary =>
    if highWater next key < boundary then Function.update next (.boundary key) (some boundary)
    else next
  | none => next

/-- A viewer event that moved a read cursor, carrying the count it left. -/
structure MarkedEvent where
  conversationId : String
  unreadCount : Nat
deriving DecidableEq

def applyMarked (current : UnreadCounts) (event : MarkedEvent)
    (openConversationId : Option String) : UnreadCounts :=
  let key := event.conversationId
  if some key = openConversationId then current
  else if badge current key = event.unreadCount then current
  else if 0 < event.unreadCount then
    Function.update current (.count key) (some event.unreadCount)
  else Function.update current (.count key) none

/-- The boundaries of the entries, as `replaceUnreadCounts` keeps them. -/
def boundariesOf (current : UnreadCounts) (entries : List UnreadChannel) : UnreadCounts
  | .count _ => none
  | .boundary id => if id ∈ entries.map UnreadChannel.id then current (.boundary id) else none

/-- An entry, with the live count in place of its own where that is kept. -/
def keptEntry (current : UnreadCounts) (keepIds : List String) (entry : UnreadChannel) :
    UnreadChannel :=
  if entry.id ∈ keepIds then { entry with unreadCount := some (badge current entry.id) } else entry

def hide (seeded : UnreadCounts) (key : String) : UnreadCounts :=
  Function.update seeded (.count key) none

/-- A loader refresh replaced the server's own counts. -/
def replaceUnreadCounts (current : UnreadCounts) (entries : List UnreadChannel)
    (suppressKeys keepIds : List String) : UnreadCounts :=
  let boundaries := boundariesOf current entries
  let seeded := seedUnreadCounts (entries.map (keptEntry current keepIds))
  let shown := suppressKeys.foldl hide seeded
  fun key => boundaries key <|> shown key

/-- One list's rows as last seeded, and when the server sent them. -/
structure SeededList where
  readAt : Nat
  rows : List UnreadChannel
deriving DecidableEq

/-- The count that `rows` give a conversation, the last one where it has several. -/
def countIn (rows : List UnreadChannel) (id : String) : Option Nat :=
  (rows.reverse.find? fun row => row.id = id).map fun row => row.unreadCount.getD 0

/-- The conversations whose live count a re-seed keeps. -/
def unreadIdsToKeep (lists : List SeededList) (last : Option (List SeededList)) : List String :=
  lists.zipIdx.flatMap fun (list, index) =>
    match (last.getD [])[index]? with
    | none => []
    | some before =>
      if before.readAt ≠ list.readAt then []
      else (list.rows.filter fun row =>
        countIn before.rows row.id = some (row.unreadCount.getD 0)).map UnreadChannel.id

/-! ### What each update does to a badge -/

section Lemmas

variable {current : UnreadCounts} {event : UnreadEventInput} {options : UnreadOptions} {c : String}

/-- An event that does not apply changes nothing; one that does moves the high-water mark, and
counts unless the viewer wrote the message. -/
lemma applyUnreadEvent_eq : applyUnreadEvent current event options =
      if applies current event options then if isOwnMessage event options.viewerId then
          Function.update current (.boundary event.conversationId) (some event.sequence) else
          Function.update
            (Function.update current (.boundary event.conversationId) (some event.sequence))
            (.count event.conversationId) (some (badge current event.conversationId + 1))
      else current := by
  by_cases hopen : some event.conversationId = options.openConversationId
  · simp [applyUnreadEvent, applies, hopen]
  by_cases hthread : event.inThread
  · simp [applyUnreadEvent, applies, hthread]
  by_cases hseen : event.sequence ≤ highWater current event.conversationId
  · simp [applyUnreadEvent, applies, hseen, Nat.not_lt.mpr hseen]
  have hnew : highWater current event.conversationId < event.sequence := Nat.lt_of_not_le hseen
  cases hdirect : event.direct with
  | true => simp [applyUnreadEvent, applies, hopen, hthread, hdirect, hseen, hnew]
  | false =>
    by_cases hlisted : event.conversationId ∈ options.conversations
    · simp [applyUnreadEvent, applies, hopen, hthread, hlisted, hseen, hnew]
    · simp [applyUnreadEvent, applies, hdirect, hlisted]

lemma badge_applyUnreadEvent : badge (applyUnreadEvent current event options) c =
      if event.conversationId = c ∧ applies current event options ∧
          !isOwnMessage event options.viewerId then badge current c + 1 else badge current c := by
  rw [applyUnreadEvent_eq]
  by_cases hc : event.conversationId = c
  · subst hc
    split_ifs with happlies hown hcounts <;> simp_all [badge]
  · have hne : c ≠ event.conversationId := Ne.symm hc
    split_ifs <;> simp_all [badge]

lemma highWater_applyUnreadEvent : highWater (applyUnreadEvent current event options) c =
      if event.conversationId = c ∧ applies current event options then event.sequence
      else highWater current c := by
  rw [applyUnreadEvent_eq]
  by_cases hc : event.conversationId = c
  · subst hc
    split_ifs <;> simp_all [highWater]
  · have hne : c ≠ event.conversationId := Ne.symm hc
    split_ifs <;> simp_all [highWater]

lemma badge_applyMarked {event : MarkedEvent} {openConversationId : Option String}
    (hopen : openConversationId ≠ some c) : badge (applyMarked current event openConversationId) c =
      if event.conversationId = c then event.unreadCount else badge current c := by
  simp only [applyMarked]
  by_cases hc : event.conversationId = c
  · subst hc
    rw [if_pos rfl, if_neg (Ne.symm hopen)]
    split_ifs with hsame hpos
    · exact hsame
    · simp [badge]
    · rw [Nat.eq_zero_of_not_pos hpos]
      simp [badge]
  · have hne : c ≠ event.conversationId := Ne.symm hc
    rw [if_neg hc]
    split_ifs <;> simp [badge, hne]

lemma highWater_applyMarked {event : MarkedEvent} {openConversationId : Option String} :
    highWater (applyMarked current event openConversationId) c = highWater current c := by
  simp only [applyMarked]
  split_ifs <;> simp [highWater]

lemma badge_clearUnread {key : String} {through : Option Nat} (hkey : key ≠ c) :
    badge (clearUnread current key through) c = badge current c := by
  simp only [clearUnread]
  split
  · split_ifs <;> simp [badge, Ne.symm hkey]
  · simp [badge, Ne.symm hkey]

lemma highWater_clearUnread {key : String} {through : Option Nat} (hkey : key ≠ c) :
    highWater (clearUnread current key through) c = highWater current c := by
  simp only [clearUnread]
  split
  · split_ifs <;> simp [highWater, Ne.symm hkey]
  · simp [highWater]

lemma foldl_seedEntry_boundary (entries : List UnreadChannel) (next : UnreadCounts) :
    entries.foldl seedEntry next (.boundary c) = next (.boundary c) := by
  induction entries generalizing next with
  | nil => rfl
  | cons entry entries ih =>
    rw [List.foldl_cons, ih, seedEntry]
    split_ifs <;> simp

variable {entries : List UnreadChannel}

lemma badge_foldl_seedEntry {next : UnreadCounts} {n : Nat}
    (hrows : ∀ entry ∈ entries, entry.id = c → entry.unreadCount.getD 0 = n) :
    badge (entries.foldl seedEntry next) c =
      if c ∈ entries.map UnreadChannel.id ∧ 0 < n then n else badge next c := by
  induction entries generalizing next with
  | nil => simp
  | cons entry entries ih =>
    rw [List.foldl_cons, ih fun row hrow => hrows row (List.mem_cons_of_mem entry hrow)]
    by_cases hmem : c ∈ entries.map UnreadChannel.id ∧ 0 < n
    · have hmem' : c ∈ (entry :: entries).map UnreadChannel.id ∧ 0 < n :=
        ⟨List.mem_cons_of_mem _ hmem.1, hmem.2⟩
      rw [if_pos hmem, if_pos hmem']
    · rw [if_neg hmem, seedEntry]
      by_cases hc : entry.id = c
      · subst hc
        have hn := hrows entry List.mem_cons_self rfl
        rw [hn]
        by_cases hpos : 0 < n
        · simp [badge, hpos, hn]
        · simp [hpos]
      · have hne : c ≠ entry.id := Ne.symm hc
        have hiff : (c ∈ (entry :: entries).map UnreadChannel.id ∧ 0 < n) ↔
            c ∈ entries.map UnreadChannel.id ∧ 0 < n := by
          rw [List.map_cons, List.mem_cons, or_iff_right hne]
        rw [if_neg (mt hiff.mp hmem)]
        split_ifs <;> simp [badge, hne]

variable {suppressKeys : List String}

lemma foldl_hide {seeded : UnreadCounts} {key : BadgeKey}
    (hkey : ∀ k ∈ suppressKeys, key ≠ .count k) : suppressKeys.foldl hide seeded key = seeded key := by
  induction suppressKeys generalizing seeded with
  | nil => rfl
  | cons k ks ih =>
    rw [List.foldl_cons, ih fun k' hk' => hkey k' (List.mem_cons_of_mem k hk'), hide,
      Function.update_of_ne (hkey k List.mem_cons_self)]

lemma highWater_replaceUnreadCounts {keepIds : List String}
    (hlisted : c ∈ entries.map UnreadChannel.id) :
    highWater (replaceUnreadCounts current entries suppressKeys keepIds) c = highWater current c := by
  have hshown : suppressKeys.foldl hide
      (seedUnreadCounts (entries.map (keptEntry current keepIds))) (.boundary c) = none := by
    rw [foldl_hide (by simp), seedUnreadCounts, foldl_seedEntry_boundary]
  have hboundary : boundariesOf current entries (.boundary c) = current (.boundary c) :=
    if_pos hlisted
  simp [highWater, replaceUnreadCounts, hshown, hboundary]

/-- A re-seed gives a listed conversation the count of its row, unless it keeps the live one. -/
lemma badge_replaceUnreadCounts {keepIds : List String}
    {n : Nat} (hlisted : c ∈ entries.map UnreadChannel.id) (hshown : c ∉ suppressKeys)
    (hrows : c ∉ keepIds → ∀ entry ∈ entries, entry.id = c → entry.unreadCount.getD 0 = n) :
    badge (replaceUnreadCounts current entries suppressKeys keepIds) c =
      if c ∈ keepIds then badge current c else n := by
  have hid : ∀ entry, (keptEntry current keepIds entry).id = entry.id := by
    intro entry
    rw [keptEntry]
    split_ifs <;> rfl
  have hlisted' : c ∈ (entries.map (keptEntry current keepIds)).map UnreadChannel.id := by
    rw [List.map_map]
    obtain ⟨entry, hentry, rfl⟩ := List.mem_map.mp hlisted
    exact List.mem_map.mpr ⟨entry, hentry, hid entry⟩
  have hkept : ∀ entry ∈ entries.map (keptEntry current keepIds), entry.id = c →
      entry.unreadCount.getD 0 = if c ∈ keepIds then badge current c else n := by
    intro kept hkept hc
    obtain ⟨entry, hentry, rfl⟩ := List.mem_map.mp hkept
    rw [hid] at hc
    subst hc
    rw [keptEntry]
    split_ifs with hkeep
    · rfl
    · exact hrows hkeep entry hentry rfl
  have hseeded := @badge_foldl_seedEntry c _ (fun _ => none) _ hkept
  have hbadge : badge (replaceUnreadCounts current entries suppressKeys keepIds) c =
      badge (seedUnreadCounts (entries.map (keptEntry current keepIds))) c := by
    have hcount : boundariesOf current entries (.count c) = none := rfl
    have hhide : suppressKeys.foldl hide
        (seedUnreadCounts (entries.map (keptEntry current keepIds))) (.count c) =
          seedUnreadCounts (entries.map (keptEntry current keepIds)) (.count c) :=
      foldl_hide fun k hk h => hshown (BadgeKey.count.inj h ▸ hk)
    simp [badge, replaceUnreadCounts, hcount, hhide]
  rw [hbadge, seedUnreadCounts, hseeded]
  by_cases hpos : 0 < if c ∈ keepIds then badge current c else n
  · rw [if_pos ⟨hlisted', hpos⟩]
  · rw [if_neg fun h => hpos h.2, Nat.eq_zero_of_not_pos hpos]
    rfl

end Lemmas

end Coforge.Unread
