import Coforge.Lib.Keyed

/-!
# Publications held while a ready handshake waits

The buffer is one table in the order of arrival. A publication that nothing supersedes stands under
a number of its own, and the latest intent of an Agent and kind under the key of both, where the
newer one takes the later place. Notices are numbered up to the cap; past it each Agent has one key
for them, and the notice that is replaced there is counted as dropped.
-/

namespace Coforge.Connection

open Keyed

variable {α : Type*}

/-- How many delivery notices a held buffer keeps before it keeps only each Agent's latest. -/
def heldNoticeCap : ℕ := 500

inductive Intent
  | start
  | stop
  | probe
  deriving DecidableEq, Repr

def Intent.text : Intent → String
  | start => "start"
  | stop  => "stop"
  | probe => "probe"

def itemKey (n : ℕ) : String := "#" ++ toString n

def agentKey (agentId kind : String) : String := agentId ++ ":" ++ kind

structure HeldPublications (α : Type*) where
  noticeCap : ℕ
  held      : List (String × α)
  next      : ℕ
  notices   : ℕ
  dropped   : ℕ

structure Taken (α : Type*) where
  items   : List α
  dropped : ℕ
  deriving DecidableEq, Repr

namespace HeldPublications

def create (noticeCap : ℕ) : HeldPublications α := ⟨noticeCap, [], 0, 0, 0⟩

/-- Holds an Agent's latest item of a kind, in the newer arrival's place; also whether it replaced
an earlier one. -/
def replace (b : HeldPublications α) (agentId kind : String) (item : α) :
    Bool × HeldPublications α :=
  let key := agentKey agentId kind
  ((find Prod.fst key b.held).isSome,
    { b with held := put Prod.fst (key, item) (drop Prod.fst key b.held) })

def latestFor (b : HeldPublications α) (agentId : String) (kind : Intent) (item : α) :
    HeldPublications α :=
  (b.replace agentId kind.text item).2

def add (b : HeldPublications α) (item : α) : HeldPublications α :=
  { b with held := put Prod.fst (itemKey b.next, item) b.held, next := b.next + 1 }

def notice (b : HeldPublications α) (agentId : String) (item : α) : HeldPublications α :=
  if b.notices < b.noticeCap then
    { b with notices := b.notices + 1 }.add item
  else
    let (replaced, b') := b.replace agentId "notice" item
    if replaced then { b' with dropped := b'.dropped + 1 } else b'

def take (b : HeldPublications α) : Taken α × HeldPublications α :=
  (⟨b.held.map Prod.snd, b.dropped⟩, { b with held := [], notices := 0, dropped := 0 })

end HeldPublications

/-! ### Calls -/

inductive Call (α : Type*)
  | add (item : α)
  | latestFor (agentId : String) (kind : Intent) (item : α)
  | notice (agentId : String) (item : α)

namespace Call

def item : Call α → α
  | add item           => item
  | latestFor _ _ item => item
  | notice _ item      => item

def isNotice : Call α → Bool
  | notice _ _ => true
  | _          => false

def isNoticeOf (agentId : String) : Call α → Bool
  | notice agentId' _ => agentId' = agentId
  | _                 => false

def isLatestFor (agentId : String) (kind : Intent) : Call α → Bool
  | latestFor agentId' kind' _ => agentId' = agentId ∧ kind' = kind
  | _                          => false

end Call

namespace HeldPublications

def call (b : HeldPublications α) : Call α → HeldPublications α
  | .add item                    => b.add item
  | .latestFor agentId kind item => b.latestFor agentId kind item
  | .notice agentId item         => b.notice agentId item

def run (b : HeldPublications α) (calls : List (Call α)) : HeldPublications α := calls.foldl call b

/-- A buffer after rounds of calls, each of which ended with a `take`. -/
def takes (b : HeldPublications α) (rounds : List (List (Call α))) : HeldPublications α :=
  rounds.foldl (fun b calls => (b.run calls).take.2) b

end HeldPublications

/-! ### What a buffer is for -/

/-- Whether a call between others survives: an added publication always, an intent when it is the
last of its Agent and kind, and a notice when it is among the first up to the cap or the last of
its Agent. -/
def survives (cap : ℕ) (earlier : List (Call α)) (later : List (Call α)) : Call α → Bool
  | .add _                    => true
  | .latestFor agentId kind _ => !later.any (Call.isLatestFor agentId kind)
  | .notice agentId _         =>
      earlier.countP Call.isNotice < cap || !later.any (Call.isNoticeOf agentId)

/-- The surviving calls, in their order. -/
def kept (cap : ℕ) (earlier : List (Call α)) : List (Call α) → List (Call α)
  | []         => []
  | c :: later =>
      if survives cap earlier later c then c :: kept cap (earlier ++ [c]) later
      else kept cap (earlier ++ [c]) later

/-! ### Keys -/

lemma itemKey_inj {m n : ℕ} (h : itemKey m = itemKey n) : m = n := numbered_injective "#" h

lemma toList_agentKey (agentId kind : String) :
    (agentKey agentId kind).toList = agentId.toList ++ ':' :: kind.toList := by
  simp [agentKey]

lemma itemKey_ne_agentKey (n : ℕ) (agentId kind : String) : itemKey n ≠ agentKey agentId kind := by
  intro h
  have hmem : ':' ∈ (itemKey n).toList := by
    rw [h, toList_agentKey]
    simp
  rcases List.mem_cons.mp (show ':' ∈ '#' :: Nat.toDigits 10 n by simpa [itemKey] using hmem)
    with hsharp | hdigit
  · exact absurd hsharp (by decide)
  · exact absurd (Nat.isDigit_of_mem_toDigits (by decide) (by decide) hdigit) (by decide)

lemma cut_inj {c : Char} {x x' z z' : List Char} (hx : c ∉ x) (hx' : c ∉ x')
    (h : x ++ c :: z = x' ++ c :: z') : x = x' ∧ z = z' := by
  induction x generalizing x' with
  | nil =>
    cases x' with
    | nil => exact ⟨rfl, List.tail_eq_of_cons_eq h⟩
    | cons d x' => exact absurd (List.head_eq_of_cons_eq h) (List.ne_of_not_mem_cons hx')
  | cons d x ih =>
    cases x' with
    | nil => exact absurd (List.head_eq_of_cons_eq h).symm (List.ne_of_not_mem_cons hx)
    | cons d' x' =>
      obtain ⟨hd, htail⟩ := List.cons_eq_cons.mp h
      obtain ⟨hxs, hz⟩ := ih (List.not_mem_of_not_mem_cons hx)
        (List.not_mem_of_not_mem_cons hx') htail
      exact ⟨by rw [hd, hxs], hz⟩

variable {a a' : String}

lemma agentKey_inj {k k' : String} (hk : ':' ∉ k.toList) (hk' : ':' ∉ k'.toList)
    (h : agentKey a k = agentKey a' k') : a = a' ∧ k = k' := by
  have hrev := congrArg (fun s => s.toList.reverse) h
  simp only [toList_agentKey, List.reverse_append, List.reverse_cons, List.append_assoc,
    List.singleton_append] at hrev
  obtain ⟨hkind, hagent⟩ := cut_inj (by rwa [List.mem_reverse]) (by rwa [List.mem_reverse]) hrev
  exact ⟨String.toList_inj.mp (List.reverse_inj.mp hagent),
    String.toList_inj.mp (List.reverse_inj.mp hkind)⟩

lemma colon_notMem_text (kind : Intent) : ':' ∉ kind.text.toList := by
  cases kind <;> decide

lemma Intent.text_inj {kind kind' : Intent} (h : kind.text = kind'.text) : kind = kind' := by
  cases kind <;> cases kind' <;> first | rfl | exact absurd h (by decide)

lemma intentKey_inj {kind kind' : Intent} :
    agentKey a kind.text = agentKey a' kind'.text ↔ a = a' ∧ kind = kind' := by
  constructor
  · intro h
    exact (agentKey_inj (colon_notMem_text kind) (colon_notMem_text kind') h).imp_right
      Intent.text_inj
  · rintro ⟨rfl, rfl⟩
    rfl

lemma noticeKey_inj : agentKey a "notice" = agentKey a' "notice" ↔ a = a' := by
  refine ⟨fun h => (agentKey_inj (by decide) (by decide) h).1, ?_⟩
  rintro rfl
  rfl

lemma intentKey_ne_noticeKey (a a' : String) (kind : Intent) :
    agentKey a kind.text ≠ agentKey a' "notice" := by
  intro h
  have htext := (agentKey_inj (colon_notMem_text kind) (by decide) h).2
  cases kind <;> exact absurd htext (by decide)

/-! ### The arrivals and their keys -/

namespace HeldPublications

/-- The key that a call gives its item. -/
def keyOf (b : HeldPublications α) : Call α → String
  | .add _                    => itemKey b.next
  | .latestFor agentId kind _ => agentKey agentId kind.text
  | .notice agentId _         =>
      if b.notices < b.noticeCap then itemKey b.next else agentKey agentId "notice"

/-- The calls with the keys they were given. -/
def arrivals (b : HeldPublications α) : List (Call α) → List (String × Call α)
  | []      => []
  | c :: cs => (b.keyOf c, c) :: (b.call c).arrivals cs

lemma arrivals_append (b : HeldPublications α) (cs cs' : List (Call α)) :
    b.arrivals (cs ++ cs') = b.arrivals cs ++ (b.run cs).arrivals cs' := by
  induction cs generalizing b with
  | nil => rfl
  | cons c cs ih => rw [List.cons_append, arrivals, arrivals, ih, List.cons_append]; rfl

/-- No item stands under a number that has not been given yet. -/
def Numbered (b : HeldPublications α) : Prop :=
  ∀ n, b.next ≤ n → itemKey n ∉ b.held.map Prod.fst

variable {b : HeldPublications α}

lemma notice_of_lt (h : b.notices < b.noticeCap) (agentId : String)
    (item : α) : b.notice agentId item = { b with notices := b.notices + 1 }.add item := if_pos h

lemma notice_of_not_lt (h : ¬ b.notices < b.noticeCap) (agentId : String)
    (item : α) : b.notice agentId item = { b with
        held := put Prod.fst (agentKey agentId "notice", item)
          (drop Prod.fst (agentKey agentId "notice") b.held)
        dropped := b.dropped +
          if (find Prod.fst (agentKey agentId "notice") b.held).isSome then 1 else 0 } := by
  rw [notice, if_neg h]
  by_cases hfound : (find Prod.fst (agentKey agentId "notice") b.held).isSome
  · rw [if_pos hfound]
    exact if_pos hfound
  · rw [if_neg hfound]
    exact if_neg hfound

lemma keyOf_notice_of_lt (h : b.notices < b.noticeCap) (agentId : String)
    (item : α) : b.keyOf (.notice agentId item) = itemKey b.next := if_pos h

lemma keyOf_notice_of_not_lt (h : ¬ b.notices < b.noticeCap) (agentId : String) (item : α) :
    b.keyOf (.notice agentId item) = agentKey agentId "notice" := if_neg h

lemma call_noticeCap (b : HeldPublications α) (c : Call α) :
    (b.call c).noticeCap = b.noticeCap := by
  cases c with
  | add item => rfl
  | latestFor agentId kind item => rfl
  | notice agentId item =>
    rw [call]
    by_cases hcap : b.notices < b.noticeCap
    · rw [notice_of_lt hcap]
      rfl
    · rw [notice_of_not_lt hcap]

lemma call_notices (b : HeldPublications α) (c : Call α) : (b.call c).notices =
      if c.isNotice ∧ b.notices < b.noticeCap then b.notices + 1 else b.notices := by
  cases c with
  | add item => rfl
  | latestFor agentId kind item => rfl
  | notice agentId item =>
    rw [call]
    by_cases hcap : b.notices < b.noticeCap
    · rw [notice_of_lt hcap]
      exact (if_pos ⟨rfl, hcap⟩).symm
    · rw [notice_of_not_lt hcap]
      exact (if_neg fun h => hcap h.2).symm

lemma call_next (b : HeldPublications α) (c : Call α) :
    (b.call c).next = if b.keyOf c = itemKey b.next then b.next + 1 else b.next := by
  cases c with
  | add item => exact (if_pos rfl).symm
  | latestFor agentId kind item => exact (if_neg (itemKey_ne_agentKey _ _ _).symm).symm
  | notice agentId item =>
    rw [call]
    by_cases hcap : b.notices < b.noticeCap
    · rw [notice_of_lt hcap, if_pos (keyOf_notice_of_lt hcap agentId item)]
      rfl
    · rw [notice_of_not_lt hcap, keyOf_notice_of_not_lt hcap]
      exact (if_neg (itemKey_ne_agentKey _ _ _).symm).symm

lemma call_held (hb : b.Numbered) (c : Call α) :
    (b.call c).held = drop Prod.fst (b.keyOf c) b.held ++ [(b.keyOf c, c.item)] := by
  have hadd (item : α) : put Prod.fst (itemKey b.next, item) b.held =
      drop Prod.fst (itemKey b.next) b.held ++ [(itemKey b.next, item)] := by
    rw [put_eq_append (hb b.next le_rfl), drop_eq_self (hb b.next le_rfl)]
  have hreplace (key : String) (item : α) : put Prod.fst (key, item) (drop Prod.fst key b.held) =
      drop Prod.fst key b.held ++ [(key, item)] := put_eq_append notMem_keys_drop
  cases c with
  | add item => exact hadd item
  | latestFor agentId kind item => exact hreplace _ item
  | notice agentId item =>
    rw [call]
    by_cases hcap : b.notices < b.noticeCap
    · rw [notice_of_lt hcap, keyOf_notice_of_lt hcap]
      exact hadd item
    · rw [notice_of_not_lt hcap, keyOf_notice_of_not_lt hcap]
      exact hreplace _ item

/-- Only the notice of an Agent that has one past the cap already is counted as dropped. -/
lemma call_dropped (b : HeldPublications α) (c : Call α) :
    (b.call c).dropped = b.dropped + if c.isNotice ∧ ¬ b.notices < b.noticeCap ∧
      (find Prod.fst (b.keyOf c) b.held).isSome then 1 else 0 := by
  cases c with
  | add item => rfl
  | latestFor agentId kind item => rfl
  | notice agentId item =>
    rw [call]
    by_cases hcap : b.notices < b.noticeCap
    · rw [notice_of_lt hcap, if_neg fun h => h.2.1 hcap]
      rfl
    · rw [notice_of_not_lt hcap, keyOf_notice_of_not_lt hcap]
      simp only [Call.isNotice, hcap, not_false_eq_true, true_and]

variable {c : Call α}

lemma keyOf_eq_itemKey {n : ℕ} (h : b.keyOf c = itemKey n) : n = b.next := by
  cases c with
  | add item => exact (itemKey_inj h).symm
  | latestFor agentId kind item => exact absurd h.symm (itemKey_ne_agentKey _ _ _)
  | notice agentId item =>
    by_cases hcap : b.notices < b.noticeCap
    · rw [keyOf_notice_of_lt hcap] at h
      exact (itemKey_inj h).symm
    · rw [keyOf_notice_of_not_lt hcap] at h
      exact absurd h.symm (itemKey_ne_agentKey _ _ _)

lemma le_call_next (b : HeldPublications α) (c : Call α) : b.next ≤ (b.call c).next := by
  rw [call_next]
  split_ifs
  · exact Nat.le_succ _
  · exact le_rfl

lemma Numbered.call (hb : b.Numbered) (c : Call α) : (b.call c).Numbered := by
  intro n hn hmem
  rw [call_held hb, List.map_append, List.mem_append] at hmem
  rcases hmem with hmem | hmem
  · obtain ⟨entry, hentry, heq⟩ := List.mem_map.mp hmem
    exact hb n ((le_call_next b c).trans hn)
      (List.mem_map.mpr ⟨entry, List.mem_of_mem_filter hentry, heq⟩)
  · have hkey : b.keyOf c = itemKey n := (List.mem_singleton.mp hmem).symm
    obtain rfl := keyOf_eq_itemKey hkey
    rw [call_next, if_pos hkey] at hn
    omega

/-! ### Runs -/

variable {cs : List (Call α)}

/-- Entries under the key of an Agent's notices are notices, and those under the key of an intent
are not. -/
lemma isNotice_of_mem_arrivals {key : String} (h : (key, c) ∈ b.arrivals cs) :
    (∀ agentId, key = agentKey agentId "notice" → c.isNotice = true) ∧
      ∀ agentId kind, key = agentKey agentId (Intent.text kind) → c.isNotice = false := by
  induction cs generalizing b with
  | nil => cases h
  | cons d cs ih =>
    rcases List.mem_cons.mp h with heq | h
    · obtain ⟨rfl, rfl⟩ := Prod.mk.inj heq
      cases c with
      | add item => exact ⟨fun a ha => absurd ha (itemKey_ne_agentKey _ _ _), fun _ _ _ => rfl⟩
      | latestFor agentId kind item =>
        exact ⟨fun a ha => absurd ha (intentKey_ne_noticeKey _ _ _), fun _ _ _ => rfl⟩
      | notice agentId item =>
        refine ⟨fun _ _ => rfl, fun a kind ha => ?_⟩
        by_cases hcap : b.notices < b.noticeCap
        · rw [keyOf_notice_of_lt hcap] at ha
          exact absurd ha (itemKey_ne_agentKey _ _ _)
        · rw [keyOf_notice_of_not_lt hcap] at ha
          exact absurd ha.symm (intentKey_ne_noticeKey _ _ _)
    · exact ih h

/-- What a run from an empty buffer holds and has dropped. -/
structure Accounts (cs : List (Call α)) (entries : List (String × Call α))
    (b : HeldPublications α) : Prop where
  numbered : b.Numbered
  held     : b.held = (latest Prod.fst entries).map fun x => (x.1, x.2.item)
  count    : (latest Prod.fst entries).countP (fun x => x.2.isNotice) + b.dropped =
    cs.countP Call.isNotice

lemma Accounts.keys {entries : List (String × Call α)} (h : Accounts cs entries b) :
    b.held.map Prod.fst = (latest Prod.fst entries).map Prod.fst := by
  rw [h.held, List.map_map]
  rfl

lemma Accounts.dropped {b₀ : HeldPublications α} (h : Accounts cs (b₀.arrivals cs) b) (c : Call α) :
    (drop Prod.fst (b.keyOf c) (latest Prod.fst (b₀.arrivals cs))).countP
        (fun x => x.2.isNotice) + (b.call c).dropped =
      (latest Prod.fst (b₀.arrivals cs)).countP (fun x => x.2.isNotice) + b.dropped := by
  have hnew (n : ℕ) (hn : b.next ≤ n) :
      drop Prod.fst (itemKey n) (latest Prod.fst (b₀.arrivals cs)) =
        latest Prod.fst (b₀.arrivals cs) := drop_eq_self (h.keys ▸ h.numbered n hn)
  have hmem {x : String × Call α} (hx : x ∈ latest Prod.fst (b₀.arrivals cs)) :
      (x.1, x.2) ∈ b₀.arrivals cs := mem_of_mem_latest hx
  rw [call_dropped]
  cases c with
  | add item => rw [keyOf, hnew b.next le_rfl, if_neg (by simp [Call.isNotice])]; rfl
  | latestFor agentId kind item =>
    rw [keyOf, countP_drop_of_false _ fun x hx hk =>
      (isNotice_of_mem_arrivals (hmem hx)).2 agentId kind hk, if_neg (by simp [Call.isNotice])]
    rfl
  | notice agentId item =>
    by_cases hcap : b.notices < b.noticeCap
    · rw [keyOf_notice_of_lt hcap, hnew b.next le_rfl, if_neg fun h => h.2.1 hcap]
      rfl
    · rw [keyOf_notice_of_not_lt hcap, ← countP_drop _ (nodup_keys_latest _) fun x hx hk =>
        (isNotice_of_mem_arrivals (hmem hx)).1 agentId hk]
      simp only [Call.isNotice, hcap, not_false_eq_true, true_and, isSome_find, h.keys]
      omega

lemma accounts_run (hheld : b.held = []) (hdropped : b.dropped = 0)
    (cs : List (Call α)) : Accounts cs (b.arrivals cs) (b.run cs) := by
  induction cs using List.reverseRecOn with
  | nil =>
    refine ⟨fun n _ => ?_, hheld, ?_⟩
    · rw [run, List.foldl_nil, hheld]
      exact List.not_mem_nil
    · rw [run, List.foldl_nil, hdropped]
      rfl
  | append_singleton cs c ih =>
    have hentries : b.arrivals (cs ++ [c]) = b.arrivals cs ++ [((b.run cs).keyOf c, c)] :=
      arrivals_append b cs [c]
    have hrun : b.run (cs ++ [c]) = (b.run cs).call c := List.foldl_concat _ _ _ _
    rw [hentries, hrun]
    refine ⟨ih.numbered.call c, ?_, ?_⟩
    · rw [call_held ih.numbered, ih.held, latest_concat, List.map_append, drop, drop,
        List.filter_map]
      rfl
    · have hdrop := ih.dropped c
      have hcount := ih.count
      rw [latest_concat, List.countP_append, List.countP_append, List.countP_singleton,
        List.countP_singleton]
      dsimp only at hdrop ⊢
      omega

/-! ### Which calls survive -/

lemma le_of_itemKey_mem {n : ℕ} (h : itemKey n ∈ (b.arrivals cs).map Prod.fst) : b.next ≤ n := by
  induction cs generalizing b with
  | nil => cases h
  | cons c cs ih =>
    rcases List.mem_cons.mp h with hkey | h
    · exact (keyOf_eq_itemKey hkey.symm).ge
    · exact (le_call_next b c).trans (ih h)

lemma intentKey_mem {agentId : String}
    {kind : Intent} : agentKey agentId kind.text ∈ (b.arrivals cs).map Prod.fst ↔
      cs.any (Call.isLatestFor agentId kind) = true := by
  have hkey (b : HeldPublications α) (c : Call α) :
      agentKey agentId kind.text = b.keyOf c ↔ c.isLatestFor agentId kind = true := by
    cases c with
    | add item => exact iff_of_false (itemKey_ne_agentKey _ _ _).symm Bool.false_ne_true
    | latestFor agentId' kind' item =>
      rw [keyOf, Call.isLatestFor, decide_eq_true_iff, eq_comm, intentKey_inj]
    | notice agentId' item =>
      refine iff_of_false ?_ Bool.false_ne_true
      by_cases hcap : b.notices < b.noticeCap
      · rw [keyOf_notice_of_lt hcap]
        exact (itemKey_ne_agentKey _ _ _).symm
      · rw [keyOf_notice_of_not_lt hcap]
        exact intentKey_ne_noticeKey _ _ _
  induction cs generalizing b with
  | nil => simp [arrivals]
  | cons c cs ih =>
    rw [arrivals, List.map_cons, List.mem_cons, List.any_cons, Bool.or_eq_true]
    exact or_congr (hkey b c) ih

lemma not_lt_call (h : ¬ b.notices < b.noticeCap) (c : Call α) :
    ¬ (b.call c).notices < (b.call c).noticeCap := by
  rw [call_noticeCap, call_notices, if_neg fun hc => h hc.2]
  exact h

lemma noticeKey_mem (hcap : ¬ b.notices < b.noticeCap) {agentId : String} :
    agentKey agentId "notice" ∈ (b.arrivals cs).map Prod.fst ↔
      cs.any (Call.isNoticeOf agentId) = true := by
  induction cs generalizing b with
  | nil => simp [arrivals]
  | cons c cs ih =>
    have hkey : agentKey agentId "notice" = b.keyOf c ↔ c.isNoticeOf agentId = true := by
      cases c with
      | add item => exact iff_of_false (itemKey_ne_agentKey _ _ _).symm Bool.false_ne_true
      | latestFor agentId' kind item =>
        exact iff_of_false (intentKey_ne_noticeKey _ _ _).symm Bool.false_ne_true
      | notice agentId' item =>
        rw [keyOf_notice_of_not_lt hcap, Call.isNoticeOf, decide_eq_true_iff, eq_comm,
          noticeKey_inj]
    rw [arrivals, List.map_cons, List.mem_cons, hkey, ih (not_lt_call hcap c), List.any_cons,
      Bool.or_eq_true]

lemma survives_iff {earlier later : List (Call α)}
    (hb : b.notices = min b.noticeCap (earlier.countP Call.isNotice)) :
    survives b.noticeCap earlier later c = true ↔
      b.keyOf c ∉ ((b.call c).arrivals later).map Prod.fst := by
  have hlt : b.notices < b.noticeCap ↔ earlier.countP Call.isNotice < b.noticeCap := by omega
  have hnew (h : b.keyOf c = itemKey b.next) :
      b.keyOf c ∉ ((b.call c).arrivals later).map Prod.fst := by
    intro hmem
    rw [h] at hmem
    have hle := le_of_itemKey_mem hmem
    rw [call_next, if_pos h] at hle
    omega
  cases c with
  | add item => exact iff_of_true rfl (hnew rfl)
  | latestFor agentId kind item =>
    rw [survives, Bool.not_eq_true', ← Bool.not_eq_true, keyOf, intentKey_mem]
  | notice agentId item =>
    rw [survives, Bool.or_eq_true, decide_eq_true_iff, ← hlt]
    by_cases hcap : b.notices < b.noticeCap
    · exact iff_of_true (Or.inl hcap) (hnew (keyOf_notice_of_lt hcap agentId item))
    · rw [keyOf_notice_of_not_lt hcap, noticeKey_mem (not_lt_call hcap _),
        or_iff_right hcap, Bool.not_eq_true', Bool.not_eq_true]

lemma map_snd_latest {earlier : List (Call α)} (cs : List (Call α))
    (hb : b.notices = min b.noticeCap (earlier.countP Call.isNotice)) :
    (latest Prod.fst (b.arrivals cs)).map Prod.snd = kept b.noticeCap earlier cs := by
  induction cs generalizing b earlier with
  | nil => rfl
  | cons c later ih =>
    have hnext : (b.call c).notices =
        min (b.call c).noticeCap ((earlier ++ [c]).countP Call.isNotice) := by
      rw [call_notices, call_noticeCap, List.countP_append, List.countP_singleton]
      by_cases hnotice : c.isNotice = true
      · rw [if_pos hnotice]
        split_ifs with hlt <;> simp only [hnotice, true_and] at hlt <;> omega
      · rw [if_neg hnotice, if_neg fun h => hnotice h.1, Nat.add_zero, hb]
    have htail := ih hnext
    rw [call_noticeCap] at htail
    rw [arrivals, latest, kept]
    by_cases hmem : b.keyOf c ∈ ((b.call c).arrivals later).map Prod.fst
    · rw [if_pos hmem, if_neg fun h => (survives_iff hb).mp h hmem, htail]
    · rw [if_neg hmem, if_pos ((survives_iff hb).mpr hmem), List.map_cons, htail]

lemma run_noticeCap (b : HeldPublications α) (cs : List (Call α)) :
    (b.run cs).noticeCap = b.noticeCap := by
  induction cs generalizing b with
  | nil => rfl
  | cons c cs ih => exact (ih (b.call c)).trans (call_noticeCap b c)

/-- What a `take` gives back after calls on an empty buffer. -/
lemma take_run (hheld : b.held = []) (hnotices : b.notices = 0)
    (hdropped : b.dropped = 0) (cs : List (Call α)) :
    (b.run cs).take.1.items = (kept b.noticeCap [] cs).map Call.item ∧
      (kept b.noticeCap [] cs).countP Call.isNotice + (b.run cs).take.1.dropped =
        cs.countP Call.isNotice := by
  have hrun := accounts_run hheld hdropped cs
  have hkept : (latest Prod.fst (b.arrivals cs)).map Prod.snd = kept b.noticeCap [] cs :=
    map_snd_latest cs (by rw [hnotices]; simp)
  constructor
  · rw [← hkept, List.map_map, take, hrun.held, List.map_map]
    rfl
  · rw [← hkept, List.countP_map]
    exact hrun.count

lemma takes_empty (cap : ℕ) (rounds : List (List (Call α))) :
    ((create cap : HeldPublications α).takes rounds).held = [] ∧
      ((create cap : HeldPublications α).takes rounds).notices = 0 ∧
      ((create cap : HeldPublications α).takes rounds).dropped = 0 ∧
      ((create cap : HeldPublications α).takes rounds).noticeCap = cap := by
  induction rounds using List.reverseRecOn with
  | nil => exact ⟨rfl, rfl, rfl, rfl⟩
  | append_singleton rounds cs ih =>
    have htakes : (create cap : HeldPublications α).takes (rounds ++ [cs]) =
        (((create cap : HeldPublications α).takes rounds).run cs).take.2 :=
      List.foldl_concat _ _ _ _
    rw [htakes]
    refine ⟨rfl, rfl, rfl, ?_⟩
    exact (run_noticeCap _ cs).trans ih.2.2.2

/-- In every round a `take` returns exactly what survives, in the order of arrival, the notices
among it and the dropped ones are all that were given, and a second `take` returns nothing. -/
theorem take_kept (cap : ℕ) (rounds : List (List (Call α))) (calls : List (Call α)) :
    let b := ((create cap).takes rounds).run calls
    b.take.1.items = (kept cap [] calls).map Call.item ∧
      (kept cap [] calls).countP Call.isNotice + b.take.1.dropped = calls.countP Call.isNotice ∧
      b.take.2.take.1 = ⟨[], 0⟩ := by
  obtain ⟨hheld, hnotices, hdropped, hcap⟩ := takes_empty cap rounds
  have htake := take_run hheld hnotices hdropped calls
  rw [hcap] at htake
  exact ⟨htake.1, htake.2, rfl⟩

/-- Past the cap of two, Agent `a` keeps its latest notice only. -/
example : (((create 2).run [.notice "a" 1, .notice "a" 2, .notice "a" 3, .notice "a" 4,
    .notice "b" 5]).take).1 = (⟨[1, 2, 4, 5], 1⟩ : Taken ℕ) := by decide

end HeldPublications

end Coforge.Connection
