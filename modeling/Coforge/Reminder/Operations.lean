import Coforge.Reminder.Interleaving

/-!
# The operations of the reminder scheduler

One rule for each operation: from a state that keeps the invariant it reaches only such states at
its awaits and at its end, whatever the events do meanwhile and whatever the file answers. `Sound`
is what three of the operations need of an answer: the copies that `#restore` and the operation of
a receipt timer take back must not undo an accepted wake, and the read that tells `#prepareDue`
whether there is a receipt already must not fail.
-/

namespace Coforge.Reminder

open Keyed Async Prog ReminderReceipt Transition

namespace Scheduler

variable {E : Setting} {on : Watch} {s t u : Scheduler E} {key : ReceiptKey} {ref : Ref}
  {task : Task}

/-! ### The file -/

/-- What an operation needs of an answer of the file. -/
def Sound (on : Watch) (task : Task) (e : StoreCall) (s : Scheduler E) (r : StoreReply e) : Prop :=
  match task, e, r with
  | .apply _, .read, .ok _ =>
    on.wakes → ∀ x ∈ s.stored.receipts, s.Over x.key → x.live = false
  | .receiptDue key true _, .read, .ok _ =>
    on.wakes → ∀ x ∈ s.stored.receipts, x.key = key → s.Over key → x.live = false
  | .prepareDue job, .read, .error _ =>
    on.fires → s.receipts (job.reminderId, job.version) ≠ none
  | _, _, _ => True

variable {rs : List ReminderReceipt}

lemma sound_write {r : StoreReply (.write rs)} : Sound on task (.write rs) s r := by
  cases task with
  | receiptDue key proceed after => cases proceed <;> trivial
  | _ => trivial

def context (on : Watch) (task : Task) : Context (Scheduler E) StoreReply where
  rely s t := Kept on s → Kept on t ∧ Aside s t
  answer e s r t := (∃ o, answer e o s = some (r, t)) ∧ Sound on task e s r
  guar _ _ := True
  issue _ s := Kept on s

lemma wp_readReceipts {Q : Except String (List ReminderReceipt) → Scheduler E → Prop}
    (hs : Kept on s)
    (hok : ∀ t, Kept on t → Aside s t → Sound on task .read t (.ok t.stored.receipts) →
      Q (.ok t.stored.receipts) t)
    (herror : ∀ t e, Kept on t → Aside s t → Sound on task .read t (.error e) → Q (.error e) t) :
    wp (context on task) readReceipts Q s := by
  rw [readReceipts, wp_bind, wp_request]
  refine ⟨hs, ?_⟩
  rintro t hrely r t' ⟨⟨o, hanswer⟩, hsound⟩
  obtain ⟨ht, haside⟩ := hrely hs
  refine ⟨trivial, ?_⟩
  rw [either_ok, wp_ofExcept]
  cases o <;> cases hanswer
  · exact hok t ht haside hsound
  · exact herror t _ ht haside hsound
  · exact herror t _ ht haside hsound

/-- A receipt that may be written while the map and the log are what they are. -/
def Writable (on : Watch) (s : Scheduler E) (rs : List ReminderReceipt) : Prop :=
  on.fires → ∀ r ∈ rs, r ∈ s.stored.receipts ∨ s.Approved r

variable {r : ReminderReceipt}

lemma Aside.approved (h : Aside s t) (hr : s.Approved r) : t.Approved r := by
  intro hlive id hid
  exact hr hlive id ((h.last _).symm.trans hid)

lemma Writable.aside (hrs : s.Writable on rs) (h : Aside s t) : t.Writable on rs := by
  intro hon r hr
  rw [h.stored]
  exact (hrs hon r hr).imp_right h.approved

lemma written_land (rs : List ReminderReceipt) (h : E.storable rs) : Written s (s.land rs h) :=
  ⟨⟨Nat.le_refl _, fun _ _ => Ages.refl _, fun _ _ h _ => h, id, fun _ => rfl⟩, rfl, rfl⟩

/-- What is true of a state before a write and of one after it, that a receipt may rely on. -/
structure Landed (s t : Scheduler E) : Prop extends Written s t where
  approved : ∀ r, s.Approved r → t.Approved r
  isOver : ∀ key, t.Over key → s.Over key

lemma Aside.landed (h : Aside s t) : Landed s t := ⟨h.toWritten, fun _ => h.approved, h.isOver⟩

lemma landed_land (rs : List ReminderReceipt) (h : E.storable rs) : Landed s (s.land rs h) where
  toWritten := written_land rs h
  approved _ := approved_land
  isOver key hover := by
    obtain ⟨hwoken, hphase⟩ := hover
    rw [Woken, land_log, woken_mem_discards] at hwoken
    exact ⟨hwoken, hphase⟩

lemma Landed.trans (h : Landed s t) (h' : Landed t u) : Landed s u :=
  ⟨h.toWritten.trans h'.toWritten, fun r hr => h'.approved r (h.approved r hr),
    fun key hu => h.isOver key (h'.isOver key hu)⟩

lemma wp_writeReceipts {Q : Except String Unit → Scheduler E → Prop}
    (hs : Kept on s) (hrs : s.Writable on rs)
    (hok : ∀ t, Kept on t → Landed s t → t.stored.receipts = rs → Q (.ok ()) t)
    (herror : ∀ t e, Kept on t → Landed s t → Q (.error e) t) :
    wp (context on task) (writeReceipts rs) Q s := by
  rw [writeReceipts, wp_bind, wp_request]
  refine ⟨hs, ?_⟩
  rintro t hrely r t' ⟨⟨o, hanswer⟩, -⟩
  obtain ⟨ht, haside⟩ := hrely hs
  refine ⟨trivial, ?_⟩
  rw [either_ok, wp_ofExcept]
  have hland (h : E.storable rs) : Kept on (t.land rs h) ∧ Landed s (t.land rs h) :=
    ⟨kept_land ht h (hrs.aside haside), haside.landed.trans (landed_land rs h)⟩
  cases o with
  | done =>
    simp only [answer] at hanswer
    split at hanswer <;> cases hanswer
    · exact hok _ (hland _).1 (hland _).2 rfl
    · exact herror _ _ ht haside.landed
  | failed message =>
    cases hanswer
    exact herror _ _ ht haside.landed
  | failedAfter message =>
    simp only [answer] at hanswer
    split at hanswer <;> cases hanswer
    · exact herror _ _ (hland _).1 (hland _).2
    · exact herror _ _ ht haside.landed

/-! ### Taking a receipt into the map -/

variable {receipt : ReminderReceipt}

lemma Landed.adoptable (h : Landed s t)
    (hreceipt : s.Adoptable on receipt) : t.Adoptable on receipt where
  wakes hon hrunning hover := hreceipt.wakes hon (h.running hrunning) (h.isOver _ hover)
  fires hon := h.approved _ (hreceipt.fires hon)

lemma after_adopted (receipt : ReminderReceipt) : After s (s.adopted receipt) where
  size := Nat.le_succ _
  ages ref href := by
    have hheap : (s.adopted receipt).heap ref = s.heap ref := heap_alloc_of_lt href
    rw [hheap]
    exact Ages.refl _
  owned _ _ h _ := h
  running := id
  generation _ := rfl

lemma wp_adopt {Q : Except String Ref → Scheduler E → Prop}
    (h : Q (.ok s.size) (s.adopted receipt)) : wp (context on task) (adopt receipt) Q s := by
  simp only [adopt, wp_bind, wp_gets, either_ok, wp_update, wp_pure]
  exact ⟨trivial, h⟩

lemma wp_fresh {Q : Except String (Option Ref) → Scheduler E → Prop} (hs : Kept on s)
    (hread : ∀ t, Kept on t → Aside s t → Sound on task .read t (.ok t.stored.receipts) →
      on.wakes → t.running = true → t.Over key →
      ∀ r ∈ t.stored.receipts, r.key = key → r.live = false)
    (hQ : ∀ t, Kept on t → After s t → Q (.ok (t.receipts key)) t) :
    wp (context on task) (fresh key) Q s := by
  simp only [fresh, wp_bind, wp_tryCatch, wp_map]
  refine wp_readReceipts hs ?_ ?_
  · intro t ht haside hsound
    rw [either_ok, either_ok, either_ok]
    cases hfind : find ReminderReceipt.key key t.stored.receipts with
    | none =>
      exact hQ t ht haside.toAfter
    | some receipt =>
      have hmem := mem_of_find hfind
      have hkey := key_of_find hfind
      simp only [wp_bind, wp_map]
      refine wp_adopt ?_
      rw [either_ok, either_ok, wp_gets]
      refine hQ _ (kept_adopted ht ⟨?_, ?_⟩) (haside.toAfter.trans (after_adopted receipt))
      · intro hon hrunning hover
        rw [hkey] at hover
        exact hread t ht haside hsound hon hrunning hover receipt hmem hkey
      · exact fun hon => (ht.identified hon).stored receipt hmem
  · intro t e ht haside _
    exact hQ t ht haside.toAfter

/-! ### Persisting a receipt -/

/-- An object that the map holds, or that has ended. -/
def Mine (s : Scheduler E) (ref : Ref) : Prop :=
  ref < s.size ∧ (s.receipts (s.heap ref).key = some ref ∨ (s.heap ref).live = false)

lemma mine_of_receipts (hs : Kept on s) (href : s.receipts key = some ref) : s.Mine ref := by
  obtain ⟨hlt, hkey⟩ := hs.keyed key ref href
  exact ⟨hlt, Or.inl (hkey ▸ href)⟩

lemma ages_merge (existing : Option ReminderReceipt) (receipt : ReminderReceipt) :
    Ages receipt (merge existing receipt) := by
  rw [merge]
  split_ifs
  · exact ⟨rfl, rfl, fun _ => live_of_terminal rfl⟩
  · exact Ages.refl receipt

lemma adoptable_of_mine (hs : Kept on s) (hmine : s.Mine ref)
    (hages : Ages (s.heap ref) receipt) : s.Adoptable on receipt := by
  rcases hmine.2 with href | hended
  · exact adoptable_of_ages hs href hages
  · exact adoptable_of_ended (hages.ended hended)

lemma Aside.mine (h : Aside s t) (hmine : s.Mine ref) : t.Mine ref := by
  obtain ⟨hlt, hheld⟩ := hmine
  have hages := h.ages ref hlt
  refine ⟨h.sizes ▸ hlt, hheld.imp ?_ hages.ended⟩
  intro href
  rwa [h.receipts, hages.key]

lemma mem_of_mem_retained (h : r ∈ s.retained rs) : r ∈ rs := (List.mem_filter.mp h).1

lemma mem_retained_of_live (hr : r ∈ rs) (hlive : r.live = true) : r ∈ s.retained rs :=
  List.mem_filter.mpr ⟨hr, by simp [(live_eq_true.mp hlive).1]⟩

lemma writable_put (hreceipt : s.Adoptable on receipt) :
    s.Writable on (s.retained (put ReminderReceipt.key receipt s.stored.receipts)) := by
  intro hon r hr
  rcases mem_of_mem_put (mem_of_mem_retained hr) with rfl | hold
  · exact Or.inr (hreceipt.fires hon)
  · exact Or.inl hold

lemma wp_saveMerged {Q : Except String ReminderReceipt → Scheduler E → Prop} (hs : Kept on s)
    (hmine : s.Mine ref) (hok : ∀ t merged, Kept on t → Landed s t → Ages (s.heap ref) merged →
      t.Adoptable on merged → (merged.live = true → merged ∈ t.stored.receipts) → Q (.ok merged) t)
    (herror : ∀ t e, Kept on t → Landed s t → Q (.error e) t) :
    wp (context on task) (saveMerged ref) Q s := by
  simp only [saveMerged, wp_bind]
  refine wp_readReceipts hs ?_ fun t e ht haside _ => herror t e ht haside.landed
  intro t ht haside _
  simp only [either_ok, wp_bind, wp_gets]
  let merged := merge (find ReminderReceipt.key (t.heap ref).key t.stored.receipts) (t.heap ref)
  have hmerged : Ages (t.heap ref) merged := ages_merge _ _
  have hadoptable : t.Adoptable on merged := adoptable_of_mine ht (haside.mine hmine) hmerged
  refine wp_writeReceipts ht (writable_put hadoptable) ?_ ?_
  · intro u hu hlanded hstored
    refine hok u merged hu (haside.landed.trans hlanded) ?_ (hlanded.adoptable hadoptable) ?_
    · exact (haside.ages ref hmine.1).trans hmerged
    · intro hlive
      rw [hstored]
      exact mem_retained_of_live (mem_put_self _ _) hlive
  · intro u e hu hlanded
    exact herror u e hu (haside.landed.trans hlanded)

/-- The receipt in memory is one that the file holds. -/
def Filed (s : Scheduler E) (key : ReceiptKey) : Prop :=
  ∃ ref, s.receipts key = some ref ∧ (s.heap ref).live = true ∧
    s.heap ref ∈ s.stored.receipts

lemma follow_spec (hs : Kept on s) (href : s.receipts key = some ref) (proceed : Proceed) :
    Kept on (s.follow proceed ref) ∧ After s (s.follow proceed ref) ∧
      (s.follow proceed ref).receipts = s.receipts := by
  obtain ⟨hlt, hkey⟩ := hs.keyed key ref href
  cases proceed with
  | no => exact ⟨hs, After.refl s, rfl⟩
  | yes =>
    simp only [follow]
    split_ifs with hlive
    · have haside : Aside s (s.startEffect ref) := aside_startEffect hlt
      exact ⟨kept_startEffect hs (hkey ▸ href) hlive, haside.toAfter, haside.receipts⟩
    · exact ⟨hs, After.refl s, rfl⟩
  | retry =>
    simp only [follow]
    split_ifs
    · have hquiet : Quiet s (s.retry ref) := quiet_retry hlt
      exact ⟨hquiet.kept hs, hquiet.after, hquiet.receipts⟩
    · exact ⟨hs, After.refl s, rfl⟩

lemma ended_of_after (h : After s t) (hreceipts : t.receipts = s.receipts) (hs : Kept on s)
    (hended : s.Ended key) : t.Ended key := by
  obtain ⟨ref, href, hended⟩ := hended
  exact ⟨ref, hreceipts ▸ href, (h.ages ref (hs.keyed key ref href).1).ended hended⟩

variable {Q : Except String Bool → Scheduler E → Prop}

theorem wp_persistOrRetry {proceed afterFailure : Proceed} (hs : Kept on s) (hmine : s.Mine ref)
    (hkey : (s.heap ref).key = key)
    (hQ : ∀ b t, Kept on t → After s t → (proceed = .no → b = true → t.Filed key) →
      (s.receipts key = some ref → (s.heap ref).live = false → t.Ended key) → Q (.ok b) t) :
    wp (context on task) (persistOrRetry ref proceed afterFailure) Q s := by
  simp only [persistOrRetry, wp_bind, wp_gets, either_ok, wp_tryCatch]
  refine wp_saveMerged hs hmine ?_ ?_
  · intro t merged ht hlanded hages hadoptable hfiled
    simp only [either_ok, wp_bind]
    refine wp_adopt ?_
    simp only [either_ok, wp_bind, wp_update]
    have hmerged : merged.key = key := hages.key.trans hkey
    let u := t.adopted merged
    have hu : Kept on u := kept_adopted ht hadoptable
    have href : u.receipts key = some t.size := by
      rw [← hmerged]
      exact receipts_setReceipt
    have hheap : u.heap t.size = merged := heap_alloc
    let u' : Scheduler E :=
      { u with persistenceFailures := Function.update u.persistenceFailures (s.heap ref).key 0 }
    have hquiet : Quiet u u' := quiet_of_eq rfl rfl rfl rfl rfl rfl rfl fun h => ⟨h, rfl⟩
    have hu' : Kept on u' := hquiet.kept hu
    obtain ⟨hkept, hafter, hreceipts⟩ := follow_spec hu' href proceed
    refine ⟨trivial, trivial, hQ _ _ hkept ?_ ?_ ?_⟩
    · exact (hlanded.toAfter.trans (after_adopted merged)).trans (hquiet.after.trans hafter)
    · rintro rfl hlive
      have hlive' : merged.live = true := by
        rw [← hheap]
        exact hlive
      have hended := hlive'
      have hmem : u'.heap t.size ∈ u'.stored.receipts := by
        have hheap' : u'.heap t.size = merged := hheap
        rw [hheap']
        exact hfiled hended
      exact ⟨t.size, href, (congrArg _ hheap).trans hended, hmem⟩
    · intro _ hended
      refine ended_of_after hafter hreceipts hu' ⟨t.size, href, ?_⟩
      exact (congrArg ReminderReceipt.live hheap).trans (hages.ended hended)
  · intro t e ht hlanded
    simp only [either_error, wp_bind, wp_update, either_ok, wp_gets]
    refine ⟨trivial, ?_⟩
    let failures := t.persistenceFailures (s.heap ref).key + 1
    let t' : Scheduler E :=
      { t with
        persistenceFailures := Function.update t.persistenceFailures (s.heap ref).key failures }
    have hquiet : Quiet t t' := quiet_of_eq rfl rfl rfl rfl rfl rfl rfl fun h => ⟨h, rfl⟩
    -- whatever the timers are, the map still holds the object, and what has ended stays so
    have hend (u : Scheduler E) (hu : Quiet t u) : Q (.ok false) u := by
      refine hQ false u (hu.kept ht) (hlanded.toAfter.trans hu.after) (by intros; contradiction) ?_
      intro href hended
      refine hu.ended ⟨ref, hlanded.receipts ▸ href, ?_⟩
      exact (hlanded.ages ref hmine.1).ended hended
    rw [wp_ite]
    split_ifs
    · exact hend t' hquiet
    · simp only [wp_bind, wp_update, either_ok, wp_pure]
      refine ⟨trivial, trivial, hend _ (hquiet.trans ?_)⟩
      exact (quiet_mutate ref ⟨rfl, rfl, id⟩).trans (quiet_armReceipt _ _ _ _)

/-! ### Messages and acknowledgements -/

lemma Adoptable.of_eq (h : s.Adoptable on receipt)
    (hlog : t.log = s.log) (hflights : t.flights = s.flights)
    (hrunning : t.running = true → s.running = true) : t.Adoptable on receipt where
  wakes hon ht hover := by
    refine h.wakes hon (hrunning ht) ⟨?_, ?_⟩
    · rw [Woken, ← hlog]
      exact hover.1
    · rw [← hflights]
      exact hover.2
  fires hon hlive id hid := h.fires hon hlive id (hlog ▸ hid)

lemma kept_restoreOne (hs : Kept on s) (hreceipt : s.Adoptable on receipt) :
    Kept on (s.restoreOne receipt) ∧ (s.restoreOne receipt).log = s.log ∧
      (s.restoreOne receipt).flights = s.flights ∧
      ((s.restoreOne receipt).running = true → s.running = true) := by
  have hadopted : Kept on (s.adopted receipt) := kept_adopted hs hreceipt
  have hquiet := @quiet_armReceipt E (s.adopted receipt) s.size receipt.nextAt true .yes
  rw [restoreOne]
  split_ifs
  · exact ⟨hs, rfl, rfl, id⟩
  · exact ⟨hquiet.kept hadopted, hquiet.log, hquiet.flights, hquiet.running⟩
  · exact ⟨hadopted, rfl, rfl, id⟩

/-- The loop of `#restore`: the receipts that are still to come stay fit for the map. -/
lemma kept_foldl_restoreOne (rs : List ReminderReceipt) (hs : Kept on s)
    (hrs : ∀ r ∈ rs, s.Adoptable on r) : Kept on (rs.foldl restoreOne s) := by
  induction rs generalizing s with
  | nil => exact hs
  | cons r rs ih =>
    obtain ⟨hkept, hlog, hflights, hrunning⟩ := kept_restoreOne hs (hrs r List.mem_cons_self)
    refine ih hkept ?_
    intro r' hr'
    exact (hrs r' (List.mem_cons_of_mem _ hr')).of_eq hlog hflights hrunning

lemma wp_restore {sync : ReminderSync} (hs : Kept on s) :
    wp (context on (.apply sync)) restore (fun _ => Kept on) s := by
  simp only [restore, wp_bind, wp_tryCatch, wp_map]
  refine wp_readReceipts hs ?_ ?_
  · intro t ht _ hsound
    refine ⟨trivial, kept_foldl_restoreOne t.stored.receipts ht ?_⟩
    intro r hr
    exact ⟨fun hon _ hover => hsound hon r hr hover, fun hon => (ht.identified hon).stored r hr⟩
  · intro t e ht _ _
    exact ⟨trivial, ht⟩

lemma quiet_foldl_armSchedule (jobs : List ReminderJob) :
    Quiet s (jobs.foldl (fun t job => t.armSchedule job) s) := by
  induction jobs generalizing s with
  | nil => exact Quiet.refl s
  | cons job jobs ih => exact (quiet_armSchedule job).trans ih

theorem wp_apply (sync : ReminderSync) (hs : Kept on s) :
    wp (context on (.apply sync)) (apply sync) (fun _ => Kept on) s := by
  simp only [apply, wp_bind, wp_read, either_ok, wp_ofExcept]
  cases hmirror : s.mirror.apply E.scope sync with
  | error e => exact hs
  | ok mirror =>
    have hrunning : mirror.running = s.mirror.running := by
      have hreceive : s.mirror.receive E.scope sync = mirror := by
        rw [Mirror.receive, hmirror]
      rw [← hreceive]
      exact running_receive _ _ _
    have hsame : mirror.running = true → s.running = true ∧ s.generation = s.generation :=
      fun h => ⟨hrunning.symm.trans h, rfl⟩
    rw [either_ok]
    cases sync.operation with
    | snapshot jobs =>
      simp only [wp_bind, wp_update]
      refine ⟨trivial, wp_restore ?_⟩
      have hcleared : Quiet s { s with mirror := mirror, scheduleTimers := fun _ => none } :=
        quiet_of_eq rfl rfl rfl rfl rfl rfl rfl hsame
      exact (hcleared.trans (quiet_foldl_armSchedule _)).kept hs
    | upsert job =>
      rw [wp_update]
      refine ⟨trivial, ?_⟩
      split_ifs
      · exact hs
      · have htaken : Quiet s { s.cancelSchedule job.reminderId with mirror := mirror } :=
          quiet_of_eq rfl rfl rfl rfl rfl rfl rfl hsame
        exact (htaken.trans (quiet_armSchedule job)).kept hs
    | cancel reminderId version =>
      rw [wp_update]
      refine ⟨trivial, ?_⟩
      split_ifs
      · exact hs
      · have htaken : Quiet s { s.cancelSchedule reminderId with mirror := mirror } :=
          quiet_of_eq rfl rfl rfl rfl rfl rfl rfl hsame
        exact htaken.kept hs

lemma wp_acknowledged (hs : Kept on s) (hended : receipt.live = false) (key : ReceiptKey) :
    wp (context on task)
      (do
        let _ ← adopt receipt
        update fun s => { s with receiptTimers := Function.update s.receiptTimers key none }
        pure true)
      (fun _ => Kept on) s := by
  simp only [wp_bind]
  refine wp_adopt ?_
  have hadopted : Kept on (s.adopted receipt) := kept_adopted hs (adoptable_of_ended hended)
  have hquiet : Quiet (s.adopted receipt)
      { s.adopted receipt with
        receiptTimers := Function.update (s.adopted receipt).receiptTimers key none } :=
    quiet_of_eq rfl rfl rfl rfl rfl rfl rfl fun h => ⟨h, rfl⟩
  exact ⟨trivial, hquiet.kept hadopted⟩

lemma wp_acknowledgeKnown {reminderId : String} {version : Nat}
    {receipts : Option (List ReminderReceipt)} (hs : Kept on s)
    (hreceipts : ∀ rs, receipts = some rs → rs = s.stored.receipts)
    (known : Option ReminderReceipt) :
    wp (context on task)
      (match known with
        | none => pure false
        | some receipt =>
          if !receipt.serverAccepted then pure false
          else do
            let consumed := { receipt with consumed := true, terminal := true }
            (match receipts with
              | none => pure ()
              | some receipts => do
                let kept ← gets fun s =>
                  s.retained (put ReminderReceipt.key consumed receipts)
                writeReceipts kept)
            let _ ← adopt consumed
            update fun s =>
              { s with
                receiptTimers :=
                  Function.update s.receiptTimers (reminderId, version) none }
            pure true)
      (fun _ => Kept on) s := by
  cases known with
  | none => exact hs
  | some receipt =>
    simp only
    rw [wp_ite]
    split_ifs
    · exact hs
    cases receipts with
    | none => exact wp_acknowledged hs (live_of_terminal rfl) _
    | some rs =>
      obtain rfl := hreceipts rs rfl
      simp only [wp_bind, wp_gets, either_ok]
      refine wp_writeReceipts hs (writable_put (adoptable_of_ended (live_of_terminal rfl))) ?_ ?_
      · intro u hu _ _
        exact wp_acknowledged hu (live_of_terminal rfl) _
      · exact fun u e hu _ => hu

theorem wp_acknowledge (reminderId : String) (version : Nat) (hs : Kept on s) :
    wp (context on task) (acknowledge reminderId version) (fun _ => Kept on) s := by
  simp only [acknowledge, wp_bind, wp_tryCatch, wp_map]
  refine wp_readReceipts hs ?_ ?_
  · intro t ht _ _
    exact wp_acknowledgeKnown ht (fun rs h => (Option.some.inj h).symm) _
  · intro t e ht _ _
    exact @wp_acknowledgeKnown _ _ _ _ _ _ none ht (by intros; contradiction) _

/-! ### Due occurrences -/

lemma not_over_of_absent (hs : Kept on s) (hon : on.wakes) (hrunning : s.running = true)
    (habsent : s.receipts key = none) : ¬ s.Over key := by
  intro hover
  obtain ⟨ref, href, -⟩ := (hs.awake hon hrunning).isOver key hover
  rw [habsent] at href
  cases href

lemma wp_persisted (hs : Kept on s) (href : s.receipts key = some ref)
    (proceed afterFailure : Proceed) :
    wp (context on task) (do let _ ← persistOrRetry ref proceed afterFailure; pure ())
      (fun _ => Kept on) s := by
  rw [wp_bind]
  refine wp_persistOrRetry hs (mine_of_receipts hs href) rfl ?_
  exact fun b t ht _ _ _ => ht

lemma receipts_adopted_self (receipt : ReminderReceipt) :
    (s.adopted receipt).receipts receipt.key = some s.size := receipts_setReceipt

theorem wp_prepareDue (job : ReminderJob) (hs : Kept on s) :
    wp (context on (.prepareDue job)) (prepareDue job) (fun _ => Kept on) s := by
  simp only [prepareDue, wp_bind, wp_gets, either_ok]
  rw [wp_ite]
  split_ifs
  · exact hs
  simp only [wp_bind, wp_gets, either_ok]
  have hgo (t : Scheduler E) (r : ReminderReceipt) (ht : Kept on t) (hr : t.Adoptable on r) :
      wp (context on (.prepareDue job)) (adopt r)
        (either (fun ref => wp (context on (.prepareDue job))
          (do let _ ← persistOrRetry ref .yes .yes; pure ()) fun _ => Kept on)
          fun e => Kept on) t := by
    refine wp_adopt ?_
    rw [either_ok]
    exact wp_persisted (kept_adopted ht hr) (receipts_adopted_self r) _ _
  cases href : s.receipts (job.reminderId, job.version) with
  | some ref => exact wp_persisted hs href _ _
  | none =>
    have hmint (t : Scheduler E) (ht : Kept on t) (haside : Aside s t)
        (hfresh : on.fires → lastSent (job.reminderId, job.version) t.log = none) :
        wp (context on (.prepareDue job))
          (do
            update fun s => { s with uuids := s.uuids + 1 }
            adopt (t.mint job))
          (either (fun ref => wp (context on (.prepareDue job))
            (do let _ ← persistOrRetry ref .yes .yes; pure ()) fun _ => Kept on)
            fun e => Kept on) t := by
      rw [wp_bind, wp_update, either_ok]
      have hquiet : Quiet t { t with uuids := t.uuids + 1 } :=
        quiet_of_eq rfl rfl rfl rfl rfl rfl rfl fun h => ⟨h, rfl⟩
      refine ⟨trivial, hgo _ _ (hquiet.kept ht) ⟨?_, ?_⟩⟩
      · intro hon hrunning hover
        have habsent := haside.receipts ▸ href
        exact absurd hover (not_over_of_absent (hquiet.kept ht) hon hrunning habsent)
      · intro hon _ id hid
        exact absurd (hid.symm.trans (hfresh hon)) nofun
    simp only [wp_bind, wp_tryCatch, wp_map]
    refine wp_readReceipts hs ?_ ?_
    · intro t ht haside _
      simp only [either_ok]
      cases hfind : find ReminderReceipt.key (job.reminderId, job.version) t.stored.receipts with
      | some receipt =>
        refine hgo t receipt ht ⟨?_, ?_⟩
        · intro hon hrunning hover
          rw [key_of_find hfind] at hover
          have habsent := haside.receipts ▸ href
          exact absurd hover (not_over_of_absent ht hon hrunning habsent)
        · exact fun hon => (ht.identified hon).stored receipt (mem_of_find hfind)
      | none =>
        refine hmint t ht haside ?_
        intro hon
        cases hlast : lastSent (job.reminderId, job.version) t.log with
        | none => rfl
        | some id =>
          obtain ⟨r, hr, hkey⟩ := (ht.identified hon).held _ id hlast
          exact absurd hkey (find_eq_none.mp hfind r hr)
    · intro t e ht haside hsound
      refine hmint t ht haside ?_
      intro hon
      exact absurd (haside.receipts ▸ href) (hsound hon)

lemma wp_receiptDueKnown {key : ReceiptKey} {proceed : Bool} {afterPersistence : Proceed}
    {current : Option Ref} (hs : Kept on s) (hcurrent : s.receipts key = current) :
    wp (context on (.receiptDue key proceed afterPersistence))
      (match current with
        | none => pure ()
        | some ref => do
          let live ← gets fun s => (s.heap ref).live
          if !live then pure ()
          else if proceed then update (startEffect ref)
          else do
            let _ ← persistOrRetry ref afterPersistence afterPersistence
            pure ())
      (fun _ => Kept on) s := by
  cases current with
  | none => exact hs
  | some ref =>
    simp only [wp_bind, wp_gets, either_ok]
    rw [wp_ite]
    split_ifs with hlive
    · exact hs
    · obtain ⟨-, hkey⟩ := hs.keyed key ref hcurrent
      rw [Bool.not_eq_true, Bool.not_eq_false'] at hlive
      exact ⟨trivial, kept_startEffect hs (hkey ▸ hcurrent) hlive⟩
    · exact wp_persisted hs hcurrent _ _

theorem wp_receiptDue (key : ReceiptKey) (proceed : Bool) (afterPersistence : Proceed)
    (hs : Kept on s) : wp (context on (.receiptDue key proceed afterPersistence))
      (receiptDue key proceed afterPersistence) (fun _ => Kept on) s := by
  simp only [receiptDue, wp_bind]
  cases proceed with
  | true =>
    refine wp_fresh hs ?_ ?_
    · intro t ht _ hsound hon _ hover r hr hkey
      exact hsound hon r hr hkey hover
    · intro t ht _
      exact wp_receiptDueKnown ht rfl
  | false =>
    exact wp_receiptDueKnown hs rfl

/-! ### Flights -/

variable {flight : Flight}

lemma fits_of_phase (hs : s.Awake) (hflight : s.flights key = some flight)
    (hearly : flight.phase.early) {phase : Phase} (hattended : phase.attended → s.receipts key ≠ none) :
    s.Fits key flight.generation phase :=
  fits_of_early (hs.generation key flight hflight) (hs.early key flight hflight hearly) hattended

lemma kept_proceed (hs : Kept on s) {generation : Nat} {persisted : Bool}
    (hflight : s.flights key = some ⟨generation, .persisting⟩)
    (hfiled : persisted = true → s.Filed key) : Kept on (s.proceed key generation persisted) := by
  have hended : Kept on (s.setPhase key generation (.settled false)) :=
    kept_setPhase hs fun hon hrunning =>
      fits_of_phase (hs.awake hon hrunning) hflight rfl nofun
  rw [proceed]
  split_ifs with hstop
  · exact hended
  simp only [Bool.or_eq_true, Bool.not_eq_true', not_or, Bool.not_eq_false] at hstop
  obtain ⟨⟨hpersisted, hrunning⟩, -⟩ := hstop
  obtain ⟨ref, href, hlive, hmem⟩ := hfiled hpersisted
  have hkey := (hs.keyed key ref href).2
  rw [href]
  simp only
  split_ifs
  · exact hended
  · have hwaking : Kept on (s.setPhase key generation .waking) := by
      refine kept_setPhase hs fun hon hrunning => ?_
      refine fits_of_phase (hs.awake hon hrunning) hflight rfl ?_
      rw [href]
      exact nofun
    refine kept_wake hwaking ?_
    intro hon
    exact (hs.awake hon hrunning).early key _ hflight rfl
  · have hfiring : Kept on
        (s.setPhase key generation (.firing (fireRequest (s.heap ref)))) :=
      kept_setPhase hs fun hon hrunning =>
        fits_of_phase (hs.awake hon hrunning) hflight rfl nofun
    have href' : s.receipts (s.heap ref).key = some ref := hkey.symm ▸ href
    exact kept_fire hfiring rfl rfl ⟨rfl, rfl, rfl⟩ (fun _ => ⟨hmem, hlive⟩) href' rfl

theorem wp_persistAttempt (key : ReceiptKey) (hs : Kept on s) :
    wp (context on task) (persistAttempt key) (fun _ => Kept on) s := by
  simp only [persistAttempt, wp_bind, wp_gets, either_ok]
  split
  · rename_i generation hflight
    simp only [wp_bind, wp_gets, either_ok]
    cases href : s.receipts key with
    | none => exact ⟨trivial, kept_proceed hs hflight (by intros; contradiction)⟩
    | some ref =>
      refine wp_persistOrRetry hs (mine_of_receipts hs href) (hs.keyed key ref href).2 ?_
      intro persisted t ht hafter hfiled _
      rw [either_ok, wp_update]
      refine ⟨trivial, kept_proceed ht (hafter.owned key _ hflight rfl) (hfiled rfl)⟩
  · exact hs

/-- A flight whose answer the running operation takes. -/
structure Takes (s : Scheduler E) (key : ReceiptKey) (ref : Ref) (flight : Flight) : Prop where
  receipts : s.receipts key = some ref
  inFlight : s.flights key = some flight
  owned : flight.phase.owned

lemma Quiet.takes (h : Quiet s t) (hs : s.Takes key ref flight) : t.Takes key ref flight where
  receipts := h.receipts ▸ hs.receipts
  inFlight := h.flights ▸ hs.inFlight
  owned := hs.owned

lemma wp_deleteReceipt
    (hs : Kept on s) (htakes : s.Takes key ref flight) (hearly : flight.phase.early)
    (hattended : flight.phase.attended = false) (hQ : ∀ b t, Kept on t → After s t → Q (.ok b) t) :
    wp (context on task) (deleteReceipt ref) Q s := by
  have hkey := (hs.keyed key ref htakes.receipts).2
  simp only [deleteReceipt, wp_bind, wp_gets, either_ok, wp_tryCatch]
  refine wp_readReceipts hs ?_ ?_
  · intro t ht haside _
    simp only [either_ok, wp_bind]
    refine wp_writeReceipts ht ?_ ?_ ?_
    · intro _ r hr
      exact Or.inl (List.mem_filter.mp hr).1
    · intro u hu hlanded _
      simp only [either_ok, wp_bind, wp_update, wp_pure]
      have hafter := haside.toAfter.trans hlanded.toAfter
      have hflight := hafter.owned key flight htakes.inFlight htakes.owned
      rw [hkey]
      refine ⟨trivial, hQ true _ (kept_forget hu hflight hearly hattended) (hafter.trans ?_)⟩
      exact ⟨Nat.le_refl _, fun _ _ => Ages.refl _, fun _ _ h _ => h, id, fun _ => rfl⟩
    · intro u e hu hlanded
      exact hQ false u hu (haside.toAfter.trans hlanded.toAfter)
  · intro t e ht haside _
    exact hQ false t ht haside.toAfter

lemma wp_takeAnswer {response : Option ReminderFireResponse} (hs : Kept on s)
    (htakes : s.Takes key ref flight) (hearly : flight.phase.early)
    (hattended : flight.phase.attended = false) (hQ : ∀ b t, Kept on t → After s t → Q (.ok b) t) :
    wp (context on task) (takeAnswer ref response) Q s := by
  have hlt := (hs.keyed key ref htakes.receipts).1
  cases response with
  | none =>
    have hquiet : Quiet s (s.retry ref) := quiet_retry hlt
    exact ⟨trivial, hQ false _ (hquiet.kept hs) hquiet.after⟩
  | some response =>
    simp only [takeAnswer, wp_bind, wp_update, either_ok]
    refine ⟨trivial, ?_⟩
    -- the answer is noted in the object, and what is done next ends in one of three ways
    have hnoted : Quiet s (s.mutate ref fun r =>
        { r with
          serverResult := some response.result
          serverFired := some response.fired
          serverCatchup := some response.catchup }) := quiet_mutate ref ⟨rfl, rfl, id⟩
    generalize s.mutate ref _ = t at hnoted
    have hpersist (u : Scheduler E) (hu : Quiet t u) (after : Proceed)
        (Q' : Except String Bool → Scheduler E → Prop)
        (hQ' : ∀ b v, Kept on v → After s v → Q' (.ok b) v) :
        wp (context on task) (persistOrRetry ref .no after) Q' u := by
      have hsu := hnoted.trans hu
      have htaken := hsu.takes htakes
      refine wp_persistOrRetry (hsu.kept hs) (mine_of_receipts (hsu.kept hs) htaken.receipts) rfl ?_
      intro b v hv hafter _ _
      exact hQ' b v hv (hsu.after.trans hafter)
    rw [wp_ite]
    split_ifs
    · exact hpersist t (Quiet.refl t) .yes Q hQ
    · simp only [wp_bind, wp_gets, either_ok]
      rw [wp_ite]
      split_ifs
      · simp only [wp_bind]
        refine wp_deleteReceipt (hnoted.kept hs) (hnoted.takes htakes) hearly hattended ?_
        intro b u hu hafter
        refine ⟨trivial, ?_⟩
        have hretry : Quiet u (if b then u.armServerRetry (u.heap ref).job else u) := by
          split_ifs
          · exact quiet_armServerRetry _
          · exact Quiet.refl u
        exact hQ false _ (hretry.kept hu) (hnoted.after.trans (hafter.trans hretry.after))
      · simp only [wp_bind, wp_update, either_ok]
        refine ⟨trivial, hpersist _ (quiet_mutate ref ⟨rfl, rfl, id⟩) .no _ ?_⟩
        intro b v hv hafter
        refine ⟨trivial, ?_⟩
        have harm : Quiet v (v.armReceipt ref (v.heap ref).nextAt true .yes) :=
          quiet_armReceipt _ _ _ _
        exact hQ false _ (harm.kept hv) (hafter.trans harm.after)
    · simp only [wp_bind, wp_update, either_ok]
      have hends : Quiet t (t.mutate ref fun r => { r with terminal := true }) :=
        quiet_mutate ref ⟨rfl, rfl, fun _ => live_of_terminal rfl⟩
      refine ⟨trivial, hpersist _ hends .no _ ?_⟩
      exact fun b v hv hafter => hQ false v hv hafter

lemma kept_settled (hs : Kept on s) (hflight : s.flights key = some flight)
    (hearly : flight.phase.early) (ready : Bool) :
    Kept on (s.setPhase key flight.generation (.settled ready)) :=
  kept_setPhase hs fun hon hrunning => fits_of_phase (hs.awake hon hrunning) hflight hearly nofun

theorem wp_fireAnswered (key : ReceiptKey) (hs : Kept on s) :
    wp (context on task) (fireAnswered key) (fun _ => Kept on) s := by
  simp only [fireAnswered, wp_bind, wp_gets, either_ok]
  split
  swap
  · exact hs
  rename_i generation response hflight
  have hend (b : Bool) (t : Scheduler E) (ht : Kept on t) (hafter : After s t) :
      wp (context on task)
        (update fun s => s.setPhase key generation (.settled b) : Op E Unit) (fun _ => Kept on) t :=
    ⟨trivial, kept_settled ht (hafter.owned key _ hflight rfl) rfl b⟩
  simp only [wp_bind, wp_gets, either_ok]
  rw [wp_ite]
  split_ifs
  · exact hend false s hs (After.refl s)
  simp only [wp_bind]
  refine wp_fresh hs ?_ ?_
  · intro t ht haside _ hon hrunning hover
    have hflight' := haside.owned key _ hflight rfl
    exact absurd hover.1 ((ht.awake hon hrunning).early key _ hflight' rfl)
  · intro t ht hafter
    rw [either_ok]
    cases href : t.receipts key with
    | none => exact hend false t ht hafter
    | some ref =>
      simp only [wp_bind, wp_gets, either_ok]
      rw [wp_ite]
      split_ifs
      · exact hend false t ht hafter
      · have htakes : t.Takes key ref ⟨generation, .fired response⟩ :=
          ⟨href, hafter.owned key _ hflight rfl, rfl⟩
        refine wp_takeAnswer ht htakes rfl rfl ?_
        exact fun b u hu hafter' => hend b u hu (hafter.trans hafter')

theorem wp_wakeAnswered (key : ReceiptKey) (hs : Kept on s) :
    wp (context on task) (wakeAnswered key) (fun _ => Kept on) s := by
  simp only [wakeAnswered, wp_bind, wp_gets, either_ok]
  split
  swap
  · exact hs
  rename_i generation accepted hflight
  -- the flight may end once the receipt has, if its wake was accepted
  have hend (t : Scheduler E) (ht : Kept on t) (hafter : After s t)
      (hended : on.wakes → t.running = true → accepted = true → t.Ended key) :
      wp (context on task)
        (update fun s => s.setPhase key generation (.settled false) : Op E Unit) (fun _ => Kept on) t := by
    refine ⟨trivial, kept_setPhase ht fun hon hrunning => ?_⟩
    have hawake := ht.awake hon hrunning
    have hflight' := hafter.owned key _ hflight rfl
    refine ⟨hawake.generation key _ hflight', (by intros; contradiction), (by intros; contradiction), ?_⟩
    intro hwoken _
    cases accepted with
    | true => exact hended hon hrunning rfl
    | false => exact absurd hwoken (hawake.early key _ hflight' rfl)
  simp only [wp_bind, wp_gets, either_ok]
  rw [wp_ite]
  split
  · rename_i hstale
    refine hend s hs (After.refl s) ?_
    intro hon hrunning _
    have hgeneration := (hs.awake hon hrunning).generation key _ hflight
    simp [hrunning, ← hgeneration] at hstale
  simp only [wp_bind]
  refine wp_fresh hs ?_ ?_
  · intro t ht haside _ hon hrunning hover
    have hflight' := haside.owned key _ hflight rfl
    cases accepted with
    | true => exact absurd rfl (hover.2 _ hflight')
    | false => exact absurd hover.1 ((ht.awake hon hrunning).early key _ hflight' rfl)
  · intro t ht hafter
    rw [either_ok]
    have hflight' := hafter.owned key _ hflight rfl
    cases href : t.receipts key with
    | none =>
      refine hend t ht hafter ?_
      intro hon hrunning _
      exact absurd href ((ht.awake hon hrunning).attended key _ hflight' rfl)
    | some ref =>
      simp only [wp_bind, wp_gets, either_ok]
      rw [wp_ite]
      split
      · rename_i hlive
        refine hend t ht hafter fun _ _ _ => ⟨ref, href, ?_⟩
        simpa using hlive
      simp only [wp_bind, wp_update, either_ok]
      refine ⟨trivial, ?_⟩
      have hquiet : Quiet t (t.mutate ref fun r =>
          { r with wakeAccepted := accepted, terminal := r.terminal || accepted }) := by
        refine quiet_mutate ref ⟨rfl, rfl, fun h => ?_⟩
        simp only [live, Bool.and_eq_false_iff, Bool.not_eq_false'] at h ⊢
        exact h.imp_right fun h => by simp [h]
      have hkept := hquiet.kept ht
      refine wp_persistOrRetry hkept (mine_of_receipts hkept (hquiet.receipts ▸ href))
        ((hkept.keyed key ref (hquiet.receipts ▸ href)).2) ?_
      intro b u hu hafter' _ hended
      refine hend u hu (hafter.trans (hquiet.after.trans hafter')) ?_
      rintro - - rfl
      refine hended (hquiet.receipts ▸ href) ?_
      rw [heap_mutate]
      exact live_of_terminal (by simp)

theorem wp_persistExhausted (hs : Kept on s) (hlt : ref < s.size)
    (hended : (s.heap ref).live = false) :
    wp (context on task) ((fun _ => ()) <$> persistOrRetry ref .no .no) (fun _ => Kept on) s := by
  rw [wp_map]
  refine wp_persistOrRetry hs ⟨hlt, Or.inr hended⟩ rfl ?_
  exact fun b t ht _ _ _ => ht

/-! ### Every interleaving -/

/-- What a run has to meet: each answer is one its operation can work with. -/
def Clean (on : Watch) (s : Sys (Scheduler E) Task StoreReply String)
    (a : Act Event Outcome) : Prop :=
  match s.turn, a with
  | some (task, p), .reply o =>
    ∀ r t, answer p.effect o s.shared = some (r, t) → Sound on task p.effect s.shared r
  | _, _ => True

/-- The obligations of the scheduler. -/
def spec (on : Watch) : Component.Spec (scheduler E) (Clean on) where
  idle := Kept on
  context := context on
  rely_refl _ s hs := ⟨hs, (Quiet.refl s).aside⟩
  rely_trans _ _ _ _ h h' hs :=
    have ⟨ht, haside⟩ := h hs
    have ⟨hu, haside'⟩ := h' ht
    ⟨hu, haside.trans haside'⟩
  guar_refl _ _ := trivial
  guar_trans _ _ _ _ _ _ := trivial
  event_idle _ _ _ _ _ h hs := (event_spec hs h).1
  event_rely _ _ _ _ _ _ _ h hs := event_spec hs h
  reply_answer s task p o r t hturn hok h := by
    refine ⟨⟨o, h⟩, ?_⟩
    simp only [Clean, hturn] at hok
    exact hok r t h
  body_safe s task t _ _ hnext hs := by
    obtain ⟨tasks, hqueue, rfl⟩ : ∃ tasks, s.shared.queue = task :: tasks ∧
        { s.shared with queue := tasks } = t := by
      change Scheduler.next s.shared = some (task, t) at hnext
      rw [next] at hnext
      cases hq : s.shared.queue with
      | nil => simp [hq] at hnext
      | cons task' tasks =>
        simp only [hq, Option.some.injEq, Prod.mk.injEq] at hnext
        exact ⟨tasks, by rw [hnext.1], hnext.2⟩
    have hquiet : Quiet s.shared { s.shared with queue := tasks } := by
      refine ⟨rfl, rfl, rfl, rfl, rfl, fun _ => Ages.refl _, id, fun _ => rfl, ?_⟩
      intro ref href
      exact Or.inl (hqueue ▸ List.mem_cons_of_mem _ href)
    have ht := hquiet.kept hs
    cases task with
    | apply sync => exact wp_apply sync ht
    | acknowledge reminderId version =>
      exact wp_map.mpr (wp_mono (fun r _ h => by cases r <;> exact h)
        (wp_acknowledge reminderId version ht))
    | prepareDue job => exact wp_prepareDue job ht
    | receiptDue key proceed after => exact wp_receiptDue key proceed after ht
    | persistAttempt key => exact wp_persistAttempt key ht
    | fireAnswered key => exact wp_fireAnswered key ht
    | wakeAnswered key => exact wp_wakeAnswered key ht
    | persistExhausted ref =>
      obtain ⟨hlt, hended⟩ := hs.exhausted ref (hqueue ▸ List.mem_cons_self)
      exact wp_persistExhausted ht hlt hended

/-- The invariant holds at every point of a clean run, whichever operation is in its turn. -/
theorem kept_run {acts : List (Act Event Outcome)} {s t : Sys (Scheduler E) Task StoreReply String}
    (hturn : s.turn = none) (hs : Kept on s.shared)
    (hok : Permitted (scheduler E).step (Clean on) s acts)
    (hrun : run (scheduler E).step s acts = some t) : Kept on t.shared := by
  have hinv := (spec on).safe_run (((spec on).inv_idle hturn).mpr hs) hok hrun
  rcases ht : t.turn with _ | ⟨task, p⟩
  · exact ((spec on).inv_idle ht).mp hinv
  · obtain ⟨u, hissue, -, hrely⟩ := ((spec on).inv_turn ht).mp hinv
    exact (hrely hissue).1

end Scheduler

end Coforge.Reminder
