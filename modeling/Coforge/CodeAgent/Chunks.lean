import Coforge.CodeAgent.Settled

/-!
# The output of a code agent in chunks

`records` are the records of a list of lines up to the first line that is none. The reader accepts
the records of the decoded output so far, and is short of them only where a listener threw. Cutting
the output otherwise leaves every run where it was.
-/

namespace Coforge.CodeAgent

open Lines Process List

section Records

variable (parse : List Char → Option Json)

/-- The records on some lines, up to the first line that holds none. -/
def records : List (List Char) → List Json
  | []            => []
  | line :: lines =>
    if stripReturn line = [] then records lines
    else match parseRecord parse (stripReturn line) with
      | none        => []
      | some record => record :: records lines

/-- The line is empty or holds a record. -/
def Readable (line : List Char) : Prop :=
  stripReturn line = [] ∨ (parseRecord parse (stripReturn line)).isSome

end Records

variable {σ : Type*} {D : Decoder σ UInt8 Char} {parse : List Char → Option Json}
  {listen : List Json → Reaction}

variable {line : List Char}

lemma records_cons_of_nil (h : stripReturn line = [])
    (lines : List (List Char)) : records parse (line :: lines) = records parse lines := by
  rw [records, if_pos h]

lemma records_cons_of_none (h : stripReturn line ≠ [])
    (hparse : parseRecord parse (stripReturn line) = none) (lines : List (List Char)) :
    records parse (line :: lines) = [] := by
  rw [records, if_neg h, hparse]

variable {record : Json}

lemma records_cons_of_some (h : stripReturn line ≠ [])
    (hparse : parseRecord parse (stripReturn line) = some record) (lines : List (List Char)) :
    records parse (line :: lines) = record :: records parse lines := by
  rw [records, if_neg h, hparse]

variable {as : List (List Char)}

lemma records_append (has : ∀ line ∈ as, Readable parse line)
    (bs : List (List Char)) : records parse (as ++ bs) = records parse as ++ records parse bs := by
  induction as with
  | nil => rfl
  | cons line as ih =>
    have ih := ih fun l hl => has l (mem_cons_of_mem line hl)
    rw [cons_append]
    by_cases h : stripReturn line = []
    · rw [records_cons_of_nil h, records_cons_of_nil h, ih]
    · obtain hnil | hsome := has line mem_cons_self
      · exact absurd hnil h
      obtain ⟨record, hparse⟩ := Option.isSome_iff_exists.mp hsome
      rw [records_cons_of_some h hparse, records_cons_of_some h hparse, ih, cons_append]

lemma records_append_of_unreadable
    (has : ∃ line ∈ as, ¬Readable parse line) (bs : List (List Char)) :
    records parse (as ++ bs) = records parse as := by
  obtain ⟨bad, hbad, hunreadable⟩ := has
  induction as with
  | nil => cases hbad
  | cons line as ih =>
    rw [cons_append]
    by_cases h : stripReturn line = []
    · have hmem : bad ∈ as := by
        rcases mem_cons.mp hbad with rfl | hmem
        · exact absurd (.inl h) hunreadable
        · exact hmem
      rw [records_cons_of_nil h, records_cons_of_nil h, ih hmem]
    cases hparse : parseRecord parse (stripReturn line) with
    | none => rw [records_cons_of_none h hparse, records_cons_of_none h hparse]
    | some record =>
      have hmem : bad ∈ as := by
        rcases mem_cons.mp hbad with rfl | hmem
        · exact absurd (.inr (by rw [hparse]; rfl)) hunreadable
        · exact hmem
      rw [records_cons_of_some h hparse, records_cons_of_some h hparse, ih hmem]

lemma records_left (as bs : List (List Char)) :
    records parse as <+: records parse (as ++ bs) := by
  by_cases has : ∀ line ∈ as, Readable parse line
  · exact ⟨records parse bs, (records_append has bs).symm⟩
  · push Not at has
    rw [records_append_of_unreadable has]

/-! ### One line -/

variable {p : Process} {id : String}

lemma answered_eq_some (h : p.answered record = some id) :
    Json.text? (record.get? "id") = some id ∧ id ∈ p.pending := by
  obtain ⟨htext, hid⟩ := Option.filter_eq_some_iff.mp h
  exact ⟨htext, (of_decide_eq_true hid).2⟩

lemma settlement_record? (record : Json) : (settlement record).record? = some record := by
  unfold settlement
  split_ifs <;> rfl

lemma Process.Settles.accepting (h : p.Settles) (record : Json) :
    { p with accepted := p.accepted ++ [record] }.Settles :=
  ⟨h.perm, h.pos, h.idle, h.fresh, fun e he r hr =>
    ⟨mem_append_left _ (h.answers e he r hr).1, (h.answers e he r hr).2⟩⟩

lemma Process.Settles.delivering (h : p.Settles) (record : Json) :
    { p with delivered := p.delivered ++ [record] }.Settles :=
  ⟨h.perm, h.pos, h.idle, h.fresh, h.answers⟩

/-- The process that a response has settled a request of. -/
def answer (record : Json) (id : String) (p : Process) : Process :=
  { p with pending := p.pending.erase id, settled := p.settled ++ [(id, settlement record)] }

lemma Process.Settles.answer (h : p.Settles) (hid : id ∈ p.pending) (hrecord : record ∈ p.accepted)
    (htext : Json.text? (record.get? "id") = some id) : (answer record id p).Settles where
  perm := by
    show (map Prod.fst (p.settled ++ [(id, settlement record)]) ++ p.pending.erase id).Perm _
    rw [map_append, append_assoc]
    exact ((perm_cons_erase hid).symm.append_left _).trans h.perm
  pos := h.pos
  idle hended := absurd (h.idle hended ▸ hid) not_mem_nil
  fresh := h.fresh
  answers := by
    intro e he r hr
    rcases mem_append.mp he with he | he
    · exact h.answers e he r hr
    · obtain rfl := mem_singleton.mp he
      rw [settlement_record?] at hr
      cases hr
      exact ⟨hrecord, htext⟩

/-- What reading some lines does: they are accepted up to where the reader stops. -/
structure Reading (parse : List Char → Option Json) (listen : List Json → Reaction)
    (lines : List (List Char)) (p : Process) (r : Process × Option Thrown) : Prop where
  settles : p.Settles → r.1.Settles
  ended   : p.state ≠ .open → r.1.state ≠ .open
  through : r.2 = none →
    (∀ line ∈ lines, Readable parse line) ∧ r.1.accepted = p.accepted ++ records parse lines
  stopped : r.2 ≠ none →
    ((∃ line ∈ lines, ¬Readable parse line) ∧ r.1.accepted = p.accepted ++ records parse lines) ∨
      (r.1.accepted <+: p.accepted ++ records parse lines ∧ (listen r.1.delivered).thrown.isSome)

lemma accept_eq_of_some (h : p.answered record = some id) : p.accept listen record =
      (answer record id { p with accepted := p.accepted ++ [record] }, none) := by
  have h' : { p with accepted := p.accepted ++ [record] }.answered record = some id := h
  rw [accept, h']
  rfl

lemma accept_eq_of_none (h : p.answered record = none) : p.accept listen record =
      ((listen (p.delivered ++ [record])).calls.foldl call
          { p with accepted := p.accepted ++ [record], delivered := p.delivered ++ [record] },
        (listen (p.delivered ++ [record])).thrown) := by
  have h' : { p with accepted := p.accepted ++ [record] }.answered record = none := h
  rw [accept, h']
  rfl

/-- A record settles the request it answers, or is given to the listeners and may stop there. -/
lemma accept_spec (record : Json) (p : Process) : (p.Settles → (p.accept listen record).1.Settles) ∧
      (p.state ≠ .open → (p.accept listen record).1.state ≠ .open) ∧
      (p.accept listen record).1.accepted = p.accepted ++ [record] ∧
      ((p.accept listen record).2 ≠ none →
        (listen (p.accept listen record).1.delivered).thrown.isSome) := by
  cases h : p.answered record with
  | some id =>
    rw [accept_eq_of_some h]
    obtain ⟨htext, hid⟩ := answered_eq_some h
    refine ⟨fun hp => ?_, fun hended => hended, rfl, fun hne => absurd rfl hne⟩
    exact (hp.accepting record).answer hid (mem_append_right _ mem_cons_self) htext
  | none =>
    rw [accept_eq_of_none h]
    have hkept := kept_calls (listen (p.delivered ++ [record])).calls
      { p with accepted := p.accepted ++ [record], delivered := p.delivered ++ [record] }
    refine ⟨fun hp => hkept.settles ((hp.accepting record).delivering record), hkept.ended,
      hkept.accepted, fun hne => ?_⟩
    rw [hkept.delivered]
    exact Option.isSome_iff_ne_none.mpr hne

lemma readLine_eq_of_some (h : stripReturn line ≠ [])
    (hparse : parseRecord parse (stripReturn line) = some record) (p : Process) :
    p.readLine parse listen line = p.accept listen record := by
  rw [readLine, if_neg h, hparse]

lemma reading_line (line : List Char) (p : Process) :
    Reading parse listen [line] p (p.readLine parse listen line) := by
  by_cases h : stripReturn line = []
  · rw [readLine, if_pos h]
    refine ⟨id, id, fun _ => ⟨fun l hl => ?_, ?_⟩, fun hne => absurd rfl hne⟩
    · rw [mem_singleton.mp hl]
      exact .inl h
    · rw [records_cons_of_nil h]
      exact (append_nil _).symm
  cases hparse : parseRecord parse (stripReturn line) with
  | none =>
    rw [readLine, if_neg h, hparse]
    refine ⟨id, id, fun hnone => (by cases hnone), fun _ => .inl ⟨?_, ?_⟩⟩
    · refine ⟨line, mem_cons_self, ?_⟩
      rintro (hnil | hsome)
      · exact h hnil
      · rw [hparse] at hsome
        cases hsome
    · rw [records_cons_of_none h hparse, append_nil]
  | some record =>
    rw [readLine_eq_of_some h hparse]
    obtain ⟨hsettles, hended, haccepted, hthrown⟩ := @accept_spec listen record p
    have hrecords : records parse [line] = [record] := by
      rw [records_cons_of_some h hparse]
      rfl
    refine ⟨hsettles, hended, fun _ => ⟨fun l hl => ?_, ?_⟩, fun hne => .inr ⟨?_, hthrown hne⟩⟩
    · rw [mem_singleton.mp hl]
      exact .inr (by rw [hparse]; rfl)
    · rw [haccepted, hrecords]
    · rw [haccepted, hrecords]

/-! ### Complete lines -/

lemma readLines_cons_of_none
    (h : (p.readLine parse listen line).2 = none) (lines : List (List Char)) :
    readLines parse listen (line :: lines) p =
      readLines parse listen lines (p.readLine parse listen line).1 := by
  rw [readLines, h]

lemma readLines_cons_of_some {thrown : Thrown}
    (h : (p.readLine parse listen line).2 = some thrown) (lines : List (List Char)) :
    readLines parse listen (line :: lines) p = ((p.readLine parse listen line).1, some thrown) := by
  rw [readLines, h]

lemma readLines_append_of_none
    (h : (readLines parse listen as p).2 = none) (bs : List (List Char)) :
    readLines parse listen (as ++ bs) p =
      readLines parse listen bs (readLines parse listen as p).1 := by
  induction as generalizing p with
  | nil => rfl
  | cons line as ih =>
    rw [cons_append]
    cases hline : (p.readLine parse listen line).2 with
    | none =>
      rw [readLines_cons_of_none hline] at h ⊢
      rw [ih h, readLines_cons_of_none hline]
    | some thrown =>
      rw [readLines_cons_of_some hline] at h
      cases h

lemma readLines_append_of_some {thrown : Thrown}
    (h : (readLines parse listen as p).2 = some thrown) (bs : List (List Char)) :
    readLines parse listen (as ++ bs) p = readLines parse listen as p := by
  induction as generalizing p with
  | nil => cases h
  | cons line as ih =>
    rw [cons_append]
    cases hline : (p.readLine parse listen line).2 with
    | none =>
      rw [readLines_cons_of_none hline] at h ⊢
      rw [ih h, readLines_cons_of_none hline]
    | some thrown => rw [readLines_cons_of_some hline, readLines_cons_of_some hline]

lemma reading_lines (lines : List (List Char)) (p : Process) :
    Reading parse listen lines p (readLines parse listen lines p) := by
  induction lines generalizing p with
  | nil =>
    exact ⟨id, id, fun _ => ⟨by simp, (append_nil _).symm⟩, fun hne => absurd rfl hne⟩
  | cons line lines ih =>
    have hone : Reading parse listen [line] p (p.readLine parse listen line) :=
      reading_line line p
    cases hline : (p.readLine parse listen line).2 with
    | some thrown =>
      rw [readLines_cons_of_some hline]
      have hne : (p.readLine parse listen line).2 ≠ none := by rw [hline]; rintro ⟨⟩
      refine ⟨hone.settles, hone.ended, fun hnone => (by cases hnone), fun _ => ?_⟩
      rw [← singleton_append]
      rcases hone.stopped hne with ⟨hbad, haccepted⟩ | ⟨hstart, hthrown⟩
      · refine .inl ⟨?_, by rw [records_append_of_unreadable hbad, ← haccepted]⟩
        obtain ⟨bad, hmem, hunreadable⟩ := hbad
        exact ⟨bad, mem_append_left _ hmem, hunreadable⟩
      · exact .inr ⟨hstart.trans ((prefix_append_right_inj _).mpr (records_left _ _)), hthrown⟩
    | none =>
      rw [readLines_cons_of_none hline]
      obtain ⟨hreadable, haccepted⟩ := hone.through hline
      have hrest := ih (p.readLine parse listen line).1
      have hrecords : p.accepted ++ records parse (line :: lines) =
          (p.readLine parse listen line).1.accepted ++ records parse lines := by
        rw [haccepted, append_assoc, ← records_append hreadable, singleton_append]
      refine ⟨hrest.settles ∘ hone.settles, hrest.ended ∘ hone.ended, fun hnone => ?_,
        fun hne => ?_⟩
      · obtain ⟨hreadable', haccepted'⟩ := hrest.through hnone
        refine ⟨fun l hl => ?_, by rw [haccepted', hrecords]⟩
        rcases mem_cons.mp hl with rfl | hl
        · exact hreadable l mem_cons_self
        · exact hreadable' l hl
      · rw [hrecords]
        refine (hrest.stopped hne).imp_left (And.imp_left ?_)
        rintro ⟨bad, hmem, hunreadable⟩
        exact ⟨bad, mem_cons_of_mem line hmem, hunreadable⟩

/-! ### Chunks -/

variable (D) in
/-- The text of some bytes, as the decoder gives it. -/
def decoded (bytes : List UInt8) : List Char := (D.decode D.start bytes).2

/-- The lines of the output so far. -/
def outputLines (D : Decoder σ UInt8 Char) (bytes : List UInt8) : List (List Char) :=
  (lines '\n' (decoded D bytes)).1

/-- What holds of a process and its reader after every event: the requests are settled or pending,
and the accepted records are those of the bytes that were written, unless a listener threw. -/
structure Agent.Reads (D : Decoder σ UInt8 Char) (parse : List Char → Option Json)
    (listen : List Json → Reaction) (w : Agent σ) : Prop where
  settles  : w.process.Settles
  decoder  : ∀ s buffer, w.reader = some (s, buffer) →
    s = (D.decode D.start w.written).1 ∧ buffer = (lines '\n' (decoded D w.written)).2
  reading  : w.reader ≠ none → ∀ line ∈ outputLines D w.written, Readable parse line
  halted   : w.reader = none → w.ended = true ∨ w.process.state ≠ .open
  accepted : w.process.accepted = records parse (outputLines D w.written) ∧
      (w.reader = none → w.ended = true ∨
        ∃ line ∈ outputLines D w.written, ¬Readable parse line) ∨
    w.reader = none ∧ w.process.accepted <+: records parse (outputLines D w.written) ∧
      (listen w.process.delivered).thrown.isSome

namespace Agent

lemma reads_create (hD : D.Chunked) : (create D).Reads D parse listen where
  settles := settles_create
  decoder := by
    rintro s buffer heq
    cases heq
    simp [create, decoded, hD.nil]
  reading := by
    intro _ line hline
    simp [create, outputLines, decoded, hD.nil] at hline
  halted h := by cases h
  accepted := by
    refine .inl ⟨?_, fun h => (by cases h)⟩
    simp [create, Process.create, outputLines, decoded, hD.nil, records]

variable {w : Agent σ}

lemma Reads.kept (h : w.Reads D parse listen) {f : Process → Process}
    (hf : w.process.Kept (f w.process)) : (w.withProcess f).Reads D parse listen where
  settles := hf.settles h.settles
  decoder := h.decoder
  reading := h.reading
  halted hreader := (h.halted hreader).imp_right hf.ended
  accepted := by
    show (f w.process).accepted = _ ∧ _ ∨ _ ∧ (f w.process).accepted <+: _ ∧
      (listen (f w.process).delivered).thrown.isSome
    rw [hf.accepted, hf.delivered]
    exact h.accepted

lemma Reads.ends (h : w.Reads D parse listen) :
    { w with reader := none, ended := true }.Reads D parse listen where
  settles := h.settles
  decoder _ _ heq := by cases heq
  reading hne := absurd rfl hne
  halted _ := .inl rfl
  accepted := h.accepted.imp (fun h => ⟨h.1, fun _ => .inl rfl⟩) fun h => ⟨rfl, h.2⟩

lemma Reads.endsFailing (h : w.Reads D parse listen) (thrown : Thrown) :
    ({ w with ended := true }.stop thrown).Reads D parse listen :=
  h.ends.kept (kept_fail thrown.message w.process)

lemma lines_decoded_append (hD : D.Chunked) (as bs : List UInt8) :
    lines '\n' (decoded D (as ++ bs)) = ((lines '\n' (decoded D as)).1 ++
          (lines '\n' ((lines '\n' (decoded D as)).2 ++ (D.decode (D.decode D.start as).1 bs).2)).1,
        (lines '\n' ((lines '\n' (decoded D as)).2 ++
            (D.decode (D.decode D.start as).1 bs).2)).2) := by
  rw [decoded, hD.append]
  exact lines_append '\n' _ _

lemma outputLines_prefix (hD : D.Chunked) (as bs : List UInt8) :
    ∃ new, outputLines D (as ++ bs) = outputLines D as ++ new :=
  ⟨_, congrArg Prod.fst (lines_decoded_append hD as bs)⟩

/-- The lines that a chunk completes. -/
def newLines (D : Decoder σ UInt8 Char) (s : σ) (buffer : List Char) (bytes : List UInt8) :
    List (List Char) × List Char :=
  lines '\n' (buffer ++ (D.decode s bytes).2)

lemma chunk_of_ended (h : w.ended = true) (bytes : List UInt8) :
    w.chunk D parse listen bytes = w := by
  rw [chunk, if_pos h]

lemma chunk_of_unread (hw : w.ended ≠ true) (h : w.reader = none) (bytes : List UInt8) :
    w.chunk D parse listen bytes = { w with written := w.written ++ bytes } := by
  rw [chunk, if_neg hw, h]

lemma chunk_of_through (hw : w.ended ≠ true) {s : σ} {buffer : List Char}
    (h : w.reader = some (s, buffer)) {bytes : List UInt8} {p : Process}
    (hlines : readLines parse listen (newLines D s buffer bytes).1 w.process = (p, none)) :
    w.chunk D parse listen bytes = { w with
        process := p
        reader := some ((D.decode s bytes).1, (newLines D s buffer bytes).2)
        written := w.written ++ bytes } := by
  rw [newLines] at hlines
  simp only [chunk, hw, h, hlines, newLines]
  rfl

lemma chunk_of_stopped (hw : w.ended ≠ true) {s : σ} {buffer : List Char}
    (h : w.reader = some (s, buffer)) {bytes : List UInt8} {p : Process} {thrown : Thrown}
    (hlines : readLines parse listen (newLines D s buffer bytes).1 w.process = (p, some thrown)) :
    w.chunk D parse listen bytes =
      { w with process := p, written := w.written ++ bytes }.stop thrown := by
  rw [newLines] at hlines
  simp only [chunk, hw, h, hlines]
  rfl

lemma Reads.unread (hD : D.Chunked) (h : w.Reads D parse listen)
    (hw : w.ended ≠ true) (hreader : w.reader = none) (bytes : List UInt8) :
    { w with written := w.written ++ bytes }.Reads D parse listen where
  settles := h.settles
  decoder _ _ heq := by
    rw [hreader] at heq
    cases heq
  reading hne := absurd hreader hne
  halted := h.halted
  accepted := by
    obtain ⟨new, hnew⟩ := outputLines_prefix hD w.written bytes
    simp only [hnew]
    rcases h.accepted with ⟨haccepted, hwhy⟩ | ⟨_, hstart, hthrown⟩
    · have hbad := (hwhy hreader).resolve_left hw
      refine .inl ⟨by rw [records_append_of_unreadable hbad, haccepted], fun _ => .inr ?_⟩
      obtain ⟨bad, hmem, hunreadable⟩ := hbad
      exact ⟨bad, mem_append_left _ hmem, hunreadable⟩
    · exact .inr ⟨hreader, hstart.trans (records_left _ _), hthrown⟩

lemma Reads.chunk (hD : D.Chunked) (h : w.Reads D parse listen)
    (bytes : List UInt8) : (w.chunk D parse listen bytes).Reads D parse listen := by
  by_cases hw : w.ended = true
  · rw [chunk_of_ended hw]
    exact h
  cases hreader : w.reader with
  | none =>
    rw [chunk_of_unread hw hreader]
    exact h.unread hD hw hreader bytes
  | some reader =>
    obtain ⟨s, buffer⟩ := reader
    obtain ⟨hs, hbuffer⟩ := h.decoder s buffer hreader
    have hreadable := h.reading (by rw [hreader]; rintro ⟨⟩)
    have haccepted : w.process.accepted = records parse (outputLines D w.written) := by
      rcases h.accepted with heq | hended
      · exact heq.1
      · rw [hreader] at hended
        cases hended.1
    have hwhole : lines '\n' (decoded D (w.written ++ bytes)) =
        (outputLines D w.written ++ (newLines D s buffer bytes).1,
          (newLines D s buffer bytes).2) := by
      rw [hs, hbuffer]
      exact lines_decoded_append hD w.written bytes
    have hlines : outputLines D (w.written ++ bytes) =
        outputLines D w.written ++ (newLines D s buffer bytes).1 := by
      rw [outputLines, hwhole]
    have hrecords : w.process.accepted ++ records parse (newLines D s buffer bytes).1 =
        records parse (outputLines D (w.written ++ bytes)) := by
      rw [haccepted, hlines, records_append hreadable]
    have hspec : Reading parse listen (newLines D s buffer bytes).1 w.process _ :=
      reading_lines (newLines D s buffer bytes).1 w.process
    obtain ⟨⟨p, thrown⟩, hrun⟩ : ∃ r,
        readLines parse listen (newLines D s buffer bytes).1 w.process = r := ⟨_, rfl⟩
    rw [hrun] at hspec
    cases thrown with
    | none =>
      rw [chunk_of_through hw hreader hrun]
      obtain ⟨hreadable', haccepted'⟩ := hspec.through rfl
      refine ⟨hspec.settles h.settles, ?_, fun _ line hline => ?_, fun h => (by cases h),
        .inl ⟨?_, fun h => ?_⟩⟩
      · rintro s' buffer' heq
        cases heq
        rw [hwhole, hD.append, ← hs]
        exact ⟨rfl, rfl⟩
      · rw [hlines] at hline
        exact (mem_append.mp hline).elim (hreadable line) (hreadable' line)
      · rw [← hrecords]
        exact haccepted'
      · cases h
    | some thrown =>
      rw [chunk_of_stopped hw hreader hrun]
      have hstopped := hspec.stopped (by rintro ⟨⟩)
      rw [hrecords] at hstopped
      have hkept := kept_fail thrown.message p
      refine ⟨hkept.settles (hspec.settles h.settles), fun _ _ heq => (by cases heq),
        fun hne => absurd rfl hne, fun _ => .inr (fail_state _ p), ?_⟩
      show (p.fail thrown.message).accepted = _ ∧ _ ∨
        _ ∧ (p.fail thrown.message).accepted <+: _ ∧
          (listen (p.fail thrown.message).delivered).thrown.isSome
      rw [hkept.accepted, hkept.delivered]
      refine hstopped.imp (fun h => ⟨h.2, fun _ => .inr ?_⟩) fun h => ⟨rfl, h⟩
      obtain ⟨bad, hmem, hunreadable⟩ := h.1
      refine ⟨bad, ?_, hunreadable⟩
      show bad ∈ outputLines D (w.written ++ bytes)
      rw [hlines]
      exact mem_append_right _ hmem

lemma Reads.step (hD : D.Chunked) (h : w.Reads D parse listen) (e : Event) :
    (w.step D parse listen e).Reads D parse listen := by
  cases e with
  | call c => exact @Reads.kept _ _ _ _ _ h (·.call c) (kept_call w.process c)
  | requestFailed id => exact h.kept (kept_requestFailed id w.process)
  | chunk bytes => exact h.chunk hD bytes
  | outputError =>
    show w.outputError.Reads D parse listen
    unfold outputError
    split
    · rename_i hreader
      exact hreader ▸ h.ends
    · exact h.endsFailing .error
  | outputEnd =>
    show (w.outputEnd D).Reads D parse listen
    unfold outputEnd
    split
    · rename_i hreader
      exact hreader ▸ h.ends
    · split_ifs
      · exact h.ends
      · exact h.endsFailing .error
  | exit => exact h.kept (kept_fail _ w.process)
  | cleaned => exact h.kept (kept_cleaned w.process)
  | cleanupFailed message => exact h.kept (kept_cleanupFailed message w.process)
  | disposed => exact h.kept (kept_disposed w.process)
  | disposeFailed message => exact h.kept (kept_disposeFailed message w.process)

lemma Reads.run (hD : D.Chunked) (h : w.Reads D parse listen)
    (events : List Event) : (w.run D parse listen events).Reads D parse listen := by
  induction events generalizing w with
  | nil => exact h
  | cons e events ih => exact ih (h.step hD e)

/-! ### Other chunks -/

lemma chunk_append (hD : D.Chunked) (w : Agent σ) (as bs : List UInt8) :
    w.chunk D parse listen (as ++ bs) = (w.chunk D parse listen as).chunk D parse listen bs := by
  by_cases hw : w.ended = true
  · rw [chunk_of_ended hw, chunk_of_ended hw, chunk_of_ended hw]
  cases hreader : w.reader with
  | none =>
    have hunread : ({ w with written := w.written ++ as } : Agent σ).ended ≠ true := hw
    rw [chunk_of_unread hw hreader, chunk_of_unread hw hreader, chunk_of_unread hunread hreader,
      append_assoc]
  | some reader =>
    obtain ⟨s, buffer⟩ := reader
    have hcut : newLines D s buffer (as ++ bs) =
        ((newLines D s buffer as).1 ++
            (newLines D (D.decode s as).1 (newLines D s buffer as).2 bs).1,
          (newLines D (D.decode s as).1 (newLines D s buffer as).2 bs).2) := by
      rw [newLines, hD.append, ← append_assoc]
      exact lines_append '\n' _ _
    obtain ⟨⟨p, thrown⟩, hrun⟩ : ∃ r,
        readLines parse listen (newLines D s buffer as).1 w.process = r := ⟨_, rfl⟩
    cases thrown with
    | some thrown =>
      have hwhole : readLines parse listen (newLines D s buffer (as ++ bs)).1 w.process =
          (p, some thrown) := by
        rw [hcut, readLines_append_of_some (by rw [hrun]), hrun]
      have hunread : ({ w with process := p, written := w.written ++ as }.stop thrown).ended ≠
          true := hw
      rw [chunk_of_stopped hw hreader hrun, chunk_of_stopped hw hreader hwhole,
        chunk_of_unread hunread rfl, ← append_assoc]
      rfl
    | none =>
      have hw' : ({ w with
          process := p
          reader := some ((D.decode s as).1, (newLines D s buffer as).2)
          written := w.written ++ as } : Agent σ).ended ≠ true := hw
      rw [chunk_of_through hw hreader hrun]
      obtain ⟨⟨q, thrown⟩, hrest⟩ : ∃ r, readLines parse listen
          (newLines D (D.decode s as).1 (newLines D s buffer as).2 bs).1 p = r := ⟨_, rfl⟩
      have hwhole : readLines parse listen (newLines D s buffer (as ++ bs)).1 w.process =
          (q, thrown) := by
        rw [hcut, readLines_append_of_none (by rw [hrun]), hrun, hrest]
      cases thrown with
      | some thrown =>
        rw [chunk_of_stopped hw hreader hwhole, chunk_of_stopped hw' rfl hrest, append_assoc]
        rfl
      | none =>
        rw [chunk_of_through hw hreader hwhole, chunk_of_through hw' rfl hrest, append_assoc,
          hcut, hD.append]

lemma Reads.chunk_nil (hD : D.Chunked) (h : w.Reads D parse listen) :
    w.chunk D parse listen [] = w := by
  by_cases hw : w.ended = true
  · exact chunk_of_ended hw []
  cases hreader : w.reader with
  | none => rw [chunk_of_unread hw hreader, append_nil]
  | some reader =>
    obtain ⟨s, buffer⟩ := reader
    have hnew : newLines D s buffer [] = ([], buffer) := by
      rw [newLines, hD.nil, append_nil, (h.decoder s buffer hreader).2]
      exact Prod.ext (lines_rest _ _) (rest_rest _ _)
    have hrun : readLines parse listen (newLines D s buffer []).1 w.process =
        (w.process, none) := by
      rw [hnew]
      rfl
    rw [chunk_of_through hw hreader hrun, hnew, hD.nil, append_nil, ← hreader]

lemma Reads.run_chunks (hD : D.Chunked) (h : w.Reads D parse listen) (cs : List (List UInt8)) :
    w.run D parse listen (cs.map .chunk) = w.chunk D parse listen cs.flatten := by
  induction cs generalizing w with
  | nil => exact (h.chunk_nil hD).symm
  | cons c cs ih =>
    rw [flatten_cons, chunk_append hD]
    exact ih (h.chunk hD c)

/-- A process that is not open stays so. -/
lemma ended_step (h : w.process.state ≠ .open) (e : Event) :
    (w.step D parse listen e).process.state ≠ .open := by
  cases e with
  | call c => exact (kept_call w.process c).ended h
  | requestFailed id => exact fail_state _ w.process
  | chunk bytes =>
    show (w.chunk D parse listen bytes).process.state ≠ .open
    by_cases hw : w.ended = true
    · rwa [chunk_of_ended hw]
    cases hreader : w.reader with
    | none => rwa [chunk_of_unread hw hreader]
    | some reader =>
      obtain ⟨s, buffer⟩ := reader
      have hspec : Reading parse listen (newLines D s buffer bytes).1 w.process _ :=
        reading_lines (newLines D s buffer bytes).1 w.process
      obtain ⟨⟨p, thrown⟩, hrun⟩ : ∃ r,
          readLines parse listen (newLines D s buffer bytes).1 w.process = r := ⟨_, rfl⟩
      rw [hrun] at hspec
      cases thrown with
      | none =>
        rw [chunk_of_through hw hreader hrun]
        exact hspec.ended h
      | some thrown =>
        rw [chunk_of_stopped hw hreader hrun]
        exact fail_state _ p
  | outputError =>
    show w.outputError.process.state ≠ .open
    unfold outputError
    split
    · exact h
    · exact fail_state _ w.process
  | outputEnd =>
    show (w.outputEnd D).process.state ≠ .open
    unfold outputEnd
    split
    · exact h
    · split_ifs
      · exact h
      · exact fail_state _ w.process
  | exit => exact fail_state _ w.process
  | cleaned => exact (kept_cleaned w.process).ended h
  | cleanupFailed message => exact (kept_cleanupFailed message w.process).ended h
  | disposed => exact (kept_disposed w.process).ended h
  | disposeFailed message => exact (kept_disposeFailed message w.process).ended h

end Agent

/-- The process exits, or a caller gives it up or fails to send. -/
def Event.Ends : Event → Prop
  | .call .request   => False
  | .call _          => True
  | .requestFailed _ => True
  | .exit            => True
  | _                => False

/-- The same events, with the output cut into other chunks. -/
inductive Recut : List Event → List Event → Prop
  | nil : Recut [] []
  | cons (e : Event) {es es' : List Event} : Recut es es' → Recut (e :: es) (e :: es')
  | chunks (cs cs' : List (List UInt8)) {es es' : List Event} : cs.flatten = cs'.flatten →
      Recut es es' → Recut (cs.map .chunk ++ es) (cs'.map .chunk ++ es')

namespace Agent

variable {w : Agent σ}

lemma ended_of_ends {e : Event} (he : e.Ends) :
    (w.step D parse listen e).process.state ≠ .open := by
  cases e with
  | call c =>
    cases c with
    | request => exact he.elim
    | sendFailed => exact fail_state _ w.process
    | dispose => exact dispose_state w.process
  | requestFailed id => exact fail_state _ w.process
  | exit => exact fail_state _ w.process
  | chunk _ | outputError | outputEnd | cleaned | cleanupFailed _ | disposed | disposeFailed _ =>
    exact he.elim

lemma ended_run {events : List Event} (h : w.process.state ≠ .open ∨ ∃ e ∈ events, e.Ends) :
    (w.run D parse listen events).process.state ≠ .open := by
  induction events generalizing w with
  | nil =>
    rcases h with h | ⟨_, hmem, _⟩
    · exact h
    · cases hmem
  | cons e events ih =>
    refine ih ?_
    rcases h with h | ⟨e', hmem, he⟩
    · exact .inl (ended_step h e)
    · rcases mem_cons.mp hmem with rfl | hmem
      · exact .inl (ended_of_ends he)
      · exact .inr ⟨e', hmem, he⟩

lemma Reads.run_recut (hD : D.Chunked) (h : w.Reads D parse listen)
    {events events' : List Event} (hcut : Recut events events') :
    w.run D parse listen events' = w.run D parse listen events := by
  induction hcut generalizing w with
  | nil => rfl
  | cons e _ ih => exact ih (h.step hD e)
  | chunks cs cs' hflatten _ ih =>
    show foldl _ w _ = foldl _ w _
    rw [foldl_append, foldl_append]
    show (w.run D parse listen (cs'.map .chunk)).run D parse listen _ =
      (w.run D parse listen (cs.map .chunk)).run D parse listen _
    rw [h.run_chunks hD, h.run_chunks hD, hflatten]
    exact ih (h.chunk hD cs'.flatten)

end Agent

/-- An issued request was settled once if it is no longer pending, and never if it is. -/
lemma Process.Settles.count (h : p.Settles) {n : ℕ} (hn : 1 ≤ n) (hnext : n < p.next) :
    (p.settled.map Prod.fst).count (requestId n) = if requestId n ∈ p.pending then 0 else 1 := by
  have hissued : requestId n ∈ p.settled.map Prod.fst ++ p.pending :=
    h.perm.mem_iff.mpr (mem_map_of_mem (Ico.mem.mpr ⟨hn, hnext⟩))
  have hone := count_eq_one_of_mem h.issued_nodup hissued
  rw [count_append] at hone
  split_ifs with hpending
  · have hpos := count_pos_iff.mpr hpending
    omega
  · rw [count_eq_zero_of_not_mem hpending] at hone
    exact hone

/-- The decoder of plain ASCII output. -/
def ascii : Decoder Unit UInt8 Char :=
  .ofStep () (fun _ byte => ((), [Char.ofNat byte.toNat])) fun _ => []

/-- The response to the first request, and its record. -/
def firstResponse : List Char := "\x7b\"id\":\"coforge-1\"\x7d".toList

def parseFirst (text : List Char) : Option Json :=
  if text = firstResponse then some (.obj [("id", .str "coforge-1")]) else none

def bytesOf (text : List Char) : List UInt8 := text.map fun c => c.val.toUInt8

def quietListeners (_ : List Json) : Reaction := ⟨[], none⟩

def responseInTwo : List Event :=
  [.call .request, .chunk (bytesOf (firstResponse.take 7)),
    .chunk (bytesOf (firstResponse.drop 7 ++ ['\n']))]

end Coforge.CodeAgent
