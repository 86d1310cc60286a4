import Coforge.Files.Messages

/-!
# Round trips of workspace files

What each encoder accepts its decoder gives back, but for the read results: the encoder only
measures the text of a file, and its decoder refuses control characters, and the encoder writes any
time, and its decoder refuses those from `2 ^ 53` on. Every value that a decoder gives back is
encoded again.
-/

namespace Coforge.Files

open Wire List
open Protocol (utf16Length maxSafeInteger isSafeInteger)

/-! ### Validations give their value back -/

lemma text_eq_ok {value value' : String} {max : ℕ} : text value max = .ok value' ↔
    value' = value ∧ utf16Length value ≤ max ∧ value.toList.any controlChar = false := by
  rw [text]
  by_cases h : max < utf16Length value ∨ value.toList.any controlChar
  · rw [if_pos h]
    refine iff_of_false (by rintro ⟨⟩) ?_
    rintro ⟨-, hle, hclean⟩
    rw [hclean] at h
    rcases h with h | h
    · omega
    · cases h
  · rw [if_neg h, Except.ok.injEq, eq_comm]
    rw [not_or, not_lt, Bool.not_eq_true] at h
    exact (and_iff_left h).symm

lemma relativePath_eq_ok {value value' : String} (h : relativePath value = .ok value') :
    value' = value ∧ utf16Length value ≤ 4096 := by
  rw [relativePath] at h
  split_ifs at h with hbad
  cases h
  rw [not_or, not_lt] at hbad
  exact ⟨rfl, hbad.1⟩

lemma scopeIds_eq_ok {value : Scope} (h : scopeIds value = .ok ()) :
    ∀ id ∈ [value.requestId, value.workspaceId, value.computerId, value.agentId], idPattern id :=
  check_eq_ok.mp h

lemma listRequest_eq_ok {value request : AgentWorkspaceFilesListRequest}
    (h : listRequest value = .ok request) : request = value := by
  rw [listRequest, check_bind_eq_ok] at h
  obtain ⟨hmajor, h⟩ := h
  obtain ⟨-, -, h⟩ := bind_eq_ok.mp h
  obtain ⟨dirPath, hdir, h⟩ := bind_eq_ok.mp h
  rw [pure_eq_ok] at h
  rw [← h, (relativePath_eq_ok hdir).1, ← hmajor]

lemma readRequest_eq_ok {value request : AgentWorkspaceFileReadRequest}
    (h : readRequest value = .ok request) : request = value := by
  rw [readRequest, check_bind_eq_ok] at h
  obtain ⟨hmajor, h⟩ := h
  obtain ⟨-, -, h⟩ := bind_eq_ok.mp h
  obtain ⟨path, hpath, h⟩ := bind_eq_ok.mp h
  rw [pure_eq_ok] at h
  rw [← h, (relativePath_eq_ok hpath).1, ← hmajor]

lemma validateStatusAndRoot_eq_ok {status rootPath : String} {head : String × String}
    (h : validateStatusAndRoot status rootPath = .ok head) : head = (status, rootPath) := by
  rw [validateStatusAndRoot, check_bind_eq_ok] at h
  obtain ⟨-, h⟩ := h
  obtain ⟨root, hroot, h⟩ := bind_eq_ok.mp h
  rw [pure_eq_ok] at h
  rw [← h, (text_eq_ok.mp hroot).1]

/-! ### Entries -/

lemma uint64_eq_ok {n : Int} {m : ℕ} : uint64 n = .ok m ↔ n = m ∧ n < 2 ^ 64 := by
  rw [uint64]
  split_ifs with h
  · rw [Except.ok.injEq]
    omega
  · refine iff_of_false (by rintro ⟨⟩) ?_
    omega

lemma isSafeInteger_iff {n : Int} : isSafeInteger n ↔ -maxSafeInteger ≤ n ∧ n ≤ maxSafeInteger := by
  rw [isSafeInteger, Bool.and_eq_true, decide_eq_true_eq, decide_eq_true_eq]

lemma entry_of_entryMessage {e e' : AgentWorkspaceFileEntry} {m : AgentWorkspaceFileEntryMessage}
    (hvalid : validateEntry e = .ok e') (hm : entryMessage e' = .ok m) :
    e' = e ∧ entry m = .ok e := by
  rw [validateEntry, check_bind_eq_ok, check_bind_eq_ok] at hvalid
  obtain ⟨htype, ⟨hsize, -, htime, -⟩, hvalid⟩ := hvalid
  obtain ⟨name, hname, hvalid⟩ := bind_eq_ok.mp hvalid
  rw [pure_eq_ok] at hvalid
  obtain ⟨rfl, hlength, hclean⟩ := text_eq_ok.mp hname
  subst hvalid
  obtain ⟨size, hsize', hm⟩ := bind_eq_ok.mp hm
  obtain ⟨time, htime', hm⟩ := bind_eq_ok.mp hm
  rw [pure_eq_ok] at hm
  subst hm
  obtain ⟨heqs, -⟩ := uint64_eq_ok.mp hsize'
  obtain ⟨heqt, -⟩ := uint64_eq_ok.mp htime'
  refine ⟨rfl, ?_⟩
  rw [entry, check_bind_eq_ok, check_bind_eq_ok]
  refine ⟨htype, ⟨?_, ?_⟩, ?_⟩
  · rw [← heqs]
    exact (isSafeInteger_iff.mp hsize).2
  · rw [← heqt]
    exact (isSafeInteger_iff.mp htime).2
  · rw [hname, ok_bind, pure_eq_ok, ← heqs, ← heqt]

lemma entryMessage_of_entry {e : AgentWorkspaceFileEntry} {m : AgentWorkspaceFileEntryMessage}
    (h : entry m = .ok e) : validateEntry e = .ok e ∧ entryMessage e = .ok m := by
  rw [entry, check_bind_eq_ok, check_bind_eq_ok] at h
  obtain ⟨htype, ⟨hsize, htime⟩, h⟩ := h
  obtain ⟨name, hname, h⟩ := bind_eq_ok.mp h
  rw [pure_eq_ok] at h
  subst h
  have hsafe : ∀ n : ℕ, (n : Int) ≤ maxSafeInteger → isSafeInteger n ∧ uint64 n = .ok n := by
    intro n hn
    refine ⟨isSafeInteger_iff.mpr ⟨?_, hn⟩, uint64_eq_ok.mpr ⟨rfl, ?_⟩⟩
    · rw [maxSafeInteger]
      omega
    · rw [maxSafeInteger] at hn
      omega
  obtain ⟨hname', -, -⟩ := text_eq_ok.mp hname
  refine ⟨?_, ?_⟩
  · rw [validateEntry, check_bind_eq_ok, check_bind_eq_ok]
    refine ⟨htype, ⟨(hsafe _ hsize).1, Int.natCast_nonneg _, (hsafe _ htime).1,
      Int.natCast_nonneg _⟩, ?_⟩
    rw [hname'] at hname ⊢
    rw [hname, ok_bind]
    rfl
  · rw [entryMessage, (hsafe _ hsize).2, (hsafe _ htime).2, ok_bind, ok_bind, pure_eq_ok, hname']

lemma entries_written {es es' : List AgentWorkspaceFileEntry}
    {ms : List AgentWorkspaceFileEntryMessage} (hvalid : es.mapM validateEntry = .ok es')
    (hms : es'.mapM entryMessage = .ok ms) : ms.mapM entry = .ok es ∧ ms.length = es.length := by
  induction es generalizing es' ms with
  | nil =>
    cases hvalid
    cases hms
    exact ⟨rfl, rfl⟩
  | cons e es ih =>
    rw [mapM_cons] at hvalid
    obtain ⟨e', he', hvalid⟩ := bind_eq_ok.mp hvalid
    obtain ⟨rest, hrest, hvalid⟩ := bind_eq_ok.mp hvalid
    rw [pure_eq_ok] at hvalid
    subst hvalid
    rw [mapM_cons] at hms
    obtain ⟨m, hm, hms⟩ := bind_eq_ok.mp hms
    obtain ⟨rest', hrest', hms⟩ := bind_eq_ok.mp hms
    rw [pure_eq_ok] at hms
    subst hms
    obtain ⟨hes, hlength⟩ := ih hrest hrest'
    rw [mapM_cons, (entry_of_entryMessage he' hm).2, ok_bind, hes, ok_bind, length_cons,
      length_cons, hlength]
    exact ⟨rfl, rfl⟩

lemma entries_read {ms : List AgentWorkspaceFileEntryMessage} {es : List AgentWorkspaceFileEntry}
    (h : ms.mapM entry = .ok es) :
    es.mapM validateEntry = .ok es ∧ es.mapM entryMessage = .ok ms ∧ es.length = ms.length := by
  induction ms generalizing es with
  | nil =>
    cases h
    exact ⟨rfl, rfl, rfl⟩
  | cons m ms ih =>
    rw [mapM_cons] at h
    obtain ⟨e, he, h⟩ := bind_eq_ok.mp h
    obtain ⟨rest, hrest, h⟩ := bind_eq_ok.mp h
    rw [pure_eq_ok] at h
    subst h
    obtain ⟨hvalid, hmessage⟩ := entryMessage_of_entry he
    obtain ⟨hvalids, hmessages, hlength⟩ := ih hrest
    rw [mapM_cons, mapM_cons, hvalid, hvalids, hmessage, hmessages, length_cons,
      length_cons, hlength]
    exact ⟨rfl, rfl, rfl⟩

/-! ### Content -/

lemma encodeBase64_injective : Function.Injective encodeBase64 := by
  intro a b h
  have ha := decodeBase64_eq_ok_iff.mpr (rfl : encodeBase64 a = _)
  have hb := decodeBase64_eq_ok_iff.mpr (rfl : encodeBase64 b = _)
  rw [h, hb] at ha
  exact (Except.ok.inj ha).symm

lemma contentText_eq_empty {content : List UInt8} (h : contentText content = "") :
    content = [] := by
  rw [contentText] at h
  split_ifs at h with hpos
  · exact encodeBase64_eq_nil (String.ofList_inj.mp h)
  · exact length_eq_zero_iff.mp (Nat.eq_zero_of_not_pos hpos)

lemma contentText_eq {content : List UInt8} (h : content ≠ []) :
    contentText content = String.ofList (encodeBase64 content) := by
  rw [contentText, if_pos (length_pos_iff.mpr h)]

lemma contentText_injective : Function.Injective contentText := by
  intro a b h
  by_cases hb : b = []
  · subst hb
    exact contentText_eq_empty h
  · by_cases ha : a = []
    · subst ha
      exact (contentText_eq_empty h.symm).symm
    · rw [contentText_eq ha, contentText_eq hb] at h
      exact encodeBase64_injective (String.ofList_inj.mp h)

lemma readResultContent_eq_ok {contentType contentBase64 : String} {media : String × List UInt8}
    (h : readResultContent contentType contentBase64 = .ok media) :
    media.1 = contentType ∧ contentText media.2 = contentBase64 := by
  obtain ⟨t, ht, hmedia⟩ := bind_eq_ok.mp h
  clear h
  obtain ⟨rfl, -, -⟩ := text_eq_ok.mp ht
  by_cases hempty : contentBase64 = ""
  · rw [if_pos hempty, check_bind_eq_ok, pure_eq_ok] at hmedia
    obtain ⟨rfl, rfl⟩ := hmedia
    rw [hempty]
    exact ⟨rfl, rfl⟩
  · rw [if_neg hempty, check_bind_eq_ok, check_bind_eq_ok] at hmedia
    obtain ⟨-, -, hmedia⟩ := hmedia
    obtain ⟨content, hcontent, hmedia⟩ := bind_eq_ok.mp hmedia
    rw [check_bind_eq_ok, pure_eq_ok] at hmedia
    obtain ⟨-, rfl⟩ := hmedia
    have hencode := decodeBase64_eq_ok_iff.mp hcontent
    have hne : content ≠ [] := by
      rintro rfl
      refine hempty (String.toList_inj.mp ?_)
      rw [← hencode]
      rfl
    rw [contentText_eq hne, hencode, String.ofList_toList]
    exact ⟨rfl, rfl⟩

/-! ### Requests and lists -/

lemma listRequest_givesBack : agentWorkspaceFilesListRequest.GivesBack Eq fun _ => True := by
  intro value m h
  obtain ⟨request, hrequest, h⟩ := bind_eq_ok.mp h
  rw [pure_eq_ok] at h
  subst h
  obtain rfl := listRequest_eq_ok hrequest
  exact iff_of_true ⟨request, check_bind_eq_ok.mpr ⟨rfl, hrequest⟩, rfl⟩ trivial

lemma listRequest_writesBack : agentWorkspaceFilesListRequest.WritesBack := by
  intro m value h
  obtain ⟨htype, hrequest⟩ := check_bind_eq_ok.mp h
  obtain rfl := listRequest_eq_ok hrequest
  refine bind_eq_ok.mpr ⟨_, hrequest, ?_⟩
  rw [pure_eq_ok, ← htype]

lemma readRequest_givesBack : agentWorkspaceFileReadRequest.GivesBack Eq fun _ => True := by
  intro value m h
  obtain ⟨request, hrequest, h⟩ := bind_eq_ok.mp h
  rw [pure_eq_ok] at h
  subst h
  obtain rfl := readRequest_eq_ok hrequest
  exact iff_of_true ⟨request, check_bind_eq_ok.mpr ⟨rfl, hrequest⟩, rfl⟩ trivial

lemma readRequest_writesBack : agentWorkspaceFileReadRequest.WritesBack := by
  intro m value h
  obtain ⟨htype, hrequest⟩ := check_bind_eq_ok.mp h
  obtain rfl := readRequest_eq_ok hrequest
  refine bind_eq_ok.mpr ⟨_, hrequest, ?_⟩
  rw [pure_eq_ok, ← htype]

lemma listResult_givesBack : agentWorkspaceFilesListResult.GivesBack Eq fun _ => True := by
  intro value m h
  obtain ⟨head, hhead, h⟩ := bind_eq_ok.mp h
  obtain ⟨hcount, h⟩ := check_bind_eq_ok.mp h
  obtain ⟨entries, hentries, h⟩ := bind_eq_ok.mp h
  obtain ⟨request, hrequest, h⟩ := bind_eq_ok.mp h
  obtain ⟨messages, hmessages, h⟩ := bind_eq_ok.mp h
  rw [pure_eq_ok] at h
  subst h
  obtain rfl := listRequest_eq_ok hrequest
  obtain rfl := validateStatusAndRoot_eq_ok hhead
  obtain ⟨hread, hlength⟩ := entries_written hentries hmessages
  have hresult : listResult value.status value.rootPath messages =
      .ok ((value.status, value.rootPath), value.entries) := by
    rw [listResult, check_bind_eq_ok, hhead, ok_bind, hread, ok_bind, pure_eq_ok]
    exact ⟨hlength ▸ hcount, rfl⟩
  refine iff_of_true ⟨value, check_bind_eq_ok.mpr ⟨rfl, ?_⟩, rfl⟩ trivial
  refine bind_eq_ok.mpr ⟨_, hrequest, bind_eq_ok.mpr ⟨_, hresult, rfl⟩⟩

lemma listResult_writesBack : agentWorkspaceFilesListResult.WritesBack := by
  intro m value h
  obtain ⟨htype, h⟩ := check_bind_eq_ok.mp h
  obtain ⟨request, hrequest, h⟩ := bind_eq_ok.mp h
  obtain ⟨⟨head, entries⟩, hresult, h⟩ := bind_eq_ok.mp h
  rw [pure_eq_ok] at h
  subst h
  obtain rfl := listRequest_eq_ok hrequest
  rw [listResult, check_bind_eq_ok] at hresult
  obtain ⟨hcount, hresult⟩ := hresult
  obtain ⟨head', hhead, hresult⟩ := bind_eq_ok.mp hresult
  obtain ⟨entries', hentries, hresult⟩ := bind_eq_ok.mp hresult
  rw [pure_eq_ok] at hresult
  cases hresult
  obtain rfl := validateStatusAndRoot_eq_ok hhead
  obtain ⟨hvalid, hmessages, hlength⟩ := entries_read hentries
  refine bind_eq_ok.mpr ⟨_, hhead, check_bind_eq_ok.mpr ⟨hlength ▸ hcount, ?_⟩⟩
  refine bind_eq_ok.mpr ⟨_, hvalid, bind_eq_ok.mpr ⟨_, hrequest, ?_⟩⟩
  refine bind_eq_ok.mpr ⟨_, hmessages, ?_⟩
  rw [pure_eq_ok, ← htype]

/-! ### Read results -/

/-- The text has no control character but tabs and line ends, and the time is one that a number
holds exactly. -/
def AgentWorkspaceFileReadResult.Readable (value : AgentWorkspaceFileReadResult) : Prop :=
  value.text.toList.any controlChar = false ∧ value.modifiedAtMs ≤ maxSafeInteger

lemma readResult_givesBack :
    agentWorkspaceFileReadResult.GivesBack Eq AgentWorkspaceFileReadResult.Readable := by
  intro value m h
  obtain ⟨hstatus, h⟩ := check_bind_eq_ok.mp h
  obtain ⟨⟨-, hsafe, hlength⟩, h⟩ := check_bind_eq_ok.mp h
  obtain ⟨⟨contentType, content⟩, hmedia, h⟩ := bind_eq_ok.mp h
  obtain ⟨hone, h⟩ := check_bind_eq_ok.mp h
  obtain ⟨request, hrequest, h⟩ := bind_eq_ok.mp h
  obtain ⟨size, hsize, h⟩ := bind_eq_ok.mp h
  obtain ⟨time, htime, h⟩ := bind_eq_ok.mp h
  rw [pure_eq_ok] at h
  subst h
  obtain rfl := readRequest_eq_ok hrequest
  obtain ⟨hsize', -⟩ := uint64_eq_ok.mp hsize
  obtain ⟨htime', -⟩ := uint64_eq_ok.mp htime
  obtain ⟨htype, hcontent⟩ := readResultContent_eq_ok hmedia
  change contentType = value.contentType at htype
  change contentText content = value.contentBase64 at hcontent
  subst htype
  constructor
  · rintro ⟨value', hread, -⟩
    obtain ⟨⟨-, -, -, hmax⟩, hread⟩ := check_bind_eq_ok.mp hread
    obtain ⟨t, ht, -⟩ := bind_eq_ok.mp hread
    exact ⟨(text_eq_ok.mp ht).2.2, htime' ▸ hmax⟩
  · rintro ⟨hclean, hmax⟩
    have ht : text value.text maxTextBytes = .ok value.text :=
      text_eq_ok.mpr ⟨rfl, hlength, hclean⟩
    rw [← hcontent] at hmedia
    refine ⟨value, check_bind_eq_ok.mpr ⟨⟨rfl, hstatus, ?_, htime' ▸ hmax⟩, ?_⟩, rfl⟩
    · rw [← hsize']
      exact (isSafeInteger_iff.mp hsafe).2
    · refine bind_eq_ok.mpr ⟨_, ht, bind_eq_ok.mpr ⟨_, hmedia, ?_⟩⟩
      refine check_bind_eq_ok.mpr ⟨hone, bind_eq_ok.mpr ⟨_, hrequest, ?_⟩⟩
      rw [pure_eq_ok, ← hsize', ← htime', hcontent]

lemma readResult_writesBack : agentWorkspaceFileReadResult.WritesBack := by
  intro m value h
  obtain ⟨⟨hmessage, hstatus, hsize, htime⟩, h⟩ := check_bind_eq_ok.mp h
  obtain ⟨t, ht, h⟩ := bind_eq_ok.mp h
  obtain ⟨⟨contentType, content⟩, hmedia, h⟩ := bind_eq_ok.mp h
  obtain ⟨hone, h⟩ := check_bind_eq_ok.mp h
  obtain ⟨request, hrequest, h⟩ := bind_eq_ok.mp h
  rw [pure_eq_ok] at h
  subst h
  obtain rfl := readRequest_eq_ok hrequest
  obtain ⟨rfl, hlength, -⟩ := text_eq_ok.mp ht
  obtain ⟨htype, hcontent⟩ := readResultContent_eq_ok hmedia
  change contentType = m.contentType at htype
  have hcontent' : content = m.content := contentText_injective hcontent
  subst htype hcontent'
  have huint : ∀ n : ℕ, (n : Int) ≤ maxSafeInteger → uint64 n = .ok n := by
    intro n hn
    rw [maxSafeInteger] at hn
    exact uint64_eq_ok.mpr ⟨rfl, by omega⟩
  have hsafe : isSafeInteger (m.sizeBytes : Int) := by
    refine isSafeInteger_iff.mpr ⟨?_, hsize⟩
    rw [maxSafeInteger]
    omega
  refine check_bind_eq_ok.mpr ⟨hstatus, ?_⟩
  refine check_bind_eq_ok.mpr ⟨⟨Int.natCast_nonneg _, hsafe, hlength⟩, ?_⟩
  refine bind_eq_ok.mpr ⟨_, hmedia, check_bind_eq_ok.mpr ⟨hone, ?_⟩⟩
  refine bind_eq_ok.mpr ⟨_, hrequest, bind_eq_ok.mpr ⟨_, huint _ hsize, ?_⟩⟩
  refine bind_eq_ok.mpr ⟨_, huint _ htime, ?_⟩
  rw [pure_eq_ok, ← hmessage]

/-! ### The library -/

/-- The number of bytes of a text. -/
def utf8Length (s : String) : ℕ := (s.toList.map Char.utf8Size).sum

/-- The most bytes of a message with few fields, which takes one byte for the number of a field, 5
for the length of a text and 10 for a number. -/
def fieldsSize (texts : List String) (numbers : ℕ) : ℕ :=
  (texts.map fun s => utf8Length s + 6).sum + 11 * numbers

/-- Every message of the schema is read back, what is read is written in no more bytes, and the
bytes of a request are those of its fields. -/
structure Library.Lawful {B : Type} (w : Library B) : Prop where
  listRequest : w.listRequest.Faithful
  listResult : w.listResult.Faithful
  readRequest : w.readRequest.Faithful
  readResult : w.readResult.Faithful
  listRequest_compact : w.listRequest.Compact w.size
  listResult_compact : w.listResult.Compact w.size
  readRequest_compact : w.readRequest.Compact w.size
  readResult_compact : w.readResult.Compact w.size
  listRequest_size : ∀ m b, w.listRequest.toBinary m = .ok b → w.size b ≤
    fieldsSize [m.requestId, m.workspaceId, m.computerId, m.agentId, m.dirPath, m.messageType] 2
  readRequest_size : ∀ m b, w.readRequest.toBinary m = .ok b → w.size b ≤
    fieldsSize [m.requestId, m.workspaceId, m.computerId, m.agentId, m.path, m.messageType] 1

lemma utf8Length_le (s : String) : utf8Length s ≤ 4 * s.toList.length := by
  rw [utf8Length]
  induction s.toList with
  | nil => rfl
  | cons c cs ih =>
    have hc := c.utf8Size_le_four
    rw [map_cons, sum_cons, length_cons]
    omega

lemma length_le_utf16Length (s : String) : s.toList.length ≤ utf16Length s := by
  rw [utf16Length]
  induction s.toList with
  | nil => exact Nat.zero_le _
  | cons c cs ih =>
    rw [map_cons, sum_cons, length_cons]
    split_ifs <;> omega

lemma utf8Length_id {id : String} (h : idPattern id) : utf8Length id ≤ 512 := by
  have hlength : id.toList.length ≤ 128 := by
    rw [idPattern] at h
    split at h
    · cases h
    · rename_i c cs heq
      rw [heq, length_cons]
      simp only [Bool.and_eq_true, decide_eq_true_eq] at h
      omega
  have := utf8Length_le id
  omega

lemma utf8Length_listRequestType : utf8Length listRequestType ≤ 64 := by decide

lemma utf8Length_readRequestType : utf8Length readRequestType ≤ 64 := by decide

lemma fieldsSize_le {value : Scope} {path path' messageType : String} {n : ℕ}
    (hscope : scopeIds value = .ok ()) (hpath : relativePath path = .ok path')
    (htype : utf8Length messageType ≤ 64) (hn : n ≤ 2) :
    fieldsSize [value.requestId, value.workspaceId, value.computerId, value.agentId, path,
      messageType] n ≤ rpcPayloadMaxBytes := by
  have hids := scopeIds_eq_ok hscope
  have h₁ := utf8Length_id (hids value.requestId (by simp))
  have h₂ := utf8Length_id (hids value.workspaceId (by simp))
  have h₃ := utf8Length_id (hids value.computerId (by simp))
  have h₄ := utf8Length_id (hids value.agentId (by simp))
  have h₅ := utf8Length_le path
  have h₆ := length_le_utf16Length path
  have h₇ := (relativePath_eq_ok hpath).2
  rw [fieldsSize, rpcPayloadMaxBytes]
  simp only [map_cons, map_nil, sum_cons, sum_nil]
  omega

namespace Library

variable {B : Type} {w : Library B}

lemma bounded_toBinary {M : Type} {s : Serializer M B String} {max : ℕ} {m : M} {b : B} :
    (w.bounded s max).toBinary m = .ok b ↔ s.toBinary m = .ok b ∧ w.size b ≤ max := by
  constructor
  · intro h
    obtain ⟨b', hb', h⟩ := bind_eq_ok.mp h
    rw [check_bind_eq_ok, pure_eq_ok] at h
    obtain ⟨hsize, rfl⟩ := h
    exact ⟨hb', hsize⟩
  · rintro ⟨hb, hsize⟩
    refine bind_eq_ok.mpr ⟨b, hb, ?_⟩
    rw [check_bind_eq_ok, pure_eq_ok]
    exact ⟨hsize, rfl⟩

lemma Lawful.encode_listRequest (hw : w.Lawful) (value : AgentWorkspaceFilesListRequest) (b : B) :
    encodeAgentWorkspaceFilesListRequest w value = .ok b ↔
      agentWorkspaceFilesListRequest.encode (w.bounded w.listRequest rpcPayloadMaxBytes) value =
        .ok b := by
  constructor
  · intro h
    obtain ⟨m, hm, hb⟩ := bind_eq_ok.mp h
    refine bind_eq_ok.mpr ⟨m, hm, bounded_toBinary.mpr ⟨hb, ?_⟩⟩
    obtain ⟨request, hrequest, hm⟩ := bind_eq_ok.mp hm
    rw [pure_eq_ok] at hm
    subst hm
    obtain rfl := listRequest_eq_ok hrequest
    obtain ⟨-, hrequest⟩ := check_bind_eq_ok.mp hrequest
    obtain ⟨_, hscope, hrequest⟩ := bind_eq_ok.mp hrequest
    obtain ⟨path, hpath, -⟩ := bind_eq_ok.mp hrequest
    exact (hw.listRequest_size _ b hb).trans
      (fieldsSize_le hscope hpath utf8Length_listRequestType (Nat.le_refl 2))
  · intro h
    obtain ⟨m, hm, hb⟩ := bind_eq_ok.mp h
    exact bind_eq_ok.mpr ⟨m, hm, (bounded_toBinary.mp hb).1⟩

lemma Lawful.encode_readRequest (hw : w.Lawful) (value : AgentWorkspaceFileReadRequest) (b : B) :
    encodeAgentWorkspaceFileReadRequest w value = .ok b ↔
      agentWorkspaceFileReadRequest.encode (w.bounded w.readRequest rpcPayloadMaxBytes) value =
        .ok b := by
  constructor
  · intro h
    obtain ⟨m, hm, hb⟩ := bind_eq_ok.mp h
    refine bind_eq_ok.mpr ⟨m, hm, bounded_toBinary.mpr ⟨hb, ?_⟩⟩
    obtain ⟨request, hrequest, hm⟩ := bind_eq_ok.mp hm
    rw [pure_eq_ok] at hm
    subst hm
    obtain rfl := readRequest_eq_ok hrequest
    obtain ⟨-, hrequest⟩ := check_bind_eq_ok.mp hrequest
    obtain ⟨_, hscope, hrequest⟩ := bind_eq_ok.mp hrequest
    obtain ⟨path, hpath, -⟩ := bind_eq_ok.mp hrequest
    exact (hw.readRequest_size _ b hb).trans
      (fieldsSize_le hscope hpath utf8Length_readRequestType (by omega))
  · intro h
    obtain ⟨m, hm, hb⟩ := bind_eq_ok.mp h
    exact bind_eq_ok.mpr ⟨m, hm, (bounded_toBinary.mp hb).1⟩

/-- What is encoded is decoded as it was, just where the condition holds. -/
def Returned {V : Type} (encode : V → Except String B) (decode : B → Except String V)
    (cond : V → Prop) : Prop :=
  ∀ value b, encode value = .ok b → (decode b = .ok value ↔ cond value)

/-- What is decoded is encoded again, and decoded again as it was. -/
def Repeats {V : Type} (encode : V → Except String B) (decode : B → Except String V) : Prop :=
  ∀ b value, decode b = .ok value → ∃ b', encode value = .ok b' ∧ decode b' = .ok value

/-- The four messages make the round trip, the read results where they are readable. -/
structure RoundTrips (w : Library B) : Prop where
  listRequest : Returned (encodeAgentWorkspaceFilesListRequest w)
    (decodeAgentWorkspaceFilesListRequest w) fun _ => True
  listResult : Returned (encodeAgentWorkspaceFilesListResult w)
    (decodeAgentWorkspaceFilesListResult w) fun _ => True
  readRequest : Returned (encodeAgentWorkspaceFileReadRequest w)
    (decodeAgentWorkspaceFileReadRequest w) fun _ => True
  readResult : Returned (encodeAgentWorkspaceFileReadResult w)
    (decodeAgentWorkspaceFileReadResult w) AgentWorkspaceFileReadResult.Readable
  listRequest_repeats : Repeats (encodeAgentWorkspaceFilesListRequest w)
    (decodeAgentWorkspaceFilesListRequest w)
  listResult_repeats : Repeats (encodeAgentWorkspaceFilesListResult w)
    (decodeAgentWorkspaceFilesListResult w)
  readRequest_repeats : Repeats (encodeAgentWorkspaceFileReadRequest w)
    (decodeAgentWorkspaceFileReadRequest w)
  readResult_repeats : Repeats (encodeAgentWorkspaceFileReadResult w)
    (decodeAgentWorkspaceFileReadResult w)

lemma returned_of_readsBack {V M : Type} {c : Codec V M String} {s : Serializer M B String}
    {cond : V → Prop} (h : c.ReadsBack s Eq cond) : Returned (c.encode s) (c.decode s) cond := by
  intro value b hb
  rw [← h value b hb]
  constructor
  · intro hdecode
    exact ⟨value, hdecode, rfl⟩
  · rintro ⟨value', hdecode, rfl⟩
    exact hdecode

theorem Lawful.roundTrips (hw : w.Lawful) : w.RoundTrips where
  listRequest value b hb := by
    have hback := listRequest_givesBack.readsBack (hw.listRequest.bounded w.size rpcPayloadMaxBytes
      "Workspace Files payload too large")
    exact returned_of_readsBack hback value b ((hw.encode_listRequest value b).mp hb)
  listResult := returned_of_readsBack
    (listResult_givesBack.readsBack (hw.listResult.bounded w.size _ _))
  readRequest value b hb := by
    have hback := readRequest_givesBack.readsBack (hw.readRequest.bounded w.size rpcPayloadMaxBytes
      "Workspace Files payload too large")
    exact returned_of_readsBack hback value b ((hw.encode_readRequest value b).mp hb)
  readResult := returned_of_readsBack
    (readResult_givesBack.readsBack (hw.readResult.bounded w.size _ _))
  listRequest_repeats b value h := by
    obtain ⟨b', hb', hdecode⟩ := listRequest_writesBack.encodesAgain
      (hw.listRequest.bounded w.size _ _) (hw.listRequest_compact.bounded _ _) b value h
    exact ⟨b', (hw.encode_listRequest value b').mpr hb', hdecode⟩
  listResult_repeats := listResult_writesBack.encodesAgain
    (hw.listResult.bounded w.size _ _) (hw.listResult_compact.bounded _ _)
  readRequest_repeats b value h := by
    obtain ⟨b', hb', hdecode⟩ := readRequest_writesBack.encodesAgain
      (hw.readRequest.bounded w.size _ _) (hw.readRequest_compact.bounded _ _) b value h
    exact ⟨b', (hw.encode_readRequest value b').mpr hb', hdecode⟩
  readResult_repeats := readResult_writesBack.encodesAgain
    (hw.readResult.bounded w.size _ _) (hw.readResult_compact.bounded _ _)

end Library

/-! ### A library whose bytes are messages -/

/-- The bytes of one message, of one of the schemas. -/
inductive Packet where
  | listRequest (m : AgentWorkspaceFilesListRequestMessage)
  | listResult (m : AgentWorkspaceFilesListResultMessage)
  | readRequest (m : AgentWorkspaceFileReadRequestMessage)
  | readResult (m : AgentWorkspaceFileReadResultMessage)
deriving DecidableEq

def Packet.size : Packet → ℕ
  | .listRequest m => fieldsSize
      [m.requestId, m.workspaceId, m.computerId, m.agentId, m.dirPath, m.messageType] 2
  | .listResult m => fieldsSize
      ([m.requestId, m.workspaceId, m.computerId, m.agentId, m.dirPath, m.messageType, m.status,
        m.rootPath] ++ m.entries.flatMap fun e => [e.name, e.type]) (2 + 3 * m.entries.length)
  | .readRequest m => fieldsSize
      [m.requestId, m.workspaceId, m.computerId, m.agentId, m.path, m.messageType] 1
  | .readResult m => fieldsSize
      [m.requestId, m.workspaceId, m.computerId, m.agentId, m.path, m.messageType, m.status, m.text,
        m.contentType] 4 + m.content.length

/-- Messages of one schema, told apart from the others. -/
def packet {M : Type} (write : M → Packet) (read : Packet → Option M) :
    Serializer M Packet String where
  toBinary m := .ok (write m)
  fromBinary b := (read b).elim (.error "invalid message") .ok

lemma packet_faithful {M : Type} {write : M → Packet} {read : Packet → Option M}
    (h : ∀ m, read (write m) = some m) : (packet write read).Faithful := by
  intro m b hb
  cases hb
  show (read (write m)).elim (Except.error "invalid message") Except.ok = Except.ok m
  rw [h m]
  rfl

lemma packet_compact {M : Type} {write : M → Packet} {read : Packet → Option M}
    (h : ∀ b m, read b = some m → write m = b) : (packet write read).Compact Packet.size := by
  intro b m hm
  refine ⟨write m, rfl, ?_⟩
  cases hread : read b with
  | none =>
    have hm' : (read b).elim (Except.error "invalid message") Except.ok = Except.ok m := hm
    rw [hread] at hm'
    cases hm'
  | some m' =>
    have hm' : (read b).elim (Except.error "invalid message") Except.ok = Except.ok m := hm
    rw [hread] at hm'
    obtain rfl := Except.ok.inj hm'
    rw [h b m' hread]

def Packet.listRequest? : Packet → Option AgentWorkspaceFilesListRequestMessage
  | .listRequest m => some m
  | _              => none

def Packet.listResult? : Packet → Option AgentWorkspaceFilesListResultMessage
  | .listResult m => some m
  | _             => none

def Packet.readRequest? : Packet → Option AgentWorkspaceFileReadRequestMessage
  | .readRequest m => some m
  | _              => none

def Packet.readResult? : Packet → Option AgentWorkspaceFileReadResultMessage
  | .readResult m => some m
  | _             => none

def packets : Library Packet where
  size := Packet.size
  listRequest := packet .listRequest Packet.listRequest?
  listResult := packet .listResult Packet.listResult?
  readRequest := packet .readRequest Packet.readRequest?
  readResult := packet .readResult Packet.readResult?

lemma packets_lawful : packets.Lawful where
  listRequest := packet_faithful fun _ => rfl
  listResult := packet_faithful fun _ => rfl
  readRequest := packet_faithful fun _ => rfl
  readResult := packet_faithful fun _ => rfl
  listRequest_compact := packet_compact fun b m h => by cases b <;> cases h; rfl
  listResult_compact := packet_compact fun b m h => by cases b <;> cases h; rfl
  readRequest_compact := packet_compact fun b m h => by cases b <;> cases h; rfl
  readResult_compact := packet_compact fun b m h => by cases b <;> cases h; rfl
  listRequest_size m b h := by
    cases h
    exact Nat.le_refl _
  readRequest_size m b h := by
    cases h
    exact Nat.le_refl _

/-- A small file with a text. -/
def fileWith (text : String) : AgentWorkspaceFileReadResult where
  protocolMajor := 1
  requestId := "request"
  workspaceId := "workspace"
  computerId := "computer"
  agentId := "agent"
  path := "notes.txt"
  status := "ok"
  sizeBytes := 3
  modifiedAtMs := 1700000000000
  text
  contentType := ""
  contentBase64 := ""

/-- The bytes of `fileWith`. -/
def bytesWith (text : String) : Packet :=
  .readResult { fileWith text with messageType := readResultType, sizeBytes := 3,
                                   modifiedAtMs := 1700000000000, content := [] }

/-- A file of two words and a tab is read back. -/
theorem roundTrips_tab :
    encodeAgentWorkspaceFileReadResult packets (fileWith "a\tb") = .ok (bytesWith "a\tb") ∧
      decodeAgentWorkspaceFileReadResult packets (bytesWith "a\tb") = .ok (fileWith "a\tb") := by
  have hencode : encodeAgentWorkspaceFileReadResult packets (fileWith "a\tb") =
      .ok (bytesWith "a\tb") := by decide
  have hreadable : (fileWith "a\tb").Readable := ⟨by decide, by decide⟩
  exact ⟨hencode, (packets_lawful.roundTrips.readResult _ _ hencode).mpr hreadable⟩

/-- A file with a form feed is encoded, and its bytes are refused by the decoder. -/
theorem form_feed_is_refused :
    encodeAgentWorkspaceFileReadResult packets (fileWith "a\x0cb") = .ok (bytesWith "a\x0cb") ∧
      decodeAgentWorkspaceFileReadResult packets (bytesWith "a\x0cb") =
        .error "Invalid Workspace Files metadata" := by
  decide

end Coforge.Files
