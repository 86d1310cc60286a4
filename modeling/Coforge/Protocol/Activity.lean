import Coforge.Protocol.Start

/-!
# Activity

An activity goes through one check on both sides. All of it is read back, but for a runtime error
without a class: a message holds the error only through its class.
-/

namespace Coforge.Protocol

open Wire Option

/-! ### Trajectory entries -/

inductive ActivityContent where
  | text (text : String)
  | thinking (text : String)
  | toolStart (toolName : String) (toolInput : Option String)
  | system (title text : String)
deriving DecidableEq

/-- An entry, and the tool use of the subagent that it belongs to. -/
structure ActivityTrajectoryEntry where
  content : ActivityContent
  parentToolUseId : Option String
deriving DecidableEq

open ActivityTrajectoryEntry

/-- The `oneof` of an entry. -/
inductive ActivityContentMessage where
  | text (value : String)
  | thinking (value : String)
  | toolName (value : String)
  | system (title text : String)
deriving DecidableEq

structure ActivityTrajectoryEntryMessage where
  content : Option ActivityContentMessage
  parentToolUseId : String
  toolInput : String
deriving DecidableEq

def parseActivityEntry (entry : ActivityTrajectoryEntry) : Except String Unit := do
  check (∀ id ∈ entry.parentToolUseId, validName id) "invalid activity lineage"
  match entry.content with
  | .toolStart toolName toolInput =>
    check (validName toolName ∧ ∀ input ∈ toolInput, validToolInput input)
      "invalid activity entry payload"
  | .text text => check (codePointLength text ≤ 2000) "invalid activity entry payload"
  | .thinking text => check (codePointLength text ≤ 2000) "invalid activity entry payload"
  | .system title text =>
    check (validTitle title ∧ codePointLength text ≤ 2000) "invalid activity entry payload"

def parseActivityEntries (entries : List ActivityTrajectoryEntry) : Except String Unit := do
  check (entries.length ≤ 8) "invalid activity entries"
  forM entries parseActivityEntry

def ActivityTrajectoryEntry.message (entry : ActivityTrajectoryEntry) :
    ActivityTrajectoryEntryMessage :=
  { content := some <|
      match entry.content with
      | .toolStart toolName _ => .toolName toolName
      | .system title text => .system title text
      | .thinking text => .thinking text
      | .text text => .text text
    parentToolUseId := entry.parentToolUseId.getD ""
    toolInput :=
      match entry.content with
      | .toolStart _ toolInput => toolInput.getD ""
      | _ => "" }

def readActivityEntry (entry : ActivityTrajectoryEntryMessage) :
    Except String ActivityTrajectoryEntry :=
  let parentToolUseId := unlessEmpty entry.parentToolUseId
  match entry.content with
  | some (.toolName toolName) =>
    .ok { content := .toolStart toolName (unlessEmpty entry.toolInput), parentToolUseId }
  | some (.system title text) => .ok { content := .system title text, parentToolUseId }
  | some (.thinking text) => .ok { content := .thinking text, parentToolUseId }
  | some (.text text) => .ok { content := .text text, parentToolUseId }
  | none => .error "missing activity entry content"

def ActivityContent.normal : ActivityContent → ActivityContent
  | .toolStart toolName toolInput => .toolStart toolName (filled toolInput)
  | content => content

def ActivityTrajectoryEntry.normal (entry : ActivityTrajectoryEntry) : ActivityTrajectoryEntry :=
  { content := entry.content.normal, parentToolUseId := filled entry.parentToolUseId }

lemma readActivityEntry_message (entry : ActivityTrajectoryEntry) :
    readActivityEntry entry.message = .ok entry.normal := by
  obtain ⟨content, parent⟩ := entry
  cases content <;> simp [readActivityEntry, message, normal, ActivityContent.normal]

lemma ActivityTrajectoryEntry.normal_normal (entry : ActivityTrajectoryEntry) :
    entry.normal.normal = entry.normal := by
  obtain ⟨content, parent⟩ := entry
  cases content <;> simp [normal, ActivityContent.normal]

lemma mem_of_mem_filled {s : Option String} {t : String} (h : t ∈ filled s) : t ∈ s := by
  rw [filled, mem_filter_iff] at h
  exact h.1

lemma parseActivityEntry_normal {entry : ActivityTrajectoryEntry}
    (h : parseActivityEntry entry = .ok ()) : parseActivityEntry entry.normal = .ok () := by
  obtain ⟨content, parent⟩ := entry
  rw [parseActivityEntry, check_bind_eq_ok] at h ⊢
  obtain ⟨hparent, hcontent⟩ := h
  refine ⟨fun id hid => hparent id (mem_of_mem_filled hid), ?_⟩
  cases content with
  | toolStart toolName toolInput =>
    rw [check_eq_ok] at hcontent
    exact check_eq_ok.mpr
      ⟨hcontent.1, fun input hinput => hcontent.2 input (mem_of_mem_filled hinput)⟩
  | text text => exact hcontent
  | thinking text => exact hcontent
  | system title text => exact hcontent

lemma parseActivityEntries_normal {entries : List ActivityTrajectoryEntry}
    (h : parseActivityEntries entries = .ok ()) :
    parseActivityEntries (entries.map ActivityTrajectoryEntry.normal) = .ok () := by
  rw [parseActivityEntries, check_bind_eq_ok, forM_eq_ok] at h ⊢
  refine ⟨(List.length_map _).trans_le h.1, ?_⟩
  rw [List.forall_mem_map]
  intro entry hentry
  exact parseActivityEntry_normal (h.2 entry hentry)

/-! ### Activities -/

structure RuntimeError where
  errorClass : String
  errorReason : String
  fingerprint : String
deriving DecidableEq

/-- An activity, with its words or the texts that a message carries. -/
structure Activity (Level Kind : Type) where
  protocolMajor : Int
  requestId : String
  workspaceId : String
  agentId : String
  detailKind : String
  level : Level
  detail : String
  messageId : Option String
  conversationId : Option String
  observedAtMs : Int
  launchId : String
  clientSeq : Int
  activityKind : Option Kind
  entries : Option (List ActivityTrajectoryEntry)
  isHeartbeat : Option Bool
  probeId : Option String
  producerFactId : Option String
  runtimeError : Option RuntimeError
deriving DecidableEq

abbrev AgentActivity := Activity ActivityLevel AgentActivityKind

structure AgentActivityMessage where
  protocolMajor : Int
  requestId : String
  workspaceId : String
  agentId : String
  detailKind : String
  level : String
  detail : String
  messageId : String
  conversationId : String
  observedAtMs : Int
  launchId : String
  clientSeq : Int
  activityKind : Option String
  entries : List ActivityTrajectoryEntryMessage
  isHeartbeat : Bool
  probeId : String
  producerFactId : String
  runtimeErrorClass : String
  runtimeErrorReason : String
  runtimeErrorFingerprint : String
deriving DecidableEq

/-- The activity in texts. -/
def AgentActivity.texts (value : AgentActivity) : Activity String String :=
  { value with
    level := Vocabulary.name value.level
    activityKind := value.activityKind.map Vocabulary.name }

/-- `validateAgentActivity`: the activity in its words, where it passes. -/
def validateAgentActivity (value : Activity String String) : Except String AgentActivity := do
  forM value.entries.toList parseActivityEntries
  check (value.protocolMajor = 1 ∧ value.requestId ≠ "" ∧ value.workspaceId ≠ "" ∧
    value.agentId ≠ "" ∧ value.launchId ≠ "" ∧ isSafeInteger value.clientSeq ∧
    1 ≤ value.clientSeq ∧ value.detailKind ≠ "") "invalid agent activity"
  let level ← word value.level "invalid agent activity"
  let activityKind ← optionalWord value.activityKind "invalid agent activity"
  check (isSafeInteger value.observedAtMs ∧ 1 ≤ value.observedAtMs) "invalid agent activity"
  return { value with level, activityKind }

def AgentActivity.message (value : AgentActivity) : AgentActivityMessage :=
  { protocolMajor := value.protocolMajor
    requestId := value.requestId
    workspaceId := value.workspaceId
    agentId := value.agentId
    detailKind := value.detailKind
    level := Vocabulary.name value.level
    detail := value.detail
    messageId := value.messageId.getD ""
    conversationId := value.conversationId.getD ""
    observedAtMs := value.observedAtMs
    launchId := value.launchId
    clientSeq := value.clientSeq
    activityKind := value.activityKind.map Vocabulary.name
    entries := (value.entries.getD []).map ActivityTrajectoryEntry.message
    isHeartbeat := value.isHeartbeat.getD false
    probeId := value.probeId.getD ""
    producerFactId := value.producerFactId.getD ""
    runtimeErrorClass := (value.runtimeError.map RuntimeError.errorClass).getD ""
    runtimeErrorReason := (value.runtimeError.map RuntimeError.errorReason).getD ""
    runtimeErrorFingerprint := (value.runtimeError.map RuntimeError.fingerprint).getD "" }

/-- What `decodeAgentActivity` makes of a message, before it is checked. -/
def AgentActivityMessage.activity (v : AgentActivityMessage)
    (entries : List ActivityTrajectoryEntry) : Activity String String :=
  { protocolMajor := v.protocolMajor
    requestId := v.requestId
    workspaceId := v.workspaceId
    agentId := v.agentId
    detailKind := v.detailKind
    clientSeq := v.clientSeq
    level := v.level
    detail := v.detail
    observedAtMs := v.observedAtMs
    launchId := v.launchId
    activityKind := filled v.activityKind
    isHeartbeat := if v.isHeartbeat then some true else none
    probeId := unlessEmpty v.probeId
    producerFactId := unlessEmpty v.producerFactId
    entries := if entries ≠ [] then some entries else none
    messageId := unlessEmpty v.messageId
    conversationId := unlessEmpty v.conversationId
    runtimeError :=
      if v.runtimeErrorClass ≠ "" then
        some ⟨v.runtimeErrorClass, v.runtimeErrorReason, v.runtimeErrorFingerprint⟩
      else none }

/-- `encodeAgentActivity` and `decodeAgentActivity`, but for the bytes. -/
def agentActivity : Codec AgentActivity AgentActivityMessage String where
  write value := do
    let _ ← validateAgentActivity value.texts
    return value.message
  read v := do
    let entries ← v.entries.mapM readActivityEntry
    validateAgentActivity (v.activity entries)

/-- The activity, with a field that is empty or false left out. -/
def AgentActivity.normal (value : AgentActivity) : AgentActivity :=
  { value with
    messageId := filled value.messageId
    conversationId := filled value.conversationId
    entries := (value.entries.map (·.map ActivityTrajectoryEntry.normal)).filter (· ≠ [])
    isHeartbeat := value.isHeartbeat.filter id
    probeId := filled value.probeId
    producerFactId := filled value.producerFactId
    runtimeError := value.runtimeError.filter (· ≠ ⟨"", "", ""⟩) }

def AgentActivity.Same (value value' : AgentActivity) : Prop := value.normal = value'.normal

/-- A runtime error has a class, or is empty. -/
def AgentActivity.Classed (value : AgentActivity) : Prop :=
  ∀ error ∈ value.runtimeError, error.errorClass = "" → error = ⟨"", "", ""⟩

/-! ### What is read of an activity that is written -/

/-- What a message holds of an activity. -/
def AgentActivity.held (value : AgentActivity) : AgentActivity :=
  { value.normal with runtimeError := value.runtimeError.filter (·.errorClass ≠ "") }

lemma name_activityKind_ne (kind : AgentActivityKind) : Vocabulary.name kind ≠ "" := by
  cases kind <;> decide

lemma activity_message (value : AgentActivity) :
    value.message.activity ((value.entries.getD []).map ActivityTrajectoryEntry.normal) =
      value.held.texts := by
  have hkind : filled (value.activityKind.map Vocabulary.name) =
      value.activityKind.map Vocabulary.name := by
    cases value.activityKind with
    | none => rfl
    | some kind => rw [map_some, filled_some, unlessEmpty, if_neg (name_activityKind_ne kind)]
  have hheartbeat : (if value.message.isHeartbeat then some true else none) =
      value.isHeartbeat.filter id := by
    rw [AgentActivity.message]
    rcases value.isHeartbeat with _ | _ | _ <;> rfl
  have hentries : (if (value.entries.getD []).map normal ≠ [] then
      some ((value.entries.getD []).map normal) else none) =
        (value.entries.map (·.map normal)).filter (· ≠ []) := by
    cases value.entries with
    | none => rfl
    | some entries => cases entries <;> rfl
  have herror : (if value.message.runtimeErrorClass ≠ "" then
      some (⟨value.message.runtimeErrorClass, value.message.runtimeErrorReason,
        value.message.runtimeErrorFingerprint⟩ : RuntimeError) else none) =
        value.runtimeError.filter (·.errorClass ≠ "") := by
    rw [AgentActivity.message]
    cases value.runtimeError with
    | none => rfl
    | some error => simp [filter_some]
  simp only [AgentActivityMessage.activity, hheartbeat, hentries, herror]
  simp only [AgentActivity.message, unlessEmpty_getD, hkind]
  rfl

lemma validateAgentActivity_held {value checked : AgentActivity}
    (h : validateAgentActivity value.texts = .ok checked) :
    validateAgentActivity value.held.texts = .ok value.held := by
  simp only [validateAgentActivity, bind_eq_ok, check_eq_ok, exists_const, pure_eq_ok] at h ⊢
  obtain ⟨_, hentries, hfields, _, -, _, -, htime, -⟩ := h
  refine ⟨(), ?_, hfields, value.level, word_name, value.activityKind, optionalWord_name, htime,
    rfl⟩
  rw [forM_eq_ok] at hentries ⊢
  intro entries hmem
  change entries ∈ ((value.entries.map (·.map normal)).filter
    (· ≠ [])).toList at hmem
  have hmapped := (mem_filter_iff.mp (mem_toList.mp hmem)).1
  obtain ⟨written, hwritten, rfl⟩ := map_eq_some_iff.mp hmapped
  exact parseActivityEntries_normal (hentries written (mem_toList.mpr hwritten))

theorem agentActivity_givesBack :
    agentActivity.GivesBack AgentActivity.Same AgentActivity.Classed := by
  intro value m hm
  obtain ⟨checked, hchecked, hm⟩ := bind_eq_ok.mp hm
  obtain rfl := pure_eq_ok.mp hm
  have hread : agentActivity.read value.message = .ok value.held := by
    have hentries : value.message.entries.mapM readActivityEntry =
        .ok ((value.entries.getD []).map normal) := by
      rw [AgentActivity.message, List.mapM_map]
      exact mapM_eq_ok fun entry _ => readActivityEntry_message entry
    change (value.message.entries.mapM readActivityEntry >>= fun entries =>
      validateAgentActivity (value.message.activity entries)) = .ok value.held
    rw [hentries, ok_bind, activity_message]
    exact validateAgentActivity_held hchecked
  rw [hread]
  constructor
  · rintro ⟨v', hv', hsame⟩ error herror hclass
    obtain rfl := Except.ok.inj hv'
    have hruntime := congrArg (fun v => v.runtimeError) hsame
    simp only [AgentActivity.normal, AgentActivity.held] at hruntime
    by_contra hne
    rw [mem_def.mp herror, filter_some, filter_some] at hruntime
    simp [hclass, hne] at hruntime
  · intro hclassed
    refine ⟨value.held, rfl, ?_⟩
    have hentries : ((value.entries.map (·.map normal)).filter
        (· ≠ [])).map (·.map normal) =
          (value.entries.map (·.map normal)).filter (· ≠ []) := by
      rcases value.entries with _ | _ | ⟨entry, entries⟩
      · rfl
      · rfl
      · simp [filter_some, normal_normal]
    have herror : (value.runtimeError.filter (·.errorClass ≠ "")).filter (· ≠ ⟨"", "", ""⟩) =
        value.runtimeError.filter (· ≠ ⟨"", "", ""⟩) := by
      cases hruntime : value.runtimeError with
      | none => rfl
      | some error =>
        have hempty := hclassed error hruntime
        by_cases hclass : error.errorClass = ""
        · rw [hempty hclass]
          rfl
        · have hkept : (some error).filter (·.errorClass ≠ "") = some error :=
            filter_some_pos (by simp [hclass])
          rw [hkept]
    rw [AgentActivity.Same, AgentActivity.normal, AgentActivity.normal]
    simp only [AgentActivity.held, AgentActivity.normal, filled_filled, herror, hentries, filter_filter, Bool.and_self]

end Coforge.Protocol
