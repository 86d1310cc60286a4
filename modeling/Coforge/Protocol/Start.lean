import Coforge.Protocol.Deliveries

/-!
# Start intents

A start intent is written with few checks on what it recovers: a recovery message may lack its ids
or its target, an unread count may be 0, and a resume may come without a session. Its decoder
refuses all of these.
-/

namespace Coforge.Protocol

open Wire
open AgentSessions (RuntimeProvider SessionMode)

/-! ### What an intent recovers -/

/-- A message that a start brings, with the word for its sender or a text. -/
structure RecoveryMessage (Kind : Type) where
  messageId : String
  deliveryId : String
  conversationId : String
  sequence : Int
  target : String
  latestSenderKind : Kind
  latestSenderHandle : String
  latestSenderDescription : String
  body : String
  nonMemberMention : Option Bool
deriving DecidableEq

abbrev AgentRecoveryMessage := RecoveryMessage MessageSenderKind

abbrev AgentRecoveryMessageMessage := RecoveryMessage String

def AgentRecoveryMessage.message (value : AgentRecoveryMessage) : AgentRecoveryMessageMessage :=
  { value with latestSenderKind := Vocabulary.name value.latestSenderKind }

def AgentRecoveryMessage.normal (value : AgentRecoveryMessage) : AgentRecoveryMessage :=
  { value with nonMemberMention := value.nonMemberMention.filter id }

/-- The checks on a recovery message that is written. -/
def assertRecoveryMessage (message : AgentRecoveryMessage) : Except String Unit := do
  check (message.body ≠ "") "Agent recovery body is required"
  assertUint message.sequence maxSafeInteger "Agent recovery sequence"
  check (isValidMessageSender (Vocabulary.name message.latestSenderKind) message.latestSenderHandle)
    "invalid Agent recovery message sender"

/-- The checks on a recovery message that is read. -/
def AgentRecoveryMessageMessage.valid (message : AgentRecoveryMessageMessage) : Bool :=
  message.messageId ≠ "" && message.deliveryId ≠ "" && message.conversationId ≠ "" &&
    message.body ≠ "" && isMessageTarget message.target && 1 ≤ message.sequence &&
    message.sequence ≤ maxSafeInteger &&
    isValidMessageSender message.latestSenderKind message.latestSenderHandle

def recoveryMessage (message : AgentRecoveryMessageMessage) : Except String AgentRecoveryMessage := do
  let latestSenderKind ← word message.latestSenderKind "invalid agent recovery context"
  return {
    message with
    latestSenderKind
    nonMemberMention := if message.nonMemberMention = some true then some true else none }

/-- A recovery message that its decoder accepts. -/
structure AgentRecoveryMessage.Complete (message : AgentRecoveryMessage) : Prop where
  messageId : message.messageId ≠ ""
  deliveryId : message.deliveryId ≠ ""
  conversationId : message.conversationId ≠ ""
  target : isMessageTarget message.target
  sequence : 1 ≤ message.sequence

lemma recoveryMessage_message (message : AgentRecoveryMessage) :
    recoveryMessage message.message = .ok message.normal := by
  rw [recoveryMessage, AgentRecoveryMessage.message, word_name, ok_bind, filter_true]
  rfl

@[simp] lemma AgentRecoveryMessage.normal_normal (message : AgentRecoveryMessage) :
    message.normal.normal = message.normal := by
  rw [AgentRecoveryMessage.normal, AgentRecoveryMessage.normal, filter_filter_true]

lemma AgentRecoveryMessage.normal_comp_normal :
    AgentRecoveryMessage.normal ∘ AgentRecoveryMessage.normal = AgentRecoveryMessage.normal :=
  funext normal_normal

lemma valid_message {message : AgentRecoveryMessage} (h : assertRecoveryMessage message = .ok ()) :
    AgentRecoveryMessageMessage.valid message.message ↔ message.Complete := by
  simp only [assertRecoveryMessage, bind_eq_ok, check_eq_ok, assertUint, exists_const] at h
  obtain ⟨hbody, ⟨hsafe, -⟩, hsender⟩ := h
  have hle := le_of_isSafeInteger hsafe
  simp only [AgentRecoveryMessageMessage.valid, Bool.and_eq_true, decide_eq_true_eq]
  constructor
  · rintro ⟨⟨⟨⟨⟨⟨⟨hmessage, hdelivery⟩, hconversation⟩, -⟩, htarget⟩, hsequence⟩, -⟩, -⟩
    exact ⟨hmessage, hdelivery, hconversation, htarget, hsequence⟩
  · rintro ⟨hmessage, hdelivery, hconversation, htarget, hsequence⟩
    exact ⟨⟨⟨⟨⟨⟨⟨hmessage, hdelivery⟩, hconversation⟩, hbody⟩, htarget⟩, hsequence⟩, hle⟩, hsender⟩

/-- The unread counts of targets, each named once. -/
structure UnreadSummary where
  entries : List (String × Int)
  distinct : (entries.map Prod.fst).Nodup
deriving DecidableEq

/-- The summary of entries, unless a target is named twice. -/
def readUnreadSummary (entries : List (String × Int)) : Except String (Option UnreadSummary) :=
  if distinct : (entries.map Prod.fst).Nodup then
    .ok (if entries ≠ [] then some ⟨entries, distinct⟩ else none)
  else .error "invalid agent recovery context"

/-- `AgentRuntimeProviderConfig`. -/
inductive ProviderConfig where
  | default
  | coforge (providerId : String)
deriving DecidableEq

structure ProviderConfigMessage where
  kind : String
  providerId : String
deriving DecidableEq

def parseAgentRuntimeProviderConfig (kind : String) (providerId : Option String) :
    Except String ProviderConfig :=
  match kind, providerId with
  | "default", none => .ok .default
  | "coforge", some providerId =>
    if providerId ≠ "" then .ok (.coforge providerId)
    else .error "invalid Agent runtime provider config"
  | _, _ => .error "invalid Agent runtime provider config"

def ProviderConfig.kind : ProviderConfig → String
  | .default => "default"
  | .coforge _ => "coforge"

def ProviderConfig.providerId : ProviderConfig → Option String
  | .default => none
  | .coforge providerId => some providerId

def ProviderConfig.message (config : ProviderConfig) : ProviderConfigMessage :=
  { kind := config.kind, providerId := config.providerId.getD "" }

/-- Parses an optional provider configuration. -/
def parseProviderConfig (config : Option (String × Option String)) :
    Except String (Option ProviderConfig) :=
  match config with
  | none => .ok none
  | some (kind, providerId) => (parseAgentRuntimeProviderConfig kind providerId).map some

/-! ### Start intents -/

structure AgentStartIntent where
  protocolMajor : Int
  requestId : String
  workspaceId : String
  computerId : String
  agentId : String
  provider : RuntimeProvider
  model : String
  modelProvider : Option String
  reasoning : String
  sessionId : Option String
  sessionMode : Option SessionMode
  previousLaunchId : Option String
  controlEpoch : Option Int
  launchId : Option String
  toolProfile : Option MemoryAgentToolProfile
  providerConfig : Option ProviderConfig
  wakeMessage : Option AgentRecoveryMessage
  resumeMessages : Option (List AgentRecoveryMessage)
  unreadSummary : Option UnreadSummary
  resumePrompt : Option String
deriving DecidableEq

structure AgentStartIntentMessage where
  protocolMajor : Int
  requestId : String
  workspaceId : String
  computerId : String
  agentId : String
  provider : String
  model : String
  modelProvider : String
  reasoning : String
  sessionId : String
  sessionMode : Option String
  previousLaunchId : Option String
  controlEpoch : Option Int
  launchId : Option String
  toolProfile : Option String
  providerConfig : Option ProviderConfigMessage
  messageType : String
  wakeMessage : Option AgentRecoveryMessageMessage
  resumeMessages : List AgentRecoveryMessageMessage
  unreadSummary : List (String × Int)
  resumePrompt : Option String
deriving DecidableEq

/-- `AGENT_START_MESSAGE_TYPE`. -/
def agentStartMessageType : String := "coforge.rpc.v1.AgentStartIntent"

/-- `AGENT_RESUME_PROMPT_MAX_LENGTH`. -/
def agentResumePromptMaxLength : Nat := 8192

def assertResumePrompt (prompt : Option String) (hasRecovery : Bool) (kind : String) :
    Except String Unit :=
  match prompt with
  | none => .ok ()
  | some prompt => do
    check (!blank prompt) (kind ++ " blank resume prompt")
    check (utf16Length prompt ≤ agentResumePromptMaxLength) (kind ++ " resume prompt is too long")
    check (!hasRecovery) (kind ++ " resume prompt cannot carry message recovery")

/-- The wake message, then the resume messages. -/
def AgentStartIntent.recoveryMessages (value : AgentStartIntent) : List AgentRecoveryMessage :=
  value.wakeMessage.toList ++ value.resumeMessages.getD []

def AgentStartIntentMessage.recoveryMessages (v : AgentStartIntentMessage) :
    List AgentRecoveryMessageMessage :=
  v.wakeMessage.toList ++ v.resumeMessages

/-- The entries of the unread summary. -/
def AgentStartIntent.unread (value : AgentStartIntent) : List (String × Int) :=
  (value.unreadSummary.map UnreadSummary.entries).getD []

/-- An unread count that is read. -/
def validUnread (entry : String × Int) : Bool := isMessageTarget entry.1 && 1 ≤ entry.2

def AgentStartIntent.message (value : AgentStartIntent) (providerConfig : Option ProviderConfig) :
    AgentStartIntentMessage :=
  { protocolMajor := value.protocolMajor
    requestId := value.requestId
    workspaceId := value.workspaceId
    computerId := value.computerId
    agentId := value.agentId
    provider := Vocabulary.name value.provider
    model := value.model
    modelProvider := value.modelProvider.getD ""
    reasoning := value.reasoning
    sessionId := value.sessionId.getD ""
    sessionMode := value.sessionMode.map Vocabulary.name
    previousLaunchId := value.previousLaunchId
    controlEpoch := value.controlEpoch
    launchId := value.launchId
    toolProfile := value.toolProfile.map Vocabulary.name
    providerConfig := providerConfig.map ProviderConfig.message
    messageType := agentStartMessageType
    wakeMessage := value.wakeMessage.map AgentRecoveryMessage.message
    resumeMessages := (value.resumeMessages.getD []).map AgentRecoveryMessage.message
    unreadSummary := value.unread
    resumePrompt := value.resumePrompt }

/-- `encodeAgentStartIntent`, but for the bytes. -/
def writeAgentStartIntent (value : AgentStartIntent) : Except String AgentStartIntentMessage := do
  assertResumePrompt value.resumePrompt
    (value.wakeMessage.isSome || value.resumeMessages.getD [] ≠ [] || value.unread ≠ [])
    "invalid Agent start"
  assertOptional (assertPositiveControlCounter · "Agent control epoch") value.controlEpoch
  check (value.controlEpoch.isSome → ∃ id ∈ value.launchId, !blank id)
    "managed Agent start intent requires a launchId"
  check (∀ id ∈ value.launchId, !blank id ∧ utf16Length id ≤ 512) "invalid Agent start launchId"
  check ((value.resumeMessages.getD []).length ≤ 100) "Agent recovery resumeMessages exceeds 100"
  check ((value.recoveryMessages.map (·.messageId)).Nodup ∧
    (value.recoveryMessages.map (·.deliveryId)).Nodup) "invalid agent recovery context"
  forM value.recoveryMessages assertRecoveryMessage
  forM value.unread fun entry => assertUint entry.2 (2 ^ 32 - 1) "Agent unread count"
  let providerConfig ← parseProviderConfig
    (value.providerConfig.map fun config => (config.kind, config.providerId))
  return value.message providerConfig

/-- `decodeAgentStartIntent`, but for the bytes. -/
def readAgentStartIntent (v : AgentStartIntentMessage) : Except String AgentStartIntent := do
  check (v.messageType = agentStartMessageType ∧ v.requestId ≠ "" ∧ v.workspaceId ≠ "" ∧
    v.computerId ≠ "" ∧ v.agentId ≠ "" ∧ v.provider ≠ "") "invalid agent start intent"
  let provider ← word v.provider ("unsupported runtime provider: " ++ v.provider)
  assertOptional (assertPositiveControlCounter · "Agent control epoch") v.controlEpoch
  check (v.controlEpoch.isSome → ∃ id ∈ v.launchId, !blank id)
    "invalid agent start intent: managed start requires a launchId"
  check (∀ id ∈ v.launchId, utf16Length id ≤ 512) "invalid agent start intent launchId"
  let toolProfile ← optionalWord v.toolProfile
    ("unsupported Agent tool profile: " ++ v.toolProfile.getD "")
  check (v.resumeMessages.length ≤ 100 ∧
    (∀ message ∈ v.recoveryMessages, AgentRecoveryMessageMessage.valid message) ∧
    (v.recoveryMessages.map (·.messageId)).Nodup ∧ (v.recoveryMessages.map (·.deliveryId)).Nodup ∧
    (∀ entry ∈ v.unreadSummary, validUnread entry)) "invalid agent recovery context"
  let unreadSummary ← readUnreadSummary v.unreadSummary
  let sessionMode ← optionalWord v.sessionMode "invalid Agent session mode"
  check (sessionMode = some .resume → v.sessionId ≠ "") "Agent resume requires a session ID"
  assertResumePrompt v.resumePrompt (v.recoveryMessages ≠ [] || v.unreadSummary ≠ [])
    "invalid agent start intent:"
  let providerConfig ← parseProviderConfig
    (v.providerConfig.map fun config => (config.kind, unlessEmpty config.providerId))
  let wakeMessage ← v.wakeMessage.mapM recoveryMessage
  let resumeMessages ← v.resumeMessages.mapM recoveryMessage
  return {
    protocolMajor := v.protocolMajor
    requestId := v.requestId
    workspaceId := v.workspaceId
    computerId := v.computerId
    agentId := v.agentId
    provider
    model := v.model
    modelProvider := some v.modelProvider
    reasoning := v.reasoning
    sessionId := unlessEmpty v.sessionId
    sessionMode
    previousLaunchId := filled v.previousLaunchId
    controlEpoch := v.controlEpoch
    launchId := filled v.launchId
    toolProfile
    providerConfig
    wakeMessage
    resumeMessages := if resumeMessages ≠ [] then some resumeMessages else none
    unreadSummary
    resumePrompt := v.resumePrompt }

def agentStartIntent : Codec AgentStartIntent AgentStartIntentMessage String where
  write := writeAgentStartIntent
  read := readAgentStartIntent

/-- The intent, with a field that is empty or false left out. -/
def AgentStartIntent.normal (value : AgentStartIntent) : AgentStartIntent :=
  { value with
    modelProvider := filled value.modelProvider
    sessionId := filled value.sessionId
    previousLaunchId := filled value.previousLaunchId
    launchId := filled value.launchId
    wakeMessage := value.wakeMessage.map AgentRecoveryMessage.normal
    resumeMessages := (value.resumeMessages.map (·.map AgentRecoveryMessage.normal)).filter (· ≠ [])
    unreadSummary := value.unreadSummary.filter (·.entries ≠ []) }

def AgentStartIntent.Same (value value' : AgentStartIntent) : Prop := value.normal = value'.normal

/-- An intent that its decoder accepts. -/
structure AgentStartIntent.Complete (value : AgentStartIntent) : Prop where
  requestId : value.requestId ≠ ""
  workspaceId : value.workspaceId ≠ ""
  computerId : value.computerId ≠ ""
  agentId : value.agentId ≠ ""
  recovery : ∀ message ∈ value.recoveryMessages, message.Complete
  unread : ∀ entry ∈ value.unread, validUnread entry
  /-- What is resumed is a session. -/
  session : value.sessionMode = some .resume → value.sessionId.getD "" ≠ ""

/-! ### What is read of an intent that is written -/

lemma readUnreadSummary_unread (value : AgentStartIntent) :
    readUnreadSummary value.unread = .ok (value.unreadSummary.filter (·.entries ≠ [])) := by
  rw [AgentStartIntent.unread]
  cases value.unreadSummary with
  | none => rfl
  | some summary =>
    rw [Option.map_some, Option.getD_some, readUnreadSummary, dif_pos summary.distinct,
      Option.filter_some]
    by_cases h : summary.entries = [] <;> simp [h]

lemma recoveryMessages_message (value : AgentStartIntent) (config : Option ProviderConfig) :
    (value.message config).recoveryMessages =
      value.recoveryMessages.map AgentRecoveryMessage.message := by
  rw [AgentStartIntentMessage.recoveryMessages, AgentStartIntent.recoveryMessages, List.map_append]
  congr 1
  cases h : value.wakeMessage <;> simp [AgentStartIntent.message, h]

lemma assertResumePrompt_kind {prompt : Option String} {hasRecovery hasRecovery' : Bool}
    {kind kind' : String} (h : assertResumePrompt prompt hasRecovery kind = .ok ())
    (hrecovery : hasRecovery' = hasRecovery) :
    assertResumePrompt prompt hasRecovery' kind' = .ok () := by
  subst hrecovery
  cases prompt with
  | none => rfl
  | some prompt =>
    simp only [assertResumePrompt, bind_eq_ok, check_eq_ok, exists_const] at h ⊢
    exact h

lemma parseProviderConfig_eq_ok {config config' : Option ProviderConfig}
    (h : parseProviderConfig (config.map fun c => (c.kind, c.providerId)) = .ok config') :
    config' = config ∧ parseProviderConfig
      ((config'.map ProviderConfig.message).map fun c => (c.kind, unlessEmpty c.providerId)) =
        .ok config' := by
  cases config with
  | none =>
    cases h
    exact ⟨rfl, rfl⟩
  | some config =>
    cases config with
    | default =>
      cases h
      exact ⟨rfl, rfl⟩
    | coforge providerId =>
      by_cases hid : providerId = ""
      · subst hid
        cases h
      · have hparse : parseAgentRuntimeProviderConfig "coforge" (some providerId) =
            .ok (.coforge providerId) := if_pos hid
        have hread : parseProviderConfig
            ((some (ProviderConfig.coforge providerId)).map fun c => (c.kind, c.providerId)) =
              .ok (some (.coforge providerId)) := by
          change (parseAgentRuntimeProviderConfig "coforge" (some providerId)).map some = _
          rw [hparse]
          rfl
        obtain rfl := Except.ok.inj (hread.symm.trans h)
        refine ⟨rfl, ?_⟩
        change (parseAgentRuntimeProviderConfig "coforge" (unlessEmpty providerId)).map some = _
        rw [unlessEmpty, if_neg hid, hparse]
        rfl

lemma name_runtimeProvider_ne (provider : RuntimeProvider) : Vocabulary.name provider ≠ "" := by
  cases provider <;> decide

theorem agentStartIntent_givesBack :
    agentStartIntent.GivesBack AgentStartIntent.Same AgentStartIntent.Complete := by
  intro value m hm
  simp only [agentStartIntent, writeAgentStartIntent, bind_eq_ok, pure_eq_ok, check_eq_ok,
    exists_const] at hm
  obtain ⟨_, hprompt, _, hepoch, hmanaged, hlaunch, hlength, hdistinct, _, hmessages, _, hcounts,
    config, hconfig, rfl⟩ := hm
  obtain ⟨rfl, hconfig⟩ := parseProviderConfig_eq_ok hconfig
  have hwake : (value.wakeMessage.map AgentRecoveryMessage.message).mapM recoveryMessage =
      .ok (value.wakeMessage.map AgentRecoveryMessage.normal) := by
    cases value.wakeMessage with
    | none => rfl
    | some message =>
      rw [Option.map_some, Option.mapM_some, recoveryMessage_message]
      rfl
  have hresume : ((value.resumeMessages.getD []).map AgentRecoveryMessage.message).mapM
      recoveryMessage = .ok ((value.resumeMessages.getD []).map AgentRecoveryMessage.normal) := by
    rw [List.mapM_map]
    exact mapM_eq_ok fun message _ => recoveryMessage_message message
  have hrecovery : (decide (value.recoveryMessages.map AgentRecoveryMessage.message ≠ []) ||
      decide (value.unread ≠ [])) =
        (value.wakeMessage.isSome || value.resumeMessages.getD [] ≠ [] || value.unread ≠ []) := by
    rw [AgentStartIntent.recoveryMessages]
    congr 1
    cases value.wakeMessage <;> simp
  have hmapped : ∀ f : AgentRecoveryMessageMessage → String,
      (value.message value.providerConfig).recoveryMessages.map f =
        value.recoveryMessages.map fun message => f message.message := by
    intro f
    rw [recoveryMessages_message, List.map_map]
    rfl
  simp only [agentStartIntent, readAgentStartIntent, bind_eq_ok, pure_eq_ok, check_eq_ok,
    exists_const, hmapped]
  simp only [recoveryMessages_message, List.forall_mem_map]
  constructor
  · rintro ⟨v', ⟨⟨-, hrequest, hworkspace, hcomputer, hagent, -⟩, _, -, _, -, -, -, _, -,
      ⟨-, hvalid, -, -, hunread⟩, _, -, mode, hmode, hsession, -⟩, -⟩
    refine ⟨hrequest, hworkspace, hcomputer, hagent, ?_, hunread, ?_⟩
    · intro message hmessage
      exact (valid_message (forM_eq_ok.mp hmessages message hmessage)).mp (hvalid message hmessage)
    · intro hresumed
      refine hsession ?_
      rw [← hresumed]
      exact Except.ok.inj (hmode.symm.trans optionalWord_name)
  · intro hcomplete
    refine ⟨_, ⟨⟨rfl, hcomplete.requestId, hcomplete.workspaceId, hcomplete.computerId,
      hcomplete.agentId, name_runtimeProvider_ne value.provider⟩, _, word_name, _, hepoch, hmanaged,
      fun id hid => (hlaunch id hid).2, _, optionalWord_name, ⟨?_, ?_, hdistinct.1, hdistinct.2,
      hcomplete.unread⟩, _, readUnreadSummary_unread value, _, optionalWord_name, hcomplete.session,
      _, assertResumePrompt_kind hprompt hrecovery, _, hconfig, _, hwake, _, hresume, rfl⟩, ?_⟩
    · exact List.length_map _ |>.trans_le hlength
    · intro message hmessage
      exact (valid_message (forM_eq_ok.mp hmessages message hmessage)).mpr
        (hcomplete.recovery message hmessage)
    · rw [AgentStartIntent.Same]
      simp only [AgentStartIntent.normal, AgentStartIntent.message, filled_some, unlessEmpty_getD,
        filled_filled, Option.map_map, AgentRecoveryMessage.normal_comp_normal,
        Option.filter_filter, Bool.and_self, AgentStartIntent.mk.injEq, true_and, and_true]
      cases value.resumeMessages with
      | none => rfl
      | some messages =>
        cases messages with
        | nil => rfl
        | cons message messages =>
          simp [AgentRecoveryMessage.normal_comp_normal]

end Coforge.Protocol
