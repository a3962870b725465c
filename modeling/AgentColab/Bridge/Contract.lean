import AgentColab.Digest.Sha256
import AgentColab.Domain.Clock
import Mathlib.Tactic.SplitIfs

/-!
# The contract of the Telegram bridge

Which observed messages are relayed, and where to. The checks run in a fixed order: the loop check,
the direction of the bridge, the duplicate check, and the routing among the mappings whose both ends
are known.
-/

namespace AgentColab.Bridge

inductive Platform where
  | mattermost
  | telegram
deriving DecidableEq

def Platform.value : Platform → String
  | mattermost => "mattermost"
  | telegram => "telegram"

inductive Direction where
  | mattermostToTelegram
  | telegramToMattermost
  | bidirectional
deriving DecidableEq

def Direction.value : Direction → String
  | mattermostToTelegram => "mattermost_to_telegram"
  | telegramToMattermost => "telegram_to_mattermost"
  | bidirectional => "bidirectional"

inductive ThreadMode where
  | topicPerRoot
  | general
  | fixedTopic
deriving DecidableEq

/-- A message at its source: a post of Mattermost, or a message of the Telegram chat. -/
inductive Source where
  | post (id : String)
  | message (id : ℕ)
deriving DecidableEq

def Source.platform : Source → Platform
  | post _ => .mattermost
  | message _ => .telegram

/-- The `message_id` of an event. -/
def Source.messageId : Source → String
  | post id => id
  | message id => toString id

/-- `MAX_HOPS` -/
def maxHops : ℤ := 1

structure BridgeError where
  code : String
  detail : String

/-- `mapping_key`: the unique key of a relayed message. -/
def mappingKey (bridgeId : String) (source : Source) : String :=
  Sha256.hexDigest
    (bridgeId ++ "|" ++ source.platform.value ++ "|" ++ source.messageId).toUTF8.toList

/-- `display_prefix` -/
def displayPrefix (senderName : String) (source : Platform) : String :=
  let via := match source with
    | .telegram => "Telegram"
    | .mattermost => "Mattermost"
  "[" ++ senderName ++ " via " ++ via ++ "]"

/-- A mapping whose both ends are known, as the routing reads it. -/
structure Mapping where
  dedupeKey : String
  mmPostId : String
  mmRootId : Option String
  tgMessageId : ℕ
  tgThreadId : Option ℕ
deriving DecidableEq

structure BridgeConfig where
  bridgeId : String
  mmChannelId : String
  tgChatId : String
  direction : Direction
  tgThreadMode : ThreadMode
  tgFixedThreadId : Option ℕ
  enabled : Bool

/-- A message observed on one platform that may need relaying to the other. -/
structure InboundEvent where
  source : Source
  senderName : String
  hopCount : ℤ
  originPlatform : Option Platform
  originMessageId : Option String
  mmChannelId : Option String
  mmRootId : Option String
  tgChatId : Option String
  tgThreadId : Option ℕ
  tgReplyToMessageId : Option ℕ
  isBridgeBot : Bool

structure Target where
  platform : Platform
  tgChatId : Option String
  tgThreadId : Option ℕ
  tgReplyToMessageId : Option ℕ
  createTopic : Bool
  mmChannelId : Option String
  mmRootId : Option String
  displayPrefix : String
  originPlatform : Platform
  originMessageId : String

/-- `check_loop` -/
def checkLoop (event : InboundEvent) : Except BridgeError Unit :=
  if event.isBridgeBot then
    .error ⟨"BRIDGE_LOOP_DETECTED", "message authored by the bridge bot itself"⟩
  else if maxHops ≤ event.hopCount then
    .error ⟨"BRIDGE_LOOP_DETECTED",
      "hop_count " ++ toString event.hopCount ++ " >= " ++ toString maxHops⟩
  else if event.originPlatform ≠ none ∧ event.originPlatform ≠ some event.source.platform then
    .error ⟨"BRIDGE_LOOP_DETECTED", "origin marker points to the other platform"⟩
  else .ok ()

/-- `check_direction` -/
def checkDirection (config : BridgeConfig) (event : InboundEvent) : Except BridgeError Unit :=
  if config.enabled = false then .error ⟨"BRIDGE_DIRECTION_DENIED", "bridge disabled"⟩
  else
    let wanted : Direction := match event.source.platform with
      | .mattermost => .mattermostToTelegram
      | .telegram => .telegramToMattermost
    if config.direction ≠ .bidirectional ∧ config.direction ≠ wanted then
      .error ⟨"BRIDGE_DIRECTION_DENIED", config.direction.value ++ " forbids " ++ wanted.value⟩
    else .ok ()

/-- `check_duplicate` -/
def checkDuplicate (existing : List Mapping) (config : BridgeConfig) (event : InboundEvent) :
    Except BridgeError Unit :=
  if ∃ m ∈ existing, m.dedupeKey = mappingKey config.bridgeId event.source then
    .error ⟨"BRIDGE_DUPLICATE_SOURCE", event.source.platform.value ++ ":" ++ event.source.messageId⟩
  else .ok ()

def findByMmPost (existing : List Mapping) (postId : String) : Option Mapping :=
  existing.find? (·.mmPostId = postId)

def findByTgThread (existing : List Mapping) (threadId : Option ℕ) : Option Mapping :=
  existing.find? fun m ↦ m.tgThreadId = threadId ∧ m.mmRootId = none

def findByTgMessage (existing : List Mapping) (messageId : ℕ) : Option Mapping :=
  existing.find? (·.tgMessageId = messageId)

/-- The thread of a mapped message: `mm_root_id or mm_post_id`. -/
def Mapping.root (m : Mapping) : String := m.mmRootId.getD m.mmPostId

/-- Where a message goes on Telegram. -/
def toTelegram (config : BridgeConfig) (event : InboundEvent) (threadId replyTo : Option ℕ)
    (createTopic : Bool) : Target where
  platform := .telegram
  tgChatId := some config.tgChatId
  tgThreadId := threadId
  tgReplyToMessageId := replyTo
  createTopic := createTopic
  mmChannelId := none
  mmRootId := none
  displayPrefix := Bridge.displayPrefix event.senderName event.source.platform
  originPlatform := event.originPlatform.getD event.source.platform
  originMessageId := event.originMessageId.getD event.source.messageId

/-- Where a message goes in Mattermost. -/
def toMattermost (config : BridgeConfig) (event : InboundEvent) (rootId : Option String) :
    Target where
  platform := .mattermost
  tgChatId := none
  tgThreadId := none
  tgReplyToMessageId := none
  createTopic := false
  mmChannelId := some config.mmChannelId
  mmRootId := rootId
  displayPrefix := Bridge.displayPrefix event.senderName event.source.platform
  originPlatform := event.originPlatform.getD event.source.platform
  originMessageId := event.originMessageId.getD event.source.messageId

/-- The part of `resolve_target` for a post of Mattermost. -/
def routePost (existing : List Mapping) (config : BridgeConfig) (event : InboundEvent) :
    Except BridgeError Target :=
  if event.mmChannelId ≠ some config.mmChannelId then
    .error ⟨"BRIDGE_TARGET_UNMAPPED", "post is not in the bridged channel"⟩
  else
    match event.mmRootId with
    | none =>
      match config.tgThreadMode with
      | .general => .ok (toTelegram config event none none false)
      | .fixedTopic => .ok (toTelegram config event config.tgFixedThreadId none false)
      -- the topic is created when the message is sent
      | .topicPerRoot => .ok (toTelegram config event none none true)
    | some rootId =>
      match findByMmPost existing rootId with
      | none => .error ⟨"BRIDGE_TARGET_UNMAPPED", "root post " ++ rootId ++ " not mapped"⟩
      | some root =>
        .ok (toTelegram config event root.tgThreadId (some root.tgMessageId) false)

/-- The thread of Mattermost that a message of the chat goes to; `none` for a new root post. -/
def mattermostThread (existing : List Mapping) (event : InboundEvent) : Option String :=
  match event.tgReplyToMessageId.bind (findByTgMessage existing) with
  | some replied => some replied.root
  | none =>
    match event.tgThreadId with
    | none => none
    | some threadId => (findByTgThread existing (some threadId)).map (·.mmPostId)

/-- The part of `resolve_target` for a message of Telegram. -/
def routeMessage (existing : List Mapping) (config : BridgeConfig) (event : InboundEvent) :
    Except BridgeError Target :=
  if event.tgChatId ≠ some config.tgChatId then
    .error ⟨"BRIDGE_TARGET_UNMAPPED", "message is not in the bridged chat"⟩
  else .ok (toMattermost config event (mattermostThread existing event))

/-- `resolve_target` -/
def resolveTarget (existing : List Mapping) (config : BridgeConfig) (event : InboundEvent) :
    Except BridgeError Target := do
  checkLoop event
  checkDirection config event
  checkDuplicate existing config event
  match event.source with
  | .post _ => routePost existing config event
  | .message _ => routeMessage existing config event

/-! ## What the checks let through -/

variable {event : InboundEvent}

theorem checkLoop_ok (h : checkLoop event = .ok ()) :
    event.isBridgeBot = false ∧ event.hopCount < maxHops := by
  unfold checkLoop at h
  split_ifs at h with hbot hhop
  exact ⟨by simpa using hbot, Int.not_le.1 hhop⟩

theorem resolveTarget_ok {existing : List Mapping} {config : BridgeConfig} {target : Target}
    (h : resolveTarget existing config event = .ok target) :
    (∃ id, event.source = .post id ∧ routePost existing config event = .ok target) ∨
      (∃ id, event.source = .message id ∧ routeMessage existing config event = .ok target) := by
  unfold resolveTarget at h
  simp only [bind, Except.bind] at h
  split at h
  · cases h
  split at h
  · cases h
  split at h
  · cases h
  split at h
  · rename_i id hsource
    exact .inl ⟨id, hsource, h⟩
  · rename_i id hsource
    exact .inr ⟨id, hsource, h⟩

end AgentColab.Bridge
