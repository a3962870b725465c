import AgentColab.Bridge.Contract
import AgentColab.Domain.Text

/-!
# The relay of an observed message

An observed message passes the checks of the contract, the duplicate check against every mapping of
the bridge, and the content policy. What is let through gives one mapping, which is pending until
the delivery has returned an identity, and one row of the outbox. The scanner is a parameter.
-/

namespace AgentColab.Bridge

/-! ## Rows -/

/-- A row of `telegram_bridges`, with the channel that it belongs to. -/
structure BridgeRow where
  bridgeId : String
  channelExtId : String
  mmProviderInstanceId : String
  providerInstanceId : String
  telegramChatId : String
  telegramThreadId : Option ℕ
  threadMode : ThreadMode
  direction : Direction
  contentPolicy : List (String × Bool)
  showSender : Option Bool
  enabled : Bool

/-- `BridgeRow.config` -/
def BridgeRow.config (b : BridgeRow) : BridgeConfig where
  bridgeId := b.bridgeId
  mmChannelId := b.channelExtId
  tgChatId := b.telegramChatId
  direction := b.direction
  tgThreadMode := b.threadMode
  tgFixedThreadId := b.telegramThreadId
  enabled := b.enabled

inductive DeliveryStatus where
  | pending
  | sent
  | dead
deriving DecidableEq

/-- A row of `message_mappings`. -/
structure MappingRow where
  source : Source
  destinationPlatform : Platform
  destinationMessageId : Option String
  mmPostId : Option String
  mmRootPostId : Option String
  tgMessageId : Option ℕ
  tgThreadId : Option ℕ
  tgReplyToMessageId : Option ℕ
  originPlatform : Platform
  originMessageId : String
  originMarker : String
  findings : List String
  deliveryStatus : DeliveryStatus
  dedupeKey : String

/-- What a row of the outbox asks its provider to send. The origin of a post is its property
`agent_colab_bridge`, which has the hop count 1. -/
inductive Payload where
  | telegramSend (chatId text : String) (messageThreadId replyToMessageId : Option ℕ)
      (createTopic : Option String)
  | mattermostPost (channelId message : String) (rootId : Option String) (origin : String)

/-- A row of `delivery_outbox`. -/
structure OutboxRow where
  dedupeKey : String
  payload : Payload
  status : DeliveryStatus

/-- The mapping that the routing reads of a row; `none` while an end is not known. -/
def MappingRow.mapping (r : MappingRow) : Option Mapping :=
  match r.deliveryStatus, r.mmPostId, r.tgMessageId with
  | .sent, some postId, some messageId => some
    { dedupeKey := r.dedupeKey, mmPostId := postId, mmRootId := r.mmRootPostId,
      tgMessageId := messageId, tgThreadId := r.tgThreadId }
  | _, _, _ => none

/-- `completed_mappings` -/
def completedMappings (rows : List MappingRow) : List Mapping := rows.filterMap MappingRow.mapping

/-! ## Marks of the origin -/

/-- `origin_marker` -/
def originMarker (platform : Platform) (messageId : String) : String :=
  "colab-bridge:" ++ platform.value ++ ":" ++ messageId ++ ":hop1"

/-- The property `agent_colab_bridge` of a post. The hop count is the value of `int`, `none` when
`int` refuses what is there. -/
structure Marker where
  origin : String
  hop : Option ℤ

def Platform.ofValue (value : String) : Option Platform :=
  if value = "mattermost" then some .mattermost
  else if value = "telegram" then some .telegram
  else none

/-- `str.partition(":")`, where there is a colon. -/
def partitionColon (s : String) : Option (String × String) :=
  match s.toList.dropWhile (· ≠ ':') with
  | [] => none
  | _ :: rest => some (String.ofList (s.toList.takeWhile (· ≠ ':')), String.ofList rest)

/-- `parse_origin_prop`: origin platform, origin message and hop count. -/
def parseOriginProp (props : Option Marker) : Option (Option Platform × Option String × ℤ) :=
  match props with
  | none => some (none, none, 0)
  | some marker =>
    match marker.hop with
    | none => none
    | some hop =>
      match partitionColon marker.origin with
      | none => some (none, none, hop)
      | some (platform, mid) =>
        match Platform.ofValue platform with
        | none => some (none, none, hop)
        | some p => some (some p, if mid = "" then none else some mid, hop)

/-- The source that the text before a closing bracket ends with. -/
def viaSource (inner : List Char) : Option Platform :=
  let ends (via : String) : Bool :=
    via.toList.isSuffixOf inner && decide (via.toList.length < inner.length)
  if ends " via Telegram" then some .telegram
  else if ends " via Mattermost" then some .mattermost
  else none

/-- `_prefix_origin`: a match of `^\[([^\]]+) via (Telegram|Mattermost)\]\s`. -/
def prefixOrigin (message : String) : Option Platform :=
  match message.toList with
  | '[' :: rest =>
    match rest.dropWhile (· ≠ ']') with
    | _ :: c :: _ => if isSpace c then viaSource (rest.takeWhile (· ≠ ']')) else none
    | _ => none
  | _ => none

/-! ## The relay -/

structure AttachmentMeta where
  name : String
  mime : String
  size : ℕ

/-- What the redaction leaves of a text, with the kinds of what it found. -/
structure Redaction where
  text : String
  findings : List String

/-- `_content_allowed` -/
def contentAllowed (policy : List (String × Bool)) (kind : String) : Bool :=
  if kind = "mention" then (policy.lookup "mention").getD true && (policy.lookup "text").getD true
  else (policy.lookup kind).getD (kind = "text")

/-- `_compose` -/
def compose (bridge : BridgeRow) (target : Target) (body : String)
    (attachments : List AttachmentMeta) : String :=
  let displayed :=
    if bridge.showSender.getD true ∧ target.displayPrefix ≠ "" then target.displayPrefix ++ " "
    else ""
  let textOut := strip (displayed ++ body)
  if attachments = [] then textOut
  else
    let names := attachments.map fun a ↦
      a.name ++ " (" ++ a.mime ++ ", " ++ toString a.size ++ " B)"
    textOut ++ "\n[attachments: " ++ ", ".intercalate names ++ "]"

/-- `_delivery`. The origin is what its two splits leave of the marker. -/
def delivery (bridge : BridgeRow) (event : InboundEvent) (target : Target) (textOut : String)
    (dedupeKey : String) : OutboxRow where
  dedupeKey := dedupeKey
  payload := match target.platform with
    | .telegram => .telegramSend bridge.telegramChatId textOut target.tgThreadId
        target.tgReplyToMessageId
        (if target.createTopic then
          some ("MM " ++ String.ofList (event.source.messageId.toList.take 8))
        else none)
    | .mattermost => .mattermostPost bridge.channelExtId textOut target.mmRootId
        (target.originPlatform.value ++ ":" ++ target.originMessageId)
  status := .pending

/-- The row that `_insert_mapping` inserts. -/
def mappingRow (event : InboundEvent) (target : Target) (dedupeKey : String)
    (findings : List String) : MappingRow where
  source := event.source
  destinationPlatform := target.platform
  destinationMessageId := none
  mmPostId := match event.source with
    | .post id => some id
    | .message _ => none
  mmRootPostId := match event.source with
    | .post _ => event.mmRootId
    | .message _ => target.mmRootId
  tgMessageId := match event.source with
    | .post _ => none
    | .message id => some id
  tgThreadId := match event.source with
    | .post _ => target.tgThreadId
    | .message _ => event.tgThreadId
  tgReplyToMessageId := match event.source with
    | .post _ => target.tgReplyToMessageId
    | .message _ => event.tgReplyToMessageId
  originPlatform := target.originPlatform
  originMessageId := target.originMessageId
  originMarker := originMarker target.originPlatform target.originMessageId
  findings := findings
  deliveryStatus := .pending
  dedupeKey := dedupeKey

structure Relay where
  mapping : MappingRow
  outbox : OutboxRow

/-- `_relay`: the code it is refused with, or the rows that it inserts. `mapped` is the answer of
`_mapping_exists`. -/
def relay (redact : String → Redaction) (bridge : BridgeRow) (existing : List Mapping)
    (mapped : Bool) (event : InboundEvent) (body kind : String)
    (attachments : List AttachmentMeta) : Except String Relay :=
  if bridge.enabled = false then .error "BRIDGE_DISABLED"
  else
    match checkLoop event with
    | .error e => .error e.code
    | .ok () =>
      match checkDirection bridge.config event with
      | .error e => .error e.code
      | .ok () =>
        let dedupeKey := mappingKey bridge.bridgeId event.source
        if (∃ m ∈ existing, m.dedupeKey = dedupeKey) ∨ mapped = true then
          .error "BRIDGE_DUPLICATE_SOURCE"
        else if contentAllowed bridge.contentPolicy kind = false then
          .error "BRIDGE_CONTENT_FILTERED"
        else
          match resolveTarget existing bridge.config event with
          | .error e => .error e.code
          | .ok target =>
            let redaction := redact body
            let allowed := attachments.filter fun _ ↦
              contentAllowed bridge.contentPolicy "attachment"
            let textOut := compose bridge target redaction.text allowed
            .ok
              { mapping := mappingRow event target dedupeKey redaction.findings
                outbox := delivery bridge event target textOut dedupeKey }

/-! ## The two intakes -/

structure PostView where
  providerInstanceId : String
  channelExtId : String
  postId : String
  rootId : Option String
  userId : String
  userLabel : String
  message : String
  attachments : List AttachmentMeta
  props : Option Marker
  kind : String
  userIsBot : Bool

structure InboundMessage where
  providerInstanceId : String
  chatId : String
  messageId : ℕ
  messageThreadId : Option ℕ
  replyToMessageId : Option ℕ
  fromUserId : Option String
  fromIsBot : Bool
  fromDisplayName : String
  text : String
  attachments : List AttachmentMeta
  forumTopicCreated : Bool

/-- The bridge service of a process, and the bridge that it serves. -/
structure Service where
  row : BridgeRow
  mmBotUserIds : List String
  tgBotUserIds : List String
  redact : String → Redaction

/-- The event of a post; `none` when the hop count of its marker is refused. -/
def postEvent (s : Service) (post : PostView) : Option InboundEvent :=
  (parseOriginProp post.props).map fun (platform, originId, hop) ↦
    let marked := if platform = none then prefixOrigin post.message else none
    { source := .post post.postId
      senderName := post.userLabel
      hopCount := if marked = none then hop else max hop 1
      originPlatform := if platform = none then marked else platform
      originMessageId := originId
      mmChannelId := some post.channelExtId
      mmRootId := post.rootId
      tgChatId := none
      tgThreadId := none
      tgReplyToMessageId := none
      isBridgeBot := post.userIsBot || decide (post.userId ∈ s.mmBotUserIds) }

/-- `on_mattermost_post`, for the bridge of the service; `none` when the post is not looked at. -/
def onMattermostPost (s : Service) (existing : List Mapping) (mapped : Bool) (post : PostView) :
    Option (Except String Relay) :=
  if post.channelExtId = s.row.channelExtId ∧
      post.providerInstanceId = s.row.mmProviderInstanceId then
    (postEvent s post).map fun event ↦
      relay s.redact s.row existing mapped event post.message post.kind post.attachments
  else none

/-- `provider_instance_id.split(":", 1)[-1]` -/
def botId (providerInstanceId : String) : String :=
  match partitionColon providerInstanceId with
  | none => providerInstanceId
  | some (_, rest) => rest

def messageEvent (s : Service) (msg : InboundMessage) : InboundEvent where
  source := .message msg.messageId
  senderName :=
    if msg.fromDisplayName ≠ "" then msg.fromDisplayName
    else match msg.fromUserId with
      | none => "unknown"
      | some userId => if userId = "" then "unknown" else userId
  hopCount := if prefixOrigin msg.text = none then 0 else 1
  originPlatform := prefixOrigin msg.text
  originMessageId := none
  mmChannelId := none
  mmRootId := none
  tgChatId := some msg.chatId
  tgThreadId := msg.messageThreadId
  tgReplyToMessageId := msg.replyToMessageId
  isBridgeBot := msg.fromIsBot &&
    match msg.fromUserId with
    | none => false
    | some userId => decide (userId ∈ botId msg.providerInstanceId :: s.tgBotUserIds)

def messageKind (msg : InboundMessage) : String :=
  if msg.forumTopicCreated then "system_event" else "text"

/-- `on_telegram_message`, for the bridge of the service. A bridge to a fixed topic looks at its own
topic only. -/
def onTelegramMessage (s : Service) (existing : List Mapping) (mapped : Bool)
    (msg : InboundMessage) : Option (Except String Relay) :=
  if msg.providerInstanceId = s.row.providerInstanceId ∧ msg.chatId = s.row.telegramChatId ∧
      ¬(s.row.threadMode = .fixedTopic ∧ msg.messageThreadId ≠ s.row.telegramThreadId) then
    some (relay s.redact s.row existing mapped (messageEvent s msg) msg.text (messageKind msg)
      msg.attachments)
  else none

end AgentColab.Bridge
