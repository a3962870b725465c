import AgentColab.Bridge.Relay
import AgentColab.Domain.Runs

/-!
# A bridge between two platforms

What people write is observed, any number of times and in any order, by transactions that read the
mappings, decide, and insert their rows when they commit. The drain of the outbox sends what is
pending, and records what the provider has returned. What a provider has sent is kept in the memory
of the process, which a restart clears; what has not been recorded is then sent again.

A reply of Mattermost names the root of its thread, and a reply of Telegram a message of its topic.
-/

namespace AgentColab.Bridge

/-! ## The platforms -/

inductive Author where
  | person
  | bridge
deriving DecidableEq

structure Post where
  postId : String
  rootId : Option String
  userId : String
  userLabel : String
  message : String
  attachments : List AttachmentMeta
  props : Option Marker
  userIsBot : Bool
  author : Author

structure Message where
  messageId : ℕ
  threadId : Option ℕ
  replyToMessageId : Option ℕ
  fromUserId : Option String
  fromIsBot : Bool
  fromDisplayName : String
  text : String
  attachments : List AttachmentMeta
  forumTopicCreated : Bool
  author : Author

/-- `provider_instance_id(bot_id)` -/
def providerInstanceId (botId : String) : String := "tg:" ++ botId

/-- A bridge, and the bot that serves it on Telegram. -/
structure Setting extends Service where
  tgBotId : String
  instance_eq : row.providerInstanceId = providerInstanceId tgBotId

def Post.view (s : Setting) (kind : String) (p : Post) : PostView where
  providerInstanceId := s.row.mmProviderInstanceId
  channelExtId := s.row.channelExtId
  postId := p.postId
  rootId := p.rootId
  userId := p.userId
  userLabel := p.userLabel
  message := p.message
  attachments := p.attachments
  props := p.props
  kind := kind
  userIsBot := p.userIsBot

def Message.inbound (s : Setting) (m : Message) : InboundMessage where
  providerInstanceId := s.row.providerInstanceId
  chatId := s.row.telegramChatId
  messageId := m.messageId
  messageThreadId := m.threadId
  replyToMessageId := m.replyToMessageId
  fromUserId := m.fromUserId
  fromIsBot := m.fromIsBot
  fromDisplayName := m.fromDisplayName
  text := m.text
  attachments := m.attachments
  forumTopicCreated := m.forumTopicCreated

/-- What a provider returns: the topic and the identity of a message, or the identity of a post. -/
inductive Delivered where
  | message (threadId : Option ℕ) (messageId : ℕ)
  | post (postId : String)

/-- `record_delivered`. A row that is sent stays as it is. -/
def MappingRow.complete (d : Delivered) (r : MappingRow) : MappingRow :=
  if r.deliveryStatus = .sent then r
  else
    match d with
    | .message threadId messageId =>
      { r with
        destinationMessageId := some (toString messageId)
        tgMessageId := some messageId
        tgThreadId := threadId.or r.tgThreadId
        deliveryStatus := .sent }
    | .post postId =>
      { r with
        destinationMessageId := some postId
        mmPostId := some postId
        deliveryStatus := .sent }

/-! ## The world -/

/-- `relays` are the open transactions that have decided to relay. `topics` and `delivered` are the
memory of the providers, by the key of a row. `due` are the messages whose observation has ended,
and that were to be relayed. -/
structure World where
  posts : List Post
  messages : List Message
  mappings : List MappingRow
  outbox : List OutboxRow
  relays : List (ℕ × Relay)
  topics : String → Option ℕ
  delivered : String → Option Delivered
  due : List Source

namespace World

def start : World where
  posts := []
  messages := []
  mappings := []
  outbox := []
  relays := []
  topics := fun _ ↦ none
  delivered := fun _ ↦ none
  due := []

/-- The answer of `_mapping_exists`. -/
def mapped (w : World) (source : Source) : Bool := w.mappings.any (·.source = source)

def pendingRow (w : World) (key : String) : Option OutboxRow :=
  w.outbox.find? fun r ↦ r.dedupeKey = key ∧ r.status = .pending

def FreshPost (w : World) (postId : String) : Prop :=
  ∀ q ∈ w.posts, q.postId ≠ postId ∧ q.rootId ≠ some postId

def FreshMessage (w : World) (messageId : ℕ) : Prop :=
  ∀ q ∈ w.messages, q.messageId ≠ messageId ∧ q.threadId ≠ some messageId ∧
    q.replyToMessageId ≠ some messageId

instance (w : World) (postId : String) : Decidable (w.FreshPost postId) := by
  unfold FreshPost
  infer_instance

instance (w : World) (messageId : ℕ) : Decidable (w.FreshMessage messageId) := by
  unfold FreshMessage
  infer_instance

/-- Mattermost takes the post: what it replies to is the root of a thread. -/
def AcceptsPost (w : World) (p : Post) : Prop :=
  w.FreshPost p.postId ∧ ∀ rootId ∈ p.rootId, ∃ q ∈ w.posts, q.postId = rootId ∧ q.rootId = none

/-- Telegram takes the message. A message that creates a topic is the first of it, and what a
message replies to is in its own topic. -/
def AcceptsMessage (w : World) (m : Message) : Prop :=
  w.FreshMessage m.messageId ∧
    (∀ threadId ∈ m.threadId, (m.forumTopicCreated = true ∧ threadId = m.messageId) ∨
      ∃ q ∈ w.messages, q.messageId = threadId ∧ q.forumTopicCreated = true) ∧
    ∀ replyTo ∈ m.replyToMessageId, replyTo ≠ m.messageId ∧
      ∀ q ∈ w.messages, q.messageId = replyTo → q.threadId = m.threadId

instance (w : World) (p : Post) : Decidable (w.AcceptsPost p) := by
  unfold AcceptsPost
  infer_instance

instance (w : World) (m : Message) : Decidable (w.AcceptsMessage m) := by
  unfold AcceptsMessage
  infer_instance

/-- A transaction that relays `source` is open. -/
def InFlight (w : World) (source : Source) : Prop :=
  ∃ e ∈ w.relays, e.2.mapping.source = source

/-- The post is the root of a thread that the bridge relays: written by the bridge, or relayed. -/
def Bridged (w : World) (rootId : String) : Prop :=
  (∃ p ∈ w.posts, p.postId = rootId ∧ p.author = .bridge) ∨ w.mapped (.post rootId) = true ∨
    w.InFlight (.post rootId)

/-- The message passes the checks of the bridge, and a reply is written in a thread that the bridge
relays. -/
def Owed (w : World) (s : Setting) (event : InboundEvent) (kind : String) : Prop :=
  s.row.enabled = true ∧ (checkLoop event).isOk = true ∧
    (checkDirection s.row.config event).isOk = true ∧
    contentAllowed s.row.contentPolicy kind = true ∧ ∀ rootId ∈ event.mmRootId, w.Bridged rootId

instance (w : World) (source : Source) : Decidable (w.InFlight source) := by
  unfold InFlight
  infer_instance

instance (w : World) (rootId : String) : Decidable (w.Bridged rootId) := by
  unfold Bridged
  infer_instance

instance (s : Setting) (w : World) (event : InboundEvent) (kind : String) :
    Decidable (w.Owed s event kind) := by
  unfold Owed
  infer_instance

end World

/-! ## Steps -/

/-- What happens next. `existing` are the completed mappings in the order in which the database
answers them. -/
inductive Label where
  | post (p : Post)
  | message (m : Message)
  | edit (messageId : ℕ) (text : String)
  | observePost (i : ℕ) (postId kind : String) (existing : List Mapping)
  | observeMessage (i : ℕ) (messageId : ℕ) (existing : List Mapping)
  | commit (i : ℕ)
  | stop (i : ℕ)
  | createTopic (key : String) (threadId : ℕ)
  | sendMessage (key : String) (messageId : ℕ)
  | createPost (key postId userId : String) (userIsBot : Bool)
  | complete (key : String)
  | record (key : String)
  | exhaust (key : String)
  | replay (key : String)
  | restart

/-- The message that the bot leaves when it creates a topic. -/
def topicMessage (s : Setting) (threadId : ℕ) : Message where
  messageId := threadId
  threadId := some threadId
  replyToMessageId := none
  fromUserId := some s.tgBotId
  fromIsBot := true
  fromDisplayName := ""
  text := ""
  attachments := []
  forumTopicCreated := true
  author := .bridge

def botMessage (s : Setting) (text : String) (threadId replyTo : Option ℕ) (messageId : ℕ) :
    Message where
  messageId := messageId
  threadId := threadId
  replyToMessageId := replyTo
  fromUserId := some s.tgBotId
  fromIsBot := true
  fromDisplayName := ""
  text := text
  attachments := []
  forumTopicCreated := false
  author := .bridge

def botPost (message : String) (rootId : Option String) (origin postId userId : String)
    (userIsBot : Bool) : Post where
  postId := postId
  rootId := rootId
  userId := userId
  userLabel := userId
  message := message
  attachments := []
  props := some ⟨origin, some 1⟩
  userIsBot := userIsBot
  author := .bridge

/-- The rows of the outbox after the one with the key has changed its status. -/
def setOutbox (rows : List OutboxRow) (key : String) (status : DeliveryStatus) : List OutboxRow :=
  rows.map fun r ↦ if r.dedupeKey = key then { r with status := status } else r

/-- The mappings after the one with the key has changed. -/
def updateMapping (rows : List MappingRow) (key : String) (f : MappingRow → MappingRow) :
    List MappingRow :=
  rows.map fun r ↦ if r.dedupeKey = key then f r else r

def MappingRow.setStatus (status : DeliveryStatus) (r : MappingRow) : MappingRow :=
  { r with deliveryStatus := status }

namespace World

/-- A transaction has decided: what is refused ends here, what is relayed waits for its commit. -/
def decided (w : World) (i : ℕ) (source : Source) (owed : Bool) :
    Option (Except String Relay) → World
  | none => w
  | some (.error _) => { w with due := if owed then w.due ++ [source] else w.due }
  | some (.ok r) => { w with relays := (i, r) :: w.relays }

/-- The transaction `i` has ended, and with it the observation of its message. -/
def ended (w : World) (i : ℕ) (source : Source) : World :=
  { w with relays := w.relays.filter (·.1 ≠ i), due := w.due ++ [source] }

/-- The two rows are inserted, the second `ON CONFLICT DO NOTHING`. -/
def insert (w : World) (r : Relay) : World :=
  { w with
    mappings := w.mappings ++ [r.mapping]
    outbox :=
      if ∃ q ∈ w.outbox, q.dedupeKey = r.outbox.dedupeKey then w.outbox
      else w.outbox ++ [r.outbox] }

/-- A row that violates a unique index. -/
def Conflicts (w : World) (r : MappingRow) : Prop :=
  ∃ q ∈ w.mappings, q.source = r.source ∨ q.dedupeKey = r.dedupeKey

instance (w : World) (r : MappingRow) : Decidable (w.Conflicts r) := by
  unfold Conflicts
  infer_instance

/-- The topic that a message of the row goes to: a topic that is to be created must have been. -/
def threadFor (w : World) (key : String) (messageThreadId : Option ℕ)
    (createTopic : Option String) : Option (Option ℕ) :=
  match messageThreadId, createTopic with
  | some threadId, _ => some (some threadId)
  | none, none => some none
  | none, some _ => (w.topics key).map some

end World

open World in
/-- One step; `none` when it cannot happen. -/
def World.step (s : Setting) (w : World) : Label → Option World
  | .post p =>
    if p.author = .person ∧ w.AcceptsPost p then some { w with posts := w.posts ++ [p] } else none
  | .message m =>
    if m.author = .person ∧ m.fromIsBot = false ∧ w.AcceptsMessage m then
      some { w with messages := w.messages ++ [m] }
    else none
  | .edit messageId text => some
      { w with
        messages := w.messages.map fun m ↦
          if m.messageId = messageId ∧ m.author = .person then { m with text := text } else m }
  | .observePost i postId kind existing =>
    match w.relays.lookup i, w.posts.find? (·.postId = postId) with
    | none, some p =>
      if existing.Perm (completedMappings w.mappings) then
        let view := p.view s kind
        some (w.decided i (.post postId) ((postEvent s.toService view).any fun event ↦
            w.Owed s event view.kind)
          (onMattermostPost s.toService existing (w.mapped (.post postId)) view))
      else none
    | _, _ => none
  | .observeMessage i messageId existing =>
    match w.relays.lookup i, w.messages.find? (·.messageId = messageId) with
    | none, some m =>
      if existing.Perm (completedMappings w.mappings) then
        let msg := m.inbound s
        some (w.decided i (.message messageId)
          (w.Owed s (messageEvent s.toService msg) (messageKind msg))
          (onTelegramMessage s.toService existing (w.mapped (.message messageId)) msg))
      else none
    | _, _ => none
  | .commit i =>
    match w.relays.lookup i with
    | none => none
    | some r =>
      if w.Conflicts r.mapping then some (w.ended i r.mapping.source)
      else some ((w.insert r).ended i r.mapping.source)
  | .stop i => some { w with relays := w.relays.filter (·.1 ≠ i) }
  | .createTopic key threadId =>
    match (w.pendingRow key).map OutboxRow.payload, w.topics key, w.delivered key with
    | some (.telegramSend _ _ none _ (some _)), none, none =>
      if w.FreshMessage threadId then some
        { w with
          messages := w.messages ++ [topicMessage s threadId]
          topics := Function.update w.topics key (some threadId) }
      else none
    | _, _, _ => none
  | .sendMessage key messageId =>
    match (w.pendingRow key).map OutboxRow.payload, w.delivered key with
    | some (.telegramSend _ text messageThreadId replyTo createTopic), none =>
      match w.threadFor key messageThreadId createTopic with
      | none => none
      | some threadId =>
        if w.FreshMessage messageId then some
          { w with
            messages := w.messages ++ [botMessage s text threadId replyTo messageId]
            delivered := Function.update w.delivered key (some (.message threadId messageId)) }
        else none
    | _, _ => none
  | .createPost key postId userId userIsBot =>
    match (w.pendingRow key).map OutboxRow.payload, w.delivered key with
    | some (.mattermostPost _ message rootId origin), none =>
      if w.FreshPost postId then some
        { w with
          posts := w.posts ++ [botPost message rootId origin postId userId userIsBot]
          delivered := Function.update w.delivered key (some (.post postId)) }
      else none
    | _, _ => none
  | .complete key =>
    match w.pendingRow key, w.delivered key with
    | some _, some d => some
        { w with
          outbox := setOutbox w.outbox key .sent
          mappings := updateMapping w.mappings key (MappingRow.complete d) }
    | _, _ => none
  | .record key =>
    -- every key in the memory of a provider is recorded, whatever its row of the outbox
    match w.delivered key with
    | some d => some { w with mappings := updateMapping w.mappings key (MappingRow.complete d) }
    | none => none
  | .exhaust key =>
    match w.pendingRow key, w.delivered key with
    | some _, none => some
        { w with
          outbox := setOutbox w.outbox key .dead
          mappings := updateMapping w.mappings key (MappingRow.setStatus .dead) }
    | _, _ => none
  | .replay key =>
    if ∃ r ∈ w.outbox, r.dedupeKey = key ∧ r.status = .dead then some
      { w with
        outbox := setOutbox w.outbox key .pending
        mappings := updateMapping w.mappings key (MappingRow.setStatus .pending) }
    else none
  | .restart => some { w with topics := fun _ ↦ none, delivered := fun _ ↦ none }

theorem mem_of_lookup {α : Type} {l : List (ℕ × α)} {i : ℕ} {x : α} (h : l.lookup i = some x) :
    (i, x) ∈ l := by
  obtain ⟨before, after, rfl, -⟩ := List.lookup_eq_some_iff.1 h
  exact List.mem_append_right _ List.mem_cons_self

inductive Run (s : Setting) (C : World → Label → Prop) : World → List Label → World → Prop
  | nil (w : World) : Run s C w [] w
  | cons {w w₁ w' : World} {l : Label} {ls : List Label} (hstep : w.step s l = some w₁)
      (hC : C w l) (h : Run s C w₁ ls w') : Run s C w (l :: ls) w'

variable {s : Setting} {C : World → Label → Prop} {ls : List Label}

theorem Run.invariant {P : World → Prop} (hP : ∀ w l w', P w → C w l → w.step s l = some w' → P w')
    {w w' : World} (hrun : Run s C w ls w') (h : P w) : P w' := by
  induction hrun with
  | nil => exact h
  | cons hstep hC _ ih => exact ih (hP _ _ _ h hC hstep)

/-- The run of a list of steps that all meet a condition. -/
def World.runLabels (s : Setting) (C : World → Label → Prop) [∀ w l, Decidable (C w l)]
    (w : World) : List Label → Option World
  | [] => some w
  | l :: ls => if C w l then (w.step s l).bind fun w₁ ↦ w₁.runLabels s C ls else none

theorem World.run_of_runLabels [∀ w l, Decidable (C w l)]
    {w w' : World} (h : w.runLabels s C ls = some w') : Run s C w ls w' :=
  related_of_run h (fun _ ↦ rfl) (fun _ _ _ ↦ rfl) .nil .cons

/-! ## A bridge with a topic for each root -/

namespace Sample

def setting : Setting where
  row :=
    { bridgeId := "bridge-a1", channelExtId := "ext-a", mmProviderInstanceId := "mm:test:colab",
      providerInstanceId := "tg:424242", telegramChatId := "-1001000000001",
      telegramThreadId := none, threadMode := .topicPerRoot, direction := .bidirectional,
      contentPolicy := [("text", true), ("attachment", true), ("system_event", false),
        ("approval_notice", true), ("mention", true)], showSender := some true, enabled := true }
  mmBotUserIds := []
  tgBotUserIds := []
  redact := fun text ↦ ⟨text, []⟩
  tgBotId := "424242"
  instance_eq := rfl

def post (postId : String) (rootId : Option String) : Post where
  postId := postId
  rootId := rootId
  userId := "user-1"
  userLabel := "alice"
  message := "hello"
  attachments := []
  props := none
  userIsBot := false
  author := .person

def message (messageId : ℕ) (threadId : Option ℕ) (topic : Bool) : Message where
  messageId := messageId
  threadId := threadId
  replyToMessageId := none
  fromUserId := some "777"
  fromIsBot := false
  fromDisplayName := "bob"
  text := "hi"
  attachments := []
  forumTopicCreated := topic
  author := .person

def key (source : Source) : String := mappingKey "bridge-a1" source

def rootMapping : Mapping where
  dedupeKey := key (.post "post-1")
  mmPostId := "post-1"
  mmRootId := none
  tgMessageId := 11
  tgThreadId := some 10

/-- A root of Mattermost is relayed into a topic of its own. -/
def relayRoot : List Label :=
  [.post (post "post-1" none), .observePost 0 "post-1" "text" [], .commit 0,
    .createTopic (key (.post "post-1")) 10, .sendMessage (key (.post "post-1")) 11]

end Sample

end AgentColab.Bridge
