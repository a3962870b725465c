import AgentColab.Bridge.Loop
import AgentColab.Domain.OneToOne

/-!
# What the rows join

In the mode that gives each root a topic, a row of the mappings joins a topic and a thread once its
delivery has been recorded. A reply joins what the recorded row joins that it is routed by. A root
gets a topic that is created for it, and a message of a topic without a recorded row starts a new
thread: these two pair ends that are new, provided that no other message on its way is about to pair
the same topic.
-/

namespace AgentColab.Bridge

/-! ## What rows join -/

/-- The thread of Mattermost that a row belongs to, once it is known. -/
def MappingRow.root (r : MappingRow) : Option String := r.mmRootPostId.or r.mmPostId

/-- A recorded delivery joins the topic and the root. -/
def Joined (w : World) (threadId : Option ℕ) (root : String) : Prop :=
  ∃ r ∈ w.mappings, r.deliveryStatus = .sent ∧ r.tgThreadId = threadId ∧ r.root = some root

/-- The message is of the topic `t`, and starts a new thread. -/
def MappingRow.NewRoot (r : MappingRow) (t : ℕ) : Prop :=
  r.source.platform = .telegram ∧ r.mmRootPostId = none ∧ r.tgThreadId = some t

instance (r : MappingRow) (t : ℕ) : Decidable (r.NewRoot t) := by
  unfold MappingRow.NewRoot
  infer_instance

/-- No message but `source` is about to start a thread for the topic, and no root is about to get
it. -/
def Quiet (w : World) (source : Source) (t : ℕ) : Prop :=
  (∀ r ∈ w.mappings, r.deliveryStatus ≠ .sent → r.NewRoot t → r.source = source) ∧
    (∀ e ∈ w.relays, e.2.mapping.NewRoot t →
      w.mapped e.2.mapping.source = true ∨ e.2.mapping.source = source) ∧
    ∀ r ∈ w.mappings, r.deliveryStatus ≠ .sent → w.topics r.dedupeKey ≠ some t

instance (w : World) (source : Source) (t : ℕ) : Decidable (Quiet w source t) := by
  unfold Quiet
  infer_instance

/-- A message that starts a thread for its topic is observed when nothing else is on its way for
the topic, and a delivery that is recorded is not given up. -/
def Orderly (s : Setting) (w : World) : Label → Prop
  | .observeMessage _ messageId existing =>
    ∀ m ∈ w.messages, m.messageId = messageId →
      w.Owed s (messageEvent s.toService (m.inbound s)) (messageKind (m.inbound s)) →
        mattermostThread existing (messageEvent s.toService (m.inbound s)) = none →
          ∀ t ∈ m.threadId, Quiet w (.message messageId) t
  | .exhaust key => ∀ r ∈ w.mappings, r.dedupeKey = key → r.deliveryStatus ≠ .sent
  | _ => True

instance (s : Setting) (w : World) (l : Label) : Decidable (Orderly s w l) := by
  unfold Orderly
  split <;> infer_instance

/-! ## What the rows say of the platforms -/

def HasPost (w : World) (postId : String) (rootId : Option String) : Prop :=
  ∃ p ∈ w.posts, p.postId = postId ∧ p.rootId = rootId

def HasMessage (w : World) (messageId : ℕ) (threadId : Option ℕ) : Prop :=
  ∃ m ∈ w.messages, m.messageId = messageId ∧ m.threadId = threadId

def BridgePost (w : World) (postId : String) : Prop :=
  ∃ p ∈ w.posts, p.postId = postId ∧ p.author = .bridge

/-- The side of the row that the message was written on. -/
def Sourced (w : World) (r : MappingRow) : Prop :=
  match r.source with
  | .post id => r.mmPostId = some id ∧ HasPost w id r.mmRootPostId
  | .message id => r.tgMessageId = some id ∧ HasMessage w id r.tgThreadId

/-- Both sides of a row whose delivery is recorded. -/
def Landed (w : World) (r : MappingRow) : Prop :=
  ∃ postId messageId, r.mmPostId = some postId ∧ r.tgMessageId = some messageId ∧
    HasPost w postId r.mmRootPostId ∧ HasMessage w messageId r.tgThreadId ∧
      (r.source.platform = .telegram → BridgePost w postId)

/-- The row of the outbox that delivers the row of the mappings. -/
def Carries (r : MappingRow) : Payload → Prop
  | .telegramSend _ _ threadId _ createTopic =>
    r.source.platform = .mattermost ∧ r.tgThreadId = threadId ∧
      (r.mmRootPostId = none → threadId = none ∧ createTopic ≠ none) ∧
        (r.mmRootPostId ≠ none → createTopic = none)
  | .mattermostPost _ _ rootId _ => r.source.platform = .telegram ∧ r.mmRootPostId = rootId

/-- What the memory of a provider knows of a row that it has sent. -/
def Remembers (w : World) (key : String) : Payload → Delivered → Prop
  | .telegramSend _ _ messageThreadId _ createTopic, .message threadId messageId =>
    HasMessage w messageId threadId ∧ w.threadFor key messageThreadId createTopic = some threadId
  | .mattermostPost _ _ rootId _, .post postId => HasPost w postId rootId ∧ BridgePost w postId
  | _, _ => False

/-! ## The platforms only grow -/

/-- What has been written stays, with its identity and its thread. -/
structure Grows (w w' : World) : Prop where
  posts : ∀ p ∈ w.posts, p ∈ w'.posts
  messages : ∀ m ∈ w.messages, ∃ m' ∈ w'.messages, m'.messageId = m.messageId ∧
    m'.threadId = m.threadId

section

variable {w w' : World}

theorem Grows.of_append (ps : List Post) (ms : List Message)
    (hposts : w'.posts = w.posts ++ ps) (hmessages : w'.messages = w.messages ++ ms) :
    Grows w w' where
  posts := fun _ hp ↦ hposts ▸ List.mem_append_left _ hp
  messages := fun m hm ↦ ⟨m, hmessages ▸ List.mem_append_left _ hm, rfl, rfl⟩

theorem Grows.of_eq (hposts : w'.posts = w.posts) (hmessages : w'.messages = w.messages) :
    Grows w w' :=
  .of_append [] [] (by rw [hposts, List.append_nil]) (by rw [hmessages, List.append_nil])

variable {postId : String} {r : MappingRow}

theorem Grows.hasPost (h : Grows w w') {rootId : Option String} (hp : HasPost w postId rootId) :
    HasPost w' postId rootId := by
  obtain ⟨p, hmem, hrest⟩ := hp
  exact ⟨p, h.posts p hmem, hrest⟩

theorem Grows.bridgePost (h : Grows w w') (hp : BridgePost w postId) : BridgePost w' postId := by
  obtain ⟨p, hmem, hrest⟩ := hp
  exact ⟨p, h.posts p hmem, hrest⟩

theorem Grows.hasMessage (h : Grows w w') {messageId : ℕ} {threadId : Option ℕ}
    (hm : HasMessage w messageId threadId) : HasMessage w' messageId threadId := by
  obtain ⟨m, hmem, hid, hthread⟩ := hm
  obtain ⟨m', hmem', hid', hthread'⟩ := h.messages m hmem
  exact ⟨m', hmem', hid'.trans hid, hthread'.trans hthread⟩

theorem Grows.sourced (h : Grows w w') (hr : Sourced w r) : Sourced w' r := by
  unfold Sourced at hr ⊢
  split at hr
  · exact ⟨hr.1, h.hasPost hr.2⟩
  · exact ⟨hr.1, h.hasMessage hr.2⟩

theorem Grows.landed (h : Grows w w') (hr : Landed w r) : Landed w' r := by
  obtain ⟨postId, messageId, hpost, hmessage, hhas, hhas', hbridge⟩ := hr
  exact ⟨postId, messageId, hpost, hmessage, h.hasPost hhas, h.hasMessage hhas',
    fun hp ↦ h.bridgePost (hbridge hp)⟩

theorem Grows.remembers (h : Grows w w') {key : String} {payload : Payload} {d : Delivered}
    (htopics : ∀ t, w.topics key = some t → w'.topics key = some t)
    (hr : Remembers w key payload d) : Remembers w' key payload d := by
  cases payload with
  | telegramSend =>
    cases d with
    | message =>
      refine ⟨h.hasMessage hr.1, ?_⟩
      have hthread := hr.2
      unfold World.threadFor at hthread ⊢
      split at hthread
      · exact hthread
      · exact hthread
      · obtain ⟨t, ht, heq⟩ := Option.map_eq_some_iff.1 hthread
        rw [htopics t ht]
        exact congrArg some heq
    | post => exact hr
  | mattermostPost =>
    cases d with
    | message => exact hr
    | post => exact ⟨h.hasPost hr.1, h.bridgePost hr.2⟩

end

/-! ## The invariant -/

/-- What replies refer to. -/
structure Platforms (w : World) : Prop where
  replies : ∀ m ∈ w.messages, m.author = .person → ∀ replyTo ∈ m.replyToMessageId,
    ∀ q ∈ w.messages, q.messageId = replyTo → q.threadId = m.threadId
  roots : ∀ p ∈ w.posts, p.author = .person → ∀ rootId ∈ p.rootId, HasPost w rootId none

/-- The rows, and what the memory of the providers knows of them. -/
structure Rows (w : World) : Prop where
  keys : (w.mappings.map MappingRow.dedupeKey).Nodup
  sourced : ∀ r ∈ w.mappings, Sourced w r
  relays : ∀ e ∈ w.relays, Sourced w e.2.mapping ∧ Carries e.2.mapping e.2.outbox.payload ∧
    e.2.mapping.deliveryStatus = .pending ∧ e.2.outbox.status = .pending
  carries : ∀ r ∈ w.mappings, r.deliveryStatus ≠ .sent → ∀ o ∈ w.outbox,
    o.dedupeKey = r.dedupeKey → Carries r o.payload
  landed : ∀ r ∈ w.mappings, r.deliveryStatus = .sent → Landed w r
  dead : ∀ o ∈ w.outbox, o.status = .dead → w.delivered o.dedupeKey = none ∧
    ∀ r ∈ w.mappings, r.dedupeKey = o.dedupeKey → r.deliveryStatus ≠ .sent
  delivered : ∀ key d, w.delivered key = some d →
    ∃ o ∈ w.outbox, o.dedupeKey = key ∧ Remembers w key o.payload d

structure Memory (w : World) : Prop where
  rows : ∀ key t, w.topics key = some t → ∃ o ∈ w.outbox, o.dedupeKey = key
  used : ∀ key t, w.topics key = some t → ∃ id, HasMessage w id (some t)
  topics : ∀ key key' t, w.topics key = some t → w.topics key' = some t → key = key'
  posts : ∀ key key' id, w.delivered key = some (.post id) → w.delivered key' = some (.post id) →
    key = key'

/-- Nothing is joined to the topic, and nothing but `source` is on its way for it. -/
def Alone (w : World) (source : Source) (t : ℕ) : Prop :=
  (∀ root, ¬Joined w (some t) root) ∧ Quiet w source t

structure Paired (w : World) : Prop where
  oneToOne : OneToOne (Joined w)
  rootRow : ∀ r ∈ w.mappings, r.deliveryStatus = .sent → ∀ root, r.root = some root →
    ∃ c ∈ w.mappings, c.deliveryStatus = .sent ∧ c.mmRootPostId = none ∧
      c.mmPostId = some root ∧ c.tgThreadId = r.tgThreadId
  partner : ∀ r ∈ w.mappings, r.deliveryStatus ≠ .sent → ∀ root, r.mmRootPostId = some root →
    Joined w r.tgThreadId root
  relayPartner : ∀ e ∈ w.relays, ∀ root, e.2.mapping.mmRootPostId = some root →
    Joined w e.2.mapping.tgThreadId root
  alone : ∀ r ∈ w.mappings, r.deliveryStatus ≠ .sent → ∀ t, r.NewRoot t → Alone w r.source t
  relayAlone : ∀ e ∈ w.relays, ∀ t, e.2.mapping.NewRoot t →
    w.mapped e.2.mapping.source = true ∨ Alone w e.2.mapping.source t
  newTopic : ∀ r ∈ w.mappings, r.deliveryStatus ≠ .sent → ∀ t,
    w.topics r.dedupeKey = some t → ∀ root, ¬Joined w (some t) root
  newPost : ∀ r ∈ w.mappings, r.deliveryStatus ≠ .sent → ∀ id,
    w.delivered r.dedupeKey = some (.post id) → ∀ c ∈ w.mappings, c.deliveryStatus = .sent →
      c.mmPostId ≠ some id

structure Threaded (s : Setting) (w : World) : Prop where
  loopless : Loopless s w
  platforms : Platforms w
  rows : Rows w
  memory : Memory w
  paired : Paired w

end AgentColab.Bridge
