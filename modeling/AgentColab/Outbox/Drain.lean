import AgentColab.Schedules.Contract
import Mathlib.Data.Prod.Lex

/-!
# The delivery outbox and its drains

One table holds the deliveries to channels and to webhooks and the notifications. A drain selects
the pending rows of its Workspace that are due, oldest first and at most a batch of them, hands each
to a provider, and records what came of it. The channel drain passes over the rows of other kinds
after the selection; the notification drain does not look at the kind. The drain of webhooks is the
channel drain with another prefix and one provider.
-/

namespace AgentColab.Outbox

/-! ## The table -/

inductive Status where
  | pending
  | sent
  | dead
deriving DecidableEq

structure Payload where
  notificationId : Option String := none
  eventId : Option String := none
  ruleId : Option String := none
  recipientAccountId : Option String := none
  channel : Option String := none
deriving DecidableEq

/-- The columns that a drain changes. -/
structure Delivery where
  status : Status := .pending
  attempts : ℕ := 0
  nextAttemptAt : Time
  lastError : Option String := none
  sentAt : Option Time := none
deriving DecidableEq

/-- A row of `delivery_outbox`. -/
structure Row where
  id : ℕ
  outboxId : String
  workspaceId : String
  kind : String
  destination : String
  dedupeKey : String
  payload : Payload := {}
  createdAt : Time
  delivery : Delivery
deriving DecidableEq

/-- Of a row of `channel_posts`, what a drain changes. -/
structure ChannelPost where
  dedupeKey : String
  status : Status := .pending
  postId : Option String := none
  sentAt : Option Time := none

inductive NotificationStatus where
  | queued
  | sent
  | other (name : String)
deriving DecidableEq

structure Notification where
  notificationId : String
  status : NotificationStatus
  sentAt : Option Time := none

/-- A `NOTIFICATION_SENT` Event. -/
structure SentEvent where
  notificationId : String
  correlationId : String
  idempotencyKey : String
  ruleId : Option String
  recipientAccountId : Option String
  channel : Option String

structure Tables where
  rows : List Row := []
  posts : List ChannelPost := []
  notifications : List Notification := []
  events : List SentEvent := []
  primaryKey : (rows.map (·.id)).Nodup := by decide

namespace Tables

/-- `UPDATE delivery_outbox … WHERE id = :i` -/
def update (t : Tables) (i : ℕ) (f : Delivery → Delivery) : Tables where
  rows := t.rows.map fun r ↦ if r.id = i then { r with delivery := f r.delivery } else r
  posts := t.posts
  notifications := t.notifications
  events := t.events
  primaryKey := by
    have hids : (t.rows.map fun r ↦ if r.id = i then { r with delivery := f r.delivery } else r).map
        (·.id) = t.rows.map (·.id) := by
      rw [List.map_map]
      refine List.map_congr_left fun r _ ↦ ?_
      simp only [Function.comp_apply]
      split <;> rfl
    rw [hids]
    exact t.primaryKey

/-- `UPDATE channel_posts … WHERE dedupe_key = :k` -/
def updatePost (t : Tables) (key : String) (f : ChannelPost → ChannelPost) : Tables :=
  { t with posts := t.posts.map fun p ↦ if p.dedupeKey = key then f p else p }

/-- `UPDATE notifications SET status = 'sent' … AND status = 'queued'` -/
def markNotified (t : Tables) (nid : String) (now : Time) : Tables :=
  { t with
    notifications := t.notifications.map fun n ↦
      if n.notificationId = nid ∧ n.status = .queued then
        { n with status := .sent, sentAt := some now }
      else n }

/-- The append is idempotent on the outbox id. -/
def addEvent (t : Tables) (e : SentEvent) : Tables :=
  if t.events.any (·.idempotencyKey = e.idempotencyKey) then t
  else { t with events := t.events ++ [e] }

@[simp] theorem rows_updatePost (t : Tables) (key : String) (f : ChannelPost → ChannelPost) :
    (t.updatePost key f).rows = t.rows := rfl

@[simp] theorem rows_markNotified (t : Tables) (nid : String) (now : Time) :
    (t.markNotified nid now).rows = t.rows := rfl

@[simp] theorem rows_addEvent (t : Tables) (e : SentEvent) : (t.addEvent e).rows = t.rows := by
  rw [addEvent]
  split <;> rfl

theorem mem_rows_update {t : Tables} {i : ℕ} {f : Delivery → Delivery} {r : Row} :
    r ∈ (t.update i f).rows ↔
      ∃ q ∈ t.rows, (if q.id = i then { q with delivery := f q.delivery } else q) = r := by
  rw [update, List.mem_map]

end Tables

/-! ## The selection -/

/-- What a pass reads and is given. `locked` are the rows that others hold, which are skipped. -/
structure Input where
  workspaceId : String
  now : Time
  batch : ℕ
  maxAttempts : ℕ := 5
  locked : List ℕ := []

/-- A row that a pass may select. -/
def Row.Due (inp : Input) (r : Row) : Prop :=
  r.workspaceId = inp.workspaceId ∧ r.delivery.status = .pending ∧
    r.delivery.nextAttemptAt ≤ inp.now ∧ r.id ∉ inp.locked

instance (inp : Input) (r : Row) : Decidable (r.Due inp) := by
  unfold Row.Due
  infer_instance

/-- `ORDER BY next_attempt_at, id` -/
def Row.rank (r : Row) : ℤ ×ₗ ℕ := toLex (r.delivery.nextAttemptAt, r.id)

/-- The rows that a pass may select, in order. -/
def Tables.due (t : Tables) (inp : Input) : List Row :=
  (t.rows.filter fun r ↦ r.Due inp).insertionSort fun a b ↦ a.rank ≤ b.rank

/-- The rows that a pass selects: `LIMIT :lim FOR UPDATE SKIP LOCKED`. -/
def Tables.select (t : Tables) (inp : Input) : List Row := (t.due inp).take inp.batch

/-! ## What comes of a row -/

/-- `BACKOFF_S` -/
def backoff : List ℤ := [1, 5, 25, 125, 625]

/-- A provider has raised: the row is tried again later, or not at all any more. -/
def Delivery.failed (inp : Input) (attempts : ℕ) (error : String) (d : Delivery) : Delivery :=
  if inp.maxAttempts ≤ attempts + 1 then
    { d with status := .dead, attempts := attempts + 1, lastError := some (error.take 500).toString }
  else
    { d with
      attempts := attempts + 1
      lastError := some (error.take 500).toString
      nextAttemptAt := inp.now + Schedules.seconds (backoff.getD (min attempts 4) 0) }

/-- A provider has accepted the row. -/
def Delivery.delivered (inp : Input) (d : Delivery) : Delivery :=
  { d with status := .sent, attempts := d.attempts + 1, sentAt := some inp.now }

inductive Family where
  | channel
  | webhook
  | notification
deriving DecidableEq

/-- The record of a row that a pass has handed to a provider. -/
structure Handed where
  row : Row
  provider : Family
  accepted : Bool
deriving DecidableEq

/-- What a drain returns: `DrainResult` and `ChannelDrainResult`. -/
structure Result where
  sent : ℕ := 0
  failed : ℕ := 0
  dead : ℕ := 0
  eventsAppended : ℕ := 0
  skippedNoProvider : ℕ := 0
  latenciesMs : List ℤ := []

structure Pass where
  tables : Tables
  result : Result := {}
  handed : List Handed := []

def destinationPrefix (destination : String) : String :=
  String.ofList (destination.toList.takeWhile (· ≠ ':'))

/-- `kind.startswith(prefixes)` -/
def startsWith (kind : String) (prefixes : List String) : Bool :=
  prefixes.any fun p ↦ p.toList.isPrefixOf kind.toList

/-! ## The notification drain -/

/-- What the provider and the Event store make of a row in one pass: the error that `send` raises,
and the code of the error that `append` raises. -/
structure NotificationProvider where
  send : Row → Option String
  append : Row → Option String

def sentEvent (r : Row) (nid : String) : SentEvent where
  notificationId := nid
  correlationId := r.payload.eventId.getD r.outboxId
  idempotencyKey := r.outboxId
  ruleId := r.payload.ruleId
  recipientAccountId := r.payload.recipientAccountId
  channel := r.payload.channel

/-- The body of the loop of `drain`. The error is what the pass raises. -/
def drainRow (inp : Input) (provider : NotificationProvider) (p : Pass) (r : Row) :
    Pass × Option String :=
  match provider.send r with
  | some error =>
    (⟨p.tables.update r.id (·.failed inp r.delivery.attempts error),
      if inp.maxAttempts ≤ r.delivery.attempts + 1 then { p.result with dead := p.result.dead + 1 }
      else { p.result with failed := p.result.failed + 1 },
      p.handed ++ [⟨r, .notification, false⟩]⟩, none)
  | none =>
    let p := ⟨p.tables.update r.id (·.delivered inp),
      { p.result with sent := p.result.sent + 1 }, p.handed ++ [⟨r, .notification, true⟩]⟩
    match r.payload.notificationId with
    | none => (p, none)
    | some nid =>
      if r.kind = "notification" ∧ nid ≠ "" then
        let p := { p with tables := p.tables.markNotified nid inp.now }
        match provider.append r with
        | none => ({ p with
            tables := p.tables.addEvent (sentEvent r nid)
            result := { p.result with eventsAppended := p.result.eventsAppended + 1 } }, none)
        | some code => if code = "IDEMPOTENCY_CONFLICT" then (p, none) else (p, some code)
      else (p, none)

/-- The loop of `drain`. -/
def drainRows (inp : Input) (provider : NotificationProvider) (p : Pass) :
    List Row → Pass × Option String
  | [] => (p, none)
  | r :: rows =>
    match drainRow inp provider p r with
    | (p, none) => drainRows inp provider p rows
    | (p, some code) => (p, some code)

/-- `drain`. A pass that raises is rolled back; what the provider was handed stays handed. -/
def drain (inp : Input) (provider : NotificationProvider) (t : Tables) : Pass × Option String :=
  match drainRows inp provider ⟨t, {}, []⟩ (t.select inp) with
  | (p, none) => (p, none)
  | (p, some code) => ({ p with tables := t }, some code)

/-! ## The channel drain -/

/-- What a provider makes of a row in one pass: the id of the post, or the error it raises. -/
abbrev ChannelProvider := Row → Except String String

/-- Whether the channel drain hands this row to a provider when it selects it. -/
def deliverable (providers : String → Option ChannelProvider) (kindsPrefix : List String)
    (r : Row) : Bool :=
  startsWith r.kind kindsPrefix && (providers (destinationPrefix r.destination)).isSome

/-- The body of the loop of `drain_channels`, for providers of the given family. -/
def deliverRow (inp : Input) (family : Family) (providers : String → Option ChannelProvider)
    (kindsPrefix : List String) (p : Pass) (r : Row) : Pass :=
  if !startsWith r.kind kindsPrefix then p
  else
  match providers (destinationPrefix r.destination) with
  | none => { p with
      result := { p.result with skippedNoProvider := p.result.skippedNoProvider + 1 } }
  | some provider =>
    match provider r with
    | .error error =>
      let t := p.tables.update r.id (·.failed inp r.delivery.attempts error)
      if inp.maxAttempts ≤ r.delivery.attempts + 1 then
        ⟨t.updatePost r.dedupeKey ({ · with status := .dead }),
          { p.result with dead := p.result.dead + 1 }, p.handed ++ [⟨r, family, false⟩]⟩
      else
        ⟨t, { p.result with failed := p.result.failed + 1 }, p.handed ++ [⟨r, family, false⟩]⟩
    | .ok postId =>
      ⟨(p.tables.update r.id (·.delivered inp)).updatePost r.dedupeKey
          ({ · with status := .sent, postId := some postId, sentAt := some inp.now }),
        { p.result with
          sent := p.result.sent + 1
          latenciesMs := p.result.latenciesMs ++ [(inp.now - r.createdAt).tdiv 1000] },
        p.handed ++ [⟨r, family, true⟩]⟩

/-- `drain_channels` -/
def drainChannels (inp : Input) (family : Family) (providers : String → Option ChannelProvider)
    (kindsPrefix : List String) (t : Tables) : Pass :=
  (t.select inp).foldl (deliverRow inp family providers kindsPrefix) ⟨t, {}, []⟩

/-- The kinds of `drain_channels` unless told otherwise, and those of `drain_webhooks`. -/
def channelKinds : List String := ["mattermost.", "telegram."]

def webhookKinds : List String := ["webhook."]

/-- `drain_webhooks` -/
def drainWebhooks (inp : Input) (provider : ChannelProvider) (t : Tables) : Pass :=
  drainChannels inp .webhook (fun key ↦ if key = "webhook" then some provider else none) webhookKinds t

end AgentColab.Outbox
