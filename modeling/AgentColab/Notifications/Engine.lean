import AgentColab.Notifications.Rules
import AgentColab.Outbox.Partition

/-!
# The notification engine

What was planned for an Event is written in the transaction of whoever appended it: a row for each
notification whose key is new, and what is to be delivered in the outbox. A digest has one row for a
recipient and an hour, to which later notifications are added, whatever has become of the row.
-/

namespace AgentColab.Notifications

open AgentColab List

/-! ## Tables -/

/-- What a digest says of a notification. -/
structure Item where
  notificationId : String
  ruleId : String
  recipient : Uuid
  eventId : String
  eventType : String
  subject : String

/-- A row of `notifications`, with its Event and its plan. Its status is in the tables of the
outbox. -/
structure Note where
  notificationId : String
  ruleId : String
  source : Event
  recipient : Uuid
  channels : List String
  dedupeKey : String
  plan : Plan

/-- The items of the digests are by the ids of their rows. -/
structure Db where
  tables : Outbox.Tables := {}
  items : ℕ → List Item := fun _ ↦ []
  notes : List Note := []
  dedupeKeys : (notes.map (·.dedupeKey)).Nodup := by exact List.nodup_nil

/-- What a transaction draws: a random number for each notification and for each row of the outbox,
and the database's time. -/
structure Draws where
  notification : ℕ → Uuid
  outbox : ℕ → Uuid
  now : Time

/-- `uuid.uuid4().hex[:20]` -/
def hex20 (u : Uuid) : String := String.ofList ((u.text.toList.filter (· ≠ '-')).take 20)

def notificationIdOf (u : Uuid) : String := "ntf-" ++ hex20 u

inductive PersistError where
  | integrity (constraint : String)

/-! ## The outbox -/

def nextId (t : Outbox.Tables) : ℕ := (t.rows.map (·.id)).foldr max 0 + 1

theorem lt_nextId {t : Outbox.Tables} {r : Outbox.Row} (h : r ∈ t.rows) : r.id < nextId t := by
  have hle : ∀ ids : List ℕ, ∀ i ∈ ids, i ≤ ids.foldr max 0 := by
    intro ids
    induction ids with
    | nil => exact fun i hi ↦ absurd hi not_mem_nil
    | cons j _ ih =>
      intro i hi
      rw [foldr_cons, le_max_iff]
      exact (mem_cons.1 hi).imp le_of_eq (ih i)
  exact Nat.lt_succ_of_le (hle _ _ (List.mem_map_of_mem h))

structure NewRow where
  kind : String
  destination : String
  dedupeKey : String
  payload : Outbox.Payload := {}
  nextAttemptAt : Time

def NewRow.row (new : NewRow) (draws : Draws) (workspaceId : String) (id : ℕ) : Outbox.Row where
  id := id
  outboxId := "obx-" ++ hex20 (draws.outbox id)
  workspaceId := workspaceId
  kind := new.kind
  destination := new.destination
  dedupeKey := new.dedupeKey
  payload := new.payload
  createdAt := draws.now
  delivery := { nextAttemptAt := new.nextAttemptAt }

def insertRow (t : Outbox.Tables) (new : NewRow) (draws : Draws) (workspaceId : String) :
    Outbox.Tables :=
  { t with
    rows := t.rows ++ [new.row draws workspaceId (nextId t)]
    primaryKey := by
      rw [map_append, map_singleton, nodup_append_comm]
      refine nodup_cons.2 ⟨fun hmem ↦ ?_, t.primaryKey⟩
      obtain ⟨r, hr, hid⟩ := List.mem_map.1 hmem
      exact (lt_nextId hr).ne hid }

/-- `enqueue` -/
def enqueue (draws : Draws) (workspaceId : String) (new : NewRow) (db : Db) : Db :=
  if new.dedupeKey ∈ db.tables.rows.map (·.dedupeKey) then db
  else { db with tables := insertRow db.tables new draws workspaceId }

/-- `enqueue_digest` -/
def enqueueDigest (draws : Draws) (workspaceId : String) (recipient : Uuid) (digestKey : String)
    (item : Item) (deliverAt : Time) (db : Db) : Db :=
  match db.tables.rows.find? (·.dedupeKey = digestKey) with
  | some r => { db with items := Function.update db.items r.id (db.items r.id ++ [item]) }
  | none =>
    { db with
      tables := insertRow db.tables
        { kind := "notification_digest"
          destination := "mattermost:dm:" ++ recipient.text
          dedupeKey := digestKey
          payload := { recipientAccountId := some recipient.text }
          nextAttemptAt := deliverAt } draws workspaceId
      items := Function.update db.items (nextId db.tables) [item] }

/-! ## `_persist` -/

/-- The status of a row that is inserted: a digest is queued. -/
def Plan.status : Plan → Outbox.NotificationStatus
  | .suppressed => .other "suppressed"
  | _ => .queued

/-- `INSERT INTO notifications …` -/
def insertNote (n : Note) (db : Db) (hnew : n.dedupeKey ∉ db.notes.map (·.dedupeKey)) : Db :=
  { db with
    notes := db.notes ++ [n]
    tables := { db.tables with
      notifications := db.tables.notifications ++ [⟨n.notificationId, n.plan.status, none⟩] }
    dedupeKeys := by
      rw [map_append, map_singleton, nodup_append_comm]
      exact nodup_cons.2 ⟨hnew, db.dedupeKeys⟩ }

/-- The row of the outbox for one channel of a notification. -/
def directRow (e : Event) (p : PlannedNotification) (notificationId channel : String) : NewRow where
  kind := "notification"
  destination := channel ++ ":" ++ p.recipient.text
  dedupeKey := notificationId ++ "|" ++ channel
  payload :=
    { notificationId := some notificationId
      eventId := some e.eventId
      ruleId := some p.ruleId
      recipientAccountId := some p.recipient.text
      channel := some channel }
  nextAttemptAt := p.deliverAt

/-- What follows the insertion of a notification. -/
def deliverPlan (draws : Draws) (e : Event) (p : PlannedNotification) (notificationId : String)
    (db : Db) : Db :=
  match p.status with
  | .suppressed => db
  | .digest => enqueueDigest draws e.workspaceId p.recipient (p.digestKey.getD "")
      ⟨notificationId, p.ruleId, p.recipient, e.eventId, e.type, p.subject⟩ p.deliverAt db
  | .queued => (p.channels.map (directRow e p notificationId)).foldl
      (fun db new ↦ enqueue draws e.workspaceId new db) db

/-- `NotificationRecord`, without the ids of the outbox. -/
structure NotificationRecord where
  notificationId : Option String
  ruleId : String
  recipient : Uuid
  status : Option Plan

/-- `_persist`; the status of a duplicate is `none`. -/
def persist (draws : Draws) (k : ℕ) (e : Event) (p : PlannedNotification) (db : Db) :
    Except PersistError (Db × NotificationRecord) :=
  let notificationId := notificationIdOf (draws.notification k)
  if hnew : p.dedupeKey ∈ db.notes.map (·.dedupeKey) then
    .ok (db, ⟨none, p.ruleId, p.recipient, none⟩)
  else if notificationId ∈ db.notes.map (·.notificationId) then
    .error (.integrity "notifications_pkey")
  else
    .ok (deliverPlan draws e p notificationId (insertNote
        ⟨notificationId, p.ruleId, e, p.recipient, p.channels, p.dedupeKey, p.status⟩ db hnew),
      ⟨some notificationId, p.ruleId, p.recipient, some p.status⟩)

def persistAll (draws : Draws) (e : Event) :
    List PlannedNotification → ℕ → Db → Except PersistError (Db × List NotificationRecord)
  | [], _, db => .ok (db, [])
  | p :: ps, k, db => do
    let (db, record) ← persist draws k e p db
    let (db, records) ← persistAll draws e ps (k + 1) db
    return (db, record :: records)

/-! ## `on_event` -/

def postRow (e : Event) (now : Time) (ruleId channel channelUuid : String) : NewRow where
  kind := "notification_channel_post"
  destination := channel ++ ":" ++ channelUuid
  dedupeKey := ruleId ++ "|" ++ e.eventId ++ "|" ++ channel ++ "|" ++ channelUuid
  payload := { eventId := some e.eventId, ruleId := some ruleId, channel := some channel }
  nextAttemptAt := now

/-- The posts of `_channel_posts`. -/
def channelPosts (engine : Engine) (destinations : String → List String) (e : Event) (now : Time) :
    List NewRow :=
  (engine.matchRules e.type).flatMap fun rule ↦
    (rule.channels.filter fun c ↦ c ∈ channelPostChannels && c ∈ engine.enabledChannels).flatMap
      fun channel ↦ (destinations channel).map (postRow e now rule.ruleId channel)

def reminderRow (rule : Rule) (notificationId : String) (recipient : Uuid) (tag : String)
    (at' : Time) (channel : String) : NewRow where
  kind := "notification_reminder"
  destination := channel ++ ":" ++ recipient.text
  dedupeKey := notificationId ++ "|" ++ channel ++ "|" ++ tag
  payload :=
    { notificationId := some notificationId
      ruleId := some rule.ruleId
      recipientAccountId := some recipient.text
      channel := some channel }
  nextAttemptAt := at'

/-- When the notifications of a rule are repeated: the reminders, and the one that follows. -/
def followupTimes (rule : Rule) (e : Event) (now : Time) : List (List (String × Time)) :=
  [match rule.reminders, e.expiresAt with
    | some reminders, some expiresAt => reminderTimes e.occurredAt expiresAt reminders
    | _, _ => [],
  match rule.reNotifyAfterSeconds.filter (· ≠ 0) with
    | some seconds => [("re_notify", now + seconds * 1000000)]
    | none => []]

def scheduleReminders (engine : Engine) (rule : Rule) (times : List (String × Time))
    (record : NotificationRecord) : List NewRow :=
  match record.notificationId with
  | none => []
  | some notificationId => times.flatMap fun (tag, at') ↦
      (engine.channels rule).map (reminderRow rule notificationId record.recipient tag at')

/-- The reminders of `_followups`. -/
def followups (engine : Engine) (e : Event) (now : Time) (records : List NotificationRecord) :
    List NewRow :=
  (engine.matchRules e.type).flatMap fun rule ↦
    (followupTimes rule e now).flatMap fun times ↦
      (records.filter fun r ↦ r.ruleId = rule.ruleId && r.status = some .queued).flatMap
        (scheduleReminders engine rule times)

/-- An Event for which the engine has planned. -/
structure Dispatch where
  event : Event
  now : Time
  reading : Reading
  destinations : String → List String

def Dispatch.planned (d : Dispatch) (engine : Engine) : List PlannedNotification :=
  engine.planNotifications d.reading d.event d.now

/-- What `on_event` writes when it has planned. -/
def onEvent (engine : Engine) (d : Dispatch) (draws : Draws) (now : Time) (db : Db) :
    Except PersistError Db := do
  let (db, records) ← persistAll draws d.event (d.planned engine) 0 db
  return (channelPosts engine d.destinations d.event now ++
      followups engine d.event d.now records).foldl
    (fun db new ↦ enqueue draws d.event.workspaceId new db) db

/-! ## Dispatches and drains -/

/-- What a provider has accepted: a row, with the items that it had then. -/
structure Sent where
  row : Outbox.Row
  items : List Item

structure World where
  db : Db := {}
  now : Time := 0
  inFlight : List Dispatch := []
  dispatched : List Dispatch := []
  sent : List Sent := []

inductive Label where
  | tick (d : ℕ)
  /-- The engine reads its clock and plans. -/
  | plan (e : Event) (reading : Reading) (destinations : String → List String)
  /-- What it planned is written and committed, or rolled back if the database refuses it. -/
  | commit (i : ℕ) (draws : Draws)
  | abort (i : ℕ)
  | drain (inp : Outbox.Input) (provider : Outbox.NotificationProvider)

def Db.sentBy (db : Db) (p : Outbox.Pass) : List Sent :=
  (p.handed.filter (·.accepted)).map fun x ↦ ⟨x.row, db.items x.row.id⟩

def World.step (engine : Engine) (w : World) : Label → World
  | .tick d => { w with now := w.now + d }
  | .plan e reading destinations =>
    { w with inFlight := w.inFlight ++ [⟨e, w.now, reading, destinations⟩] }
  | .commit i draws =>
    match w.inFlight[i]? with
    | none => w
    | some d =>
      match onEvent engine d draws w.now w.db with
      | .error _ => { w with inFlight := w.inFlight.eraseIdx i }
      | .ok db => { w with
          db := db
          inFlight := w.inFlight.eraseIdx i
          dispatched := w.dispatched ++ [d] }
  | .abort i => { w with inFlight := w.inFlight.eraseIdx i }
  | .drain inp provider =>
    { w with
      db := { w.db with tables := (Outbox.drain inp provider w.db.tables).1.tables }
      sent := w.sent ++ w.db.sentBy (Outbox.drain inp provider w.db.tables).1 }

/-- The worlds that are reached from the empty one by steps that satisfy `C`. -/
inductive Reached (engine : Engine) (C : World → Label → Prop) : World → Prop
  | start : Reached engine C {}
  | step {w : World} (l : Label) (hw : Reached engine C w) (hl : C w l) :
      Reached engine C (w.step engine l)

end AgentColab.Notifications
