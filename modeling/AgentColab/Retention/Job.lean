import AgentColab.Ledger.Keys
import Mathlib.Data.Prod.Lex
import Mathlib.Data.String.Basic

/-!
# Message retention and legal holds

A message expires a number of days after it was received, which its channel sets. A pass of the
retention job selects the oldest messages of a Workspace that are not deleted, at most a batch of
them, and skips those that are locked. Of these it destroys the keys of the ones that are expired
and not under a legal hold, which is decided after the batch has been cut.
-/

namespace AgentColab.Retention

open AgentColab Ledger List

def days (n : ℤ) : Time := n * 86400000000

/-- `MESSAGE_RETENTION_DAYS` -/
def messageRetentionDays : ℤ := 365

/-- `MAX_RETENTION_DAYS` -/
def maxRetentionDays : ℤ := 3650

/-- `DOCUMENTATION_POLICIES` -/
def documentationPolicies : List String := ["task_threads", "full_channel"]

/-- The reading of a clock as it is hashed. -/
def dateTime (t : Time) : DateTime :=
  let date := Calendar.Date.ofDays (t / 86400000000)
  let rest := (t % 86400000000).toNat
  ⟨date.year.toNat, date.month, date.day, rest / 3600000000, rest / 60000000 % 60,
    rest / 1000000 % 60, rest % 1000000⟩

/-! ## Tables -/

/-- A row of `messages`, without its ciphertext and without its provenance. -/
structure Message where
  messageId : String
  workspaceId : Uuid
  channelId : Uuid
  bodyRedacted : String
  bodyKeyRef : Option String
  receivedAt : Time
  legalHold : Bool := false
  deletedAt : Option Time := none
  tombstoneRef : Option String := none
deriving DecidableEq

/-- A row of `message_retention_policies`, and what `policy_for` returns. -/
structure RetentionPolicy where
  channelId : Uuid
  retentionDays : ℤ
  legalHold : Bool
  documentationPolicy : String

/-- Of a row of `channels`, what `set_retention` reads and mirrors. -/
structure Channel where
  id : Uuid
  workspaceId : Uuid
  retentionDays : ℤ
  legalHold : Bool

/-- The fields that the hash of a message's tombstone covers. -/
structure MessageTombstone where
  messageId : String
  channelId : Uuid
  reason : String
  keyRef : Option String
  deletedAt : Time

/-- `MESSAGE_TOMBSTONE_CHAIN` -/
def messageTombstoneChain : ChainSpec MessageTombstone where
  table := "message_tombstones"
  hashedFields := ["message_id", "channel_id", "reason", "key_ref", "deleted_at"]
  chainName := "message_tombstones"
  hashedRowFields := fun f ↦
    [("message_id", .str f.messageId), ("channel_id", .str f.channelId.text),
      ("reason", .str f.reason), ("key_ref", .ofOption f.keyRef),
      ("deleted_at", .str (dateTime f.deletedAt).isoformat)]
  Written := fun _ ↦ True
  stored := id
  keys := fun _ ↦ rfl
  nodup := by decide

structure RetentionSet where
  channelId : String
  workspaceId : Uuid
  before : ℤ × Bool
  after : ℤ × Bool
  documentationPolicy : String

/-- There is at most one policy for a channel, which is the primary key. -/
structure Store where
  channels : List Channel := []
  messages : List Message := []
  policies : Uuid → Option RetentionPolicy := fun _ ↦ none
  tombstones : List (ChainRow MessageTombstone) := []
  audit : List RetentionSet := []
  keys : KeyDb := {}
  messageIds : (messages.map (·.messageId)).Nodup := by exact List.nodup_nil
  tombstoned : (tombstones.map (·.fields.messageId)).Nodup := by exact List.nodup_nil

inductive RetentionError where
  /-- A `RetentionError`. -/
  | retention (code detail : String)
  | value
  | canonical
  | integrity (constraint : String)
  /-- What the destruction of a key raises. -/
  | key (e : KeyError)

/-! ## `set_retention` -/

/-- `policy_for` -/
def Store.policyFor (s : Store) (channelId : Uuid) : RetentionPolicy :=
  (s.policies channelId).getD ⟨channelId, messageRetentionDays, false, "task_threads"⟩

/-- The arguments of `set_retention`. -/
structure SetRetention where
  channelId : String
  retentionDays : ℤ
  legalHold : Bool
  changedBy : String
  documentationPolicy : String := "task_threads"
  workspaceId : Option String := none

/-- The upsert of the policy, its mirror and the audit row. -/
def Store.setPolicy (s : Store) (r : SetRetention) (channelId workspaceId : Uuid) : Store :=
  { s with
    policies := Function.update s.policies channelId
      (some ⟨channelId, r.retentionDays, r.legalHold, r.documentationPolicy⟩)
    channels := s.channels.map fun c ↦
      if c.id = channelId then
        { c with retentionDays := r.retentionDays, legalHold := r.legalHold }
      else c
    audit := s.audit ++ [⟨r.channelId, workspaceId,
      ((s.policyFor channelId).retentionDays, (s.policyFor channelId).legalHold),
      (r.retentionDays, r.legalHold), r.documentationPolicy⟩] }

/-- `set_retention` -/
def setRetention (r : SetRetention) (s : Store) : Except RetentionError Store :=
  if ¬(1 ≤ r.retentionDays ∧ r.retentionDays ≤ maxRetentionDays) then
    .error (.retention "RETENTION_DAYS_INVALID"
      (toString r.retentionDays ++ " not in 1.." ++ toString maxRetentionDays))
  else if r.documentationPolicy ∉ documentationPolicies then
    .error (.retention "DOCUMENTATION_POLICY_INVALID" r.documentationPolicy)
  else
    match parseUuid r.channelId with
    | none => .error .value
    | some channelId =>
      match s.channels.find? (·.id = channelId) with
      | none => .error (.retention "CHANNEL_NOT_FOUND" r.channelId)
      | some channel =>
        match parseUuid r.changedBy with
        | none => .error .value
        | some changedBy =>
          if changedBy ∉ s.keys.accounts then
            .error (.integrity "message_retention_policies_changed_by_fkey")
          else
            match r.workspaceId.filter (· ≠ "") with
            | none => .ok (s.setPolicy r channelId channel.workspaceId)
            | some text =>
              match parseUuid text with
              | none => .error .value
              | some workspaceId => .ok (s.setPolicy r channelId workspaceId)

/-! ## The selection -/

/-- The arguments of `retention_job` and its reading of the clock. -/
structure JobInput where
  workspaceId : Uuid
  actorAccountId : String
  now : Time
  batch : ℕ := 1000

/-- `ORDER BY m.received_at, m.message_id` -/
def Message.rank (m : Message) : ℤ ×ₗ String := toLex (m.receivedAt, m.messageId)

/-- A message that the job may select while the given messages are locked. -/
def Message.Open (inp : JobInput) (locked : List String) (m : Message) : Prop :=
  m.workspaceId = inp.workspaceId ∧ m.deletedAt = none ∧ m.messageId ∉ locked

instance (inp : JobInput) (locked : List String) (m : Message) : Decidable (m.Open inp locked) := by
  unfold Message.Open
  infer_instance

structure Selected where
  message : Message
  retentionDays : ℤ
  channelHold : Bool

def Store.join (s : Store) (m : Message) : Selected :=
  ⟨m, (s.policyFor m.channelId).retentionDays, (s.policyFor m.channelId).legalHold⟩

/-- `LIMIT :lim FOR UPDATE OF m SKIP LOCKED` -/
def Store.select (s : Store) (inp : JobInput) (locked : List String) : List Selected :=
  (((s.messages.filter fun m ↦ m.Open inp locked).insertionSort fun a b ↦
    a.rank ≤ b.rank).take inp.batch).map s.join

/-! ## `retention_job` -/

structure RetentionReport where
  expired : ℕ := 0
  destroyed : ℕ := 0
  skippedLegalHold : ℕ := 0
  tombstones : List String := []

def Selected.expiresAt (x : Selected) : Time := x.message.receivedAt + days x.retentionDays

/-- `UPDATE messages SET deleted_at = :now, … WHERE message_id = :m` -/
def Message.redact (messageId : String) (now : Time) (contentHash : String) (m : Message) :
    Message :=
  if m.messageId = messageId then
    { m with
      deletedAt := some now
      bodyRedacted := "REDACTED_BY_RETENTION"
      tombstoneRef := some contentHash }
  else m

@[simp] theorem Message.redact_messageId (messageId : String) (now : Time) (contentHash : String)
    (m : Message) : (m.redact messageId now contentHash).messageId = m.messageId := by
  rw [redact]
  split <;> rfl

def Store.redact (s : Store) (messageId : String) (now : Time) (contentHash : String) : Store :=
  { s with
    messages := s.messages.map (Message.redact messageId now contentHash)
    messageIds := by
      have hids : (fun m : Message ↦ m.messageId) ∘ Message.redact messageId now contentHash =
          (·.messageId) :=
        funext fun m ↦ m.redact_messageId ..
      rw [List.map_map, hids]
      exact s.messageIds }

variable (H : Hashes)

/-- `_append_tombstone` -/
def appendTombstone (fields : MessageTombstone) (s : Store) :
    Except RetentionError (String × Store) :=
  let previous := s.tombstones.getLast?.map (·.contentHash)
  match messageTombstoneChain.chainHash H.sha256 fields previous with
  | .error _ => .error .canonical
  | .ok contentHash =>
    if hnew : fields.messageId ∈ s.tombstones.map (·.fields.messageId) then
      .error (.integrity "message_tombstones_message_id_key")
    else .ok (contentHash, { s with
      tombstones := s.tombstones ++ [⟨s.tombstones.length, fields, previous, contentHash⟩]
      tombstoned := by
        rw [map_append, map_singleton, nodup_append_comm]
        exact nodup_cons.2 ⟨hnew, s.tombstoned⟩ })

/-- The key of a message is destroyed, unless it has none or it is destroyed already. -/
def destroyBody (inp : JobInput) (clocks : Clocks) (keyRef : Option String) (db : KeyDb) :
    Except RetentionError KeyDb :=
  match keyRef.filter (· ≠ "") with
  | none => .ok db
  | some keyRef =>
    match destroy H keyRef inp.actorAccountId "RETENTION" none clocks db with
    | .ok db => .ok db
    | .error (.crypto code detail) =>
      if code = "KEY_ALREADY_DESTROYED" then .ok db else .error (.key (.crypto code detail))
    | .error e => .error (.key e)

/-- The body of the loop of `retention_job`. -/
def retainRow (inp : JobInput) (clocks : Clocks) (x : Selected) (s : Store)
    (report : RetentionReport) : Except RetentionError (Store × RetentionReport) :=
  if inp.now ≤ x.expiresAt then .ok (s, report)
  else
    let report := { report with expired := report.expired + 1 }
    if x.channelHold || x.message.legalHold then
      .ok (s, { report with skippedLegalHold := report.skippedLegalHold + 1 })
    else do
      let keys ← destroyBody H inp clocks x.message.bodyKeyRef s.keys
      let (contentHash, s) ← appendTombstone H
        ⟨x.message.messageId, x.message.channelId, "RETENTION",
          x.message.bodyKeyRef.filter (· ≠ ""), inp.now⟩
        { s with keys := keys }
      return (s.redact x.message.messageId inp.now contentHash, { report with
        destroyed := report.destroyed + 1
        tombstones := report.tombstones ++ [contentHash] })

/-- The loop of `retention_job`. -/
def retainRows (inp : JobInput) (clocks : Clocks) :
    List Selected → Store → RetentionReport → Except RetentionError (Store × RetentionReport)
  | [], s, report => .ok (s, report)
  | x :: rows, s, report => do
    let (s, report) ← retainRow H inp clocks x s report
    retainRows inp clocks rows s report

end AgentColab.Retention
