import AgentColab.Domain.Clock
import AgentColab.Events.Store
import AgentColab.Transaction.System
import Mathlib.Data.List.Infix

/-!
# The PostgreSQL Event store

The tables that `append` reads and writes, the statements it issues, and `append` itself as a
program over these statements.

An advisory lock is held to the end of the transaction, and so is each unique key of a row that was
inserted. The advisory lock is taken on the text rather than on its 32-bit hash; colliding hashes
only make more transactions wait.

`CHECK` constraints and foreign keys of `events` are implied by what `append` has checked before the
insert. `recorded_at` is not read by any function here.
-/

namespace AgentColab

open Transaction

/-! ## Rows -/

/-- A row of `events`. The payload is the value that is read back from the column. -/
structure EventRow where
  id : Uuid
  recordedSeq : ℕ
  eventId : String
  schemaVersion : ℤ
  workspaceId : Uuid
  aggregateType : String
  aggregateId : String
  aggregateSeq : ℕ
  channelId : Option Uuid
  taskId : Option String
  type : String
  actorAccountId : Uuid
  causedBy : Option String
  correlationId : String
  idempotencyScope : String
  idempotencyKey : String
  requestBodyHash : String
  policyVersion : String
  payload : Json
  sensitivePayloadCiphertext : Option (List UInt8)
  sensitivePayloadKeyRef : Option String
  previousHash : Option String
  contentHash : String
  occurredAt : Time

def rowToEvent (row : EventRow) : Event where
  eventId := row.eventId
  schemaVersion := row.schemaVersion
  workspaceId := row.workspaceId.text
  aggregateType := row.aggregateType
  aggregateId := row.aggregateId
  aggregateSeq := row.aggregateSeq
  channelId := row.channelId.map Uuid.text
  taskId := row.taskId
  type := row.type
  actorAccountId := row.actorAccountId.text
  causedBy := row.causedBy
  correlationId := row.correlationId
  idempotencyScope := row.idempotencyScope
  idempotencyKey := row.idempotencyKey
  policyVersion := row.policyVersion
  payload := row.payload
  sensitivePayloadCiphertext := row.sensitivePayloadCiphertext.map Base64.mk
  sensitivePayloadKeyRef := row.sensitivePayloadKeyRef
  previousHash := row.previousHash
  occurredAt := isoformatUtc row.occurredAt
  contentHash := row.contentHash

structure Aggregate where
  workspaceId : Uuid
  aggregateType : String
  aggregateId : String
deriving DecidableEq

/-- The scope within which an idempotency key names one request. -/
structure IdemKey where
  workspaceId : Uuid
  actorAccountId : Uuid
  scope : String
  key : String
deriving DecidableEq

def EventRow.aggregate (row : EventRow) : Aggregate :=
  ⟨row.workspaceId, row.aggregateType, row.aggregateId⟩

def EventRow.idemKey (row : EventRow) : IdemKey :=
  ⟨row.workspaceId, row.actorAccountId, row.idempotencyScope, row.idempotencyKey⟩

inductive KeyStatus where
  | active
  | destroyed

/-- The tables `append` works on. Accounts, channels and tasks are read only. -/
structure EventTables where
  events : List EventRow := []
  sensitiveKeys : List (String × KeyStatus) := []
  accounts : List (Uuid × Uuid) := []
  channels : List (Uuid × Uuid) := []
  tasksProjection : List (String × Uuid) := []

/-- `ORDER BY aggregate_seq DESC LIMIT 1` -/
def latest (rows : List EventRow) : Option EventRow :=
  rows.foldl (fun best r ↦ match best with
    | none => some r
    | some b => if b.aggregateSeq < r.aggregateSeq then some r else some b) none

namespace EventTables

variable (db : EventTables)

def ofAggregate (a : Aggregate) : List EventRow := db.events.filter (·.aggregate = a)

/-- The stream of an aggregate, `ORDER BY aggregate_seq`. -/
def streamRows (a : Aggregate) : List EventRow :=
  (db.ofAggregate a).insertionSort fun r s ↦ r.aggregateSeq ≤ s.aggregateSeq

/-- `stream` -/
def stream (a : Aggregate) : List Event := (db.streamRows a).map rowToEvent

def findIdempotent (k : IdemKey) : Option EventRow := db.events.find? (·.idemKey = k)

end EventTables

/-! ## Statements -/

/-- The constraints of `events` that an insert can violate, in the order they are checked. -/
inductive UniqueConstraint where
  | id | eventId | aggregateSeq | idempotencyKey

/-- The names PostgreSQL gives the constraints: table and columns, cut to 63 bytes. -/
def UniqueConstraint.name : UniqueConstraint → String
  | .id => "events_pkey"
  | .eventId => "events_event_id_key"
  | .aggregateSeq => "events_workspace_id_aggregate_type_aggregate_id_aggregate_s_key"
  | .idempotencyKey => "events_workspace_id_actor_account_id_idempotency_scope_idem_key"

/-- `sub in name` -/
def nameContains (sub : String) (c : UniqueConstraint) : Bool :=
  decide (sub.toList <:+: c.name.toList)

inductive InsertResult where
  | inserted (recordedSeq : ℕ)
  | violates (c : UniqueConstraint)
  /-- A text that PostgreSQL cannot store. -/
  | dataError

/-- The two clock readings of `append`: the one that is hashed and the one that is stored. -/
inductive Reading where
  | hashed
  | stored

/-- The statements of `append`, and its other calls to the environment. -/
inductive EventStmt where
  | advisoryLock (key : String)
  | findIdempotent (key : IdemKey)
  | accountWorkspace (account : Uuid)
  | channelWorkspace (channel : Uuid)
  | taskWorkspace (task : String)
  | eventWorkspace (eventId : String)
  | head (a : Aggregate)
  | encrypt (keyRef : String)
  | newUuid
  | now (reading : Reading)
  | insert (row : ℕ → EventRow)

abbrev EventRes : EventStmt → Type
  | .advisoryLock _ => Unit
  | .findIdempotent _ => Option EventRow
  | .accountWorkspace _ => Option Uuid
  | .channelWorkspace _ => Option Uuid
  | .taskWorkspace _ => Option Uuid
  | .eventWorkspace _ => Option Uuid
  | .head _ => Option (ℕ × String)
  | .encrypt _ => Except CodedError (List UInt8)
  | .newUuid => Uuid
  | .now _ => Time
  | .insert _ => InsertResult

/-- What a transaction can hold. -/
inductive EventLock where
  | advisory (key : String)
  | id (id : Uuid)
  | eventId (eventId : String)
  | aggregateSeq (a : Aggregate) (seq : ℕ)
  | idempotencyKey (key : IdemKey)
  | sensitiveKey (keyRef : String)
deriving DecidableEq

/-- What a transaction can write. Events are never changed or deleted. -/
inductive EventWrite where
  | insertEvent (row : EventRow)
  | insertKey (keyRef : String)

/-- What the environment contributes to a statement: the clock, a random UUID and the bytes of an
encryption. -/
structure EventInput where
  now : Time := 0
  uuid : Uuid
  ciphertext : List UInt8 := []

def EventTables.apply (db : EventTables) : EventWrite → EventTables
  | .insertEvent row => { db with events := db.events ++ [row] }
  | .insertKey ref => { db with sensitiveKeys := db.sensitiveKeys ++ [(ref, .active)] }

def EventRow.uniqueKeys (row : EventRow) : List EventLock :=
  [.id row.id, .eventId row.eventId, .aggregateSeq row.aggregate row.aggregateSeq,
    .idempotencyKey row.idemKey]

def EventWrite.keys : EventWrite → List EventLock
  | .insertEvent row => row.uniqueKeys
  | .insertKey ref => [.sensitiveKey ref]

/-- The first constraint that a row violates. -/
def EventTables.violated (db : EventTables) (row : EventRow) : Option UniqueConstraint :=
  if db.events.any (·.id = row.id) then some .id
  else if db.events.any (·.eventId = row.eventId) then some .eventId
  else if db.events.any fun r ↦ r.aggregate = row.aggregate ∧ r.aggregateSeq = row.aggregateSeq then
    some .aggregateSeq
  else if db.events.any (·.idemKey = row.idemKey) then some .idempotencyKey
  else none

mutual

/-- Whether `jsonb` stores the value: no string in it has a NUL character. -/
def Json.storable : Json → Bool
  | .str s => !s.toList.contains '\x00'
  | .arr xs => storableItems xs
  | .obj ms => storableMembers ms
  | _ => true

def storableItems : List Json → Bool
  | [] => true
  | x :: xs => x.storable && storableItems xs

def storableMembers : List (String × Json) → Bool
  | [] => true
  | (k, v) :: ms => !k.toList.contains '\x00' && v.storable && storableMembers ms

end

/-- `ensure_dek` and the encryption under it, which wait for a transaction that is creating the key.
-/
def execEncrypt (inp : EventInput) (db : EventTables) (keyRef : String) :
    Effect EventWrite EventLock (Except CodedError (List UInt8)) :=
  match db.sensitiveKeys.lookup keyRef with
  | some .destroyed => ⟨.error ⟨.keyDestroyed, keyRef⟩, [], [.sensitiveKey keyRef]⟩
  | some .active => ⟨.ok inp.ciphertext, [], [.sensitiveKey keyRef]⟩
  | none => ⟨.ok inp.ciphertext, [.insertKey keyRef], [.sensitiveKey keyRef]⟩

/-- The insert, inside a savepoint: a row that violates a constraint leaves nothing behind. -/
def execInsert (n : ℕ) (db : EventTables) (row : ℕ → EventRow) :
    Effect EventWrite EventLock InsertResult :=
  if !(row n).payload.storable then ⟨.dataError, [], []⟩
  else match db.violated (row n) with
    | some c => ⟨.violates c, [], []⟩
    | none => ⟨.inserted n, [.insertEvent (row n)], (row n).uniqueKeys⟩

/-- The meaning of the statements. `recorded_seq` is a sequence, so a fresh number. -/
def execEventStmt (inp : EventInput) (n : ℕ) (db : EventTables) :
    (o : EventStmt) → Effect EventWrite EventLock (EventRes o)
  | .advisoryLock key => ⟨(), [], [.advisory key]⟩
  | .findIdempotent key => ⟨db.findIdempotent key, [], []⟩
  | .accountWorkspace a => ⟨db.accounts.lookup a, [], []⟩
  | .channelWorkspace c => ⟨db.channels.lookup c, [], []⟩
  | .taskWorkspace t => ⟨db.tasksProjection.lookup t, [], []⟩
  | .eventWorkspace e => ⟨(db.events.find? (·.eventId = e)).map (·.workspaceId), [], []⟩
  | .head a => ⟨(latest (db.ofAggregate a)).map fun r ↦ (r.aggregateSeq, r.contentHash), [], []⟩
  | .encrypt ref => execEncrypt inp db ref
  | .newUuid => ⟨inp.uuid, [], []⟩
  | .now _ => ⟨inp.now, [], []⟩
  | .insert row => execInsert n db row

abbrev eventDatabase : Database EventRes where
  Store := EventTables
  Write := EventWrite
  Key := EventLock
  Input := EventInput
  decEqKey := inferInstance
  apply := EventTables.apply
  keys := EventWrite.keys
  exec inp n _ db o := execEventStmt inp n db o
  locked inp n _ db o x hx k hk := by
    cases o with
    | encrypt =>
      simp only [execEventStmt, execEncrypt] at hx ⊢
      split at hx <;> simp_all [EventWrite.keys]
    | insert =>
      simp only [execEventStmt, execInsert] at hx ⊢
      split at hx
      · simp at hx
      · split at hx <;> simp_all [EventWrite.keys]
    | _ => simp [execEventStmt] at hx

/-! ## `append` -/

/-- How a store is configured: the hash function, the contract and whether it can encrypt. -/
structure EventConfig where
  sha256 : Digest
  registry : SchemaRegistry
  crypto : Bool

abbrev EventProg := Prog EventRes AppendError

def query (o : EventStmt) : EventProg (EventRes o) := .issue o

def storeError {α : Type} (code : ErrorCode) (detail : String) : EventProg α :=
  .raise (.store ⟨code, detail⟩)

def canonicalized {α : Type} : Except CanonicalizationError α → EventProg α
  | .error e => .raise (.canonicalization e)
  | .ok a => .ret a

/-- A check that raises an `EventStoreError`. -/
def checked {α : Type} : Except CodedError α → EventProg α
  | .error e => .raise (.store e)
  | .ok a => .ret a

/-- `uuid.UUID(text)` -/
def uuidArg (text : String) : EventProg Uuid :=
  match parseUuid text with
  | some u => .ret u
  | none => .raise .valueError

/-- `_lock` -/
def lock (ws aggType aggId : String) : EventProg Unit :=
  query (.advisoryLock (ws ++ "|" ++ aggType ++ "|" ++ aggId))

/-- `_find_idempotent` -/
def findIdempotent (r : AppendRequest) : EventProg (Option EventRow) := do
  let ws ← uuidArg r.workspaceId
  let actor ← uuidArg r.actorAccountId
  query (.findIdempotent ⟨ws, actor, r.idempotencyScope, r.idempotencyKey⟩)

/-- `_replay` -/
def replay (prior : EventRow) (bodyHash : String) : EventProg AppendResult :=
  if prior.requestBodyHash ≠ bodyHash then
    storeError .idempotencyConflict "same idempotency key with a different body"
  else .ret ⟨prior.eventId, prior.aggregateSeq, prior.contentHash, prior.recordedSeq, true⟩

/-- A row of another table has to belong to the workspace. -/
def sameWorkspace (ws w : Uuid) (detail : String) : EventProg Unit :=
  if w ≠ ws then storeError .workspaceMismatch detail else .ret ()

/-- `_check_workspace`, the actor. -/
def checkActor (ws actor : Uuid) (actorText : String) : EventProg Unit := do
  match ← query (.accountWorkspace actor) with
  | none => storeError .actorUnknown actorText
  | some w => sameWorkspace ws w "actor belongs to another workspace"

/-- `_check_workspace`, the channel. -/
def checkChannel (ws : Uuid) : Option String → EventProg Unit
  | none => .ret ()
  | some channelId => do
    let channel ← uuidArg channelId
    match ← query (.channelWorkspace channel) with
    | none => storeError .channelUnknown channelId
    | some w => sameWorkspace ws w "channel belongs to another workspace"

/-- `_check_workspace`, the task. A task without a row is let through. -/
def checkTask (ws : Uuid) : Option String → EventProg Unit
  | none => .ret ()
  | some task => do
    match ← query (.taskWorkspace task) with
    | none => .ret ()
    | some w => sameWorkspace ws w "task belongs to another workspace"

/-- `_check_workspace`, the Event named as cause. -/
def checkCause (ws : Uuid) : Option String → EventProg Unit
  | none => .ret ()
  | some e => do
    match ← query (.eventWorkspace e) with
    | none => storeError .causedByUnknown e
    | some w => sameWorkspace ws w "caused_by belongs to another workspace"

/-- `_check_workspace` -/
def checkWorkspace (r : AppendRequest) : EventProg Unit := do
  let ws ← uuidArg r.workspaceId
  let actor ← uuidArg r.actorAccountId
  checkActor ws actor r.actorAccountId
  checkChannel ws r.channelId
  checkTask ws r.taskId
  checkCause ws r.causedBy

/-- The sensitive part of the request, encrypted: ciphertext and key reference. -/
def encryptSensitive (cfg : EventConfig) (r : AppendRequest) :
    EventProg (Option (List UInt8) × Option String) :=
  match r.sensitive with
  | none => .ret (none, none)
  | some _ =>
    if !cfg.crypto then storeError .sensitiveUnsupported "no envelope crypto configured"
    else do
      let ref := "dek://" ++ r.workspaceId ++ "/" ++ r.aggregateType ++ "/" ++ r.aggregateId
      let ciphertext ← checked (← query (.encrypt ref))
      .ret (some ciphertext, some ref)

/-- `next_seq` -/
def nextSeq (last : Option (ℕ × String)) : ℕ :=
  match last with
  | none => 1
  | some (seq, _) => seq + 1

theorem one_le_nextSeq (last : Option (ℕ × String)) : 1 ≤ nextSeq last := by
  cases last with
  | none => exact le_rfl
  | some last => exact Nat.le_add_left 1 last.1

/-- `b64encode(ciphertext) if ciphertext else None`: no bytes count as no ciphertext. -/
def ciphertextField : Option (List UInt8) → Option Base64
  | some (b :: bs) => some ⟨b :: bs⟩
  | _ => none

def draftEvent (r : AppendRequest) (eventId : Uuid) (last : Option (ℕ × String))
    (sealed : Option (List UInt8) × Option String) (occurredAt : Time) : Event where
  eventId := "evt-" ++ String.ofList (eventId.text.toList.filter (· != '-'))
  schemaVersion := r.schemaVersion
  workspaceId := r.workspaceId
  aggregateType := r.aggregateType
  aggregateId := r.aggregateId
  aggregateSeq := nextSeq last
  channelId := r.channelId
  taskId := r.taskId
  type := r.type
  actorAccountId := r.actorAccountId
  causedBy := r.causedBy
  correlationId := r.correlationId
  idempotencyScope := r.idempotencyScope
  idempotencyKey := r.idempotencyKey
  policyVersion := r.policyVersion
  payload := r.payload.json
  sensitivePayloadCiphertext := ciphertextField sealed.1
  sensitivePayloadKeyRef := sealed.2
  previousHash := last.map Prod.snd
  occurredAt := isoformatUtc occurredAt
  contentHash := ""

/-- The parameters of the insert, but for `recorded_seq`. -/
def rowOf (event : Event) (id ws actor : Uuid) (channel : Option Uuid)
    (ciphertext : Option (List UInt8)) (bodyHash : String) (occurredAt : Time)
    (recordedSeq : ℕ) : EventRow where
  id := id
  recordedSeq := recordedSeq
  eventId := event.eventId
  schemaVersion := event.schemaVersion
  workspaceId := ws
  aggregateType := event.aggregateType
  aggregateId := event.aggregateId
  aggregateSeq := event.aggregateSeq
  channelId := channel
  taskId := event.taskId
  type := event.type
  actorAccountId := actor
  causedBy := event.causedBy
  correlationId := event.correlationId
  idempotencyScope := event.idempotencyScope
  idempotencyKey := event.idempotencyKey
  requestBodyHash := bodyHash
  policyVersion := event.policyVersion
  payload := event.payload.stored
  sensitivePayloadCiphertext := ciphertext
  sensitivePayloadKeyRef := event.sensitivePayloadKeyRef
  previousHash := event.previousHash
  contentHash := event.contentHash
  occurredAt := occurredAt

/-- What `append` does about an `IntegrityError`. -/
def recoverInsert (r : AppendRequest) (bodyHash : String) (c : UniqueConstraint) :
    EventProg AppendResult := do
  let prior ← if nameContains "idempotency" c then findIdempotent r else .ret none
  match prior with
  | some prior => replay prior bodyHash
  | none =>
    if nameContains "aggregate_seq" c then
      storeError .sequenceConflict "concurrent append on the aggregate"
    else storeError .eventInsertFailed c.name

/-- `uuid.UUID(channel_id)`, if there is one. -/
def channelArg : Option String → EventProg (Option Uuid)
  | none => .ret none
  | some c => (uuidArg c).bind fun u ↦ .ret (some u)

/-- From the drafted Event to the result: hash, contract, parameters, insert. -/
def insertEvent (cfg : EventConfig) (r : AppendRequest) (bodyHash : String)
    (ciphertext : Option (List UInt8)) (draft : Event) : EventProg AppendResult := do
  let contentHash ← canonicalized (computeContentHash cfg.sha256 draft)
  let event := draft.withHash contentHash
  checked (cfg.registry.validateContract event)
  let id ← query .newUuid
  let ws ← uuidArg r.workspaceId
  let channel ← channelArg r.channelId
  let actor ← uuidArg r.actorAccountId
  let occurredAt ← query (.now .stored)
  match ← query (.insert (rowOf event id ws actor channel ciphertext bodyHash occurredAt)) with
  | .inserted recordedSeq => .ret ⟨event.eventId, event.aggregateSeq, contentHash, recordedSeq, false⟩
  | .dataError => .raise .dataError
  | .violates c => recoverInsert r bodyHash c

/-- The rest of `append`, when the key is new: checks, head of the aggregate, Event. -/
def appendNew (cfg : EventConfig) (r : AppendRequest) (bodyHash : String) :
    EventProg AppendResult := do
  checkWorkspace r
  let ws ← uuidArg r.workspaceId
  let last ← query (.head ⟨ws, r.aggregateType, r.aggregateId⟩)
  if r.expectedSeq.any fun expected : ℤ ↦ expected ≠ (nextSeq last : ℤ) then
    storeError .sequenceConflict s!"expected {r.expectedSeq.getD 0}, next is {nextSeq last}"
  else do
    let sealed ← encryptSensitive cfg r
    let eventId ← query .newUuid
    let hashedAt ← query (.now .hashed)
    insertEvent cfg r bodyHash sealed.1 (draftEvent r eventId last sealed hashedAt)

/-- **`PostgresEventStore.append`.** -/
def append (cfg : EventConfig) (r : AppendRequest) : EventProg AppendResult := do
  let bodyHash ← canonicalized (r.requestBodyHash cfg.sha256)
  lock r.workspaceId r.aggregateType r.aggregateId
  match ← findIdempotent r with
  | some prior => replay prior bodyHash
  | none => appendNew cfg r bodyHash

/-- Any number of clients, whose transactions are sequences of appends and can commit after an
error. -/
abbrev eventSystem (cfg : EventConfig) : System where
  Op := EventStmt
  Res := EventRes
  Err := AppendError
  Ret := AppendResult
  db := eventDatabase
  Entry := AppendRequest
  body := append cfg
  Aux := Unit
  mayCall _ _ _ := true
  mayCommit _ := true
  onCall _ _ := ()
  onCommit _ _ := ()

end AgentColab
