import AgentColab.Events.Hashing
import AgentColab.Transaction.Serial
import AgentColab.Work.State

/-!
# The statements of the work inbox

The rows of `work_items`, their receipts, the `WORK_ITEM_*` Events and the audit rows of the inbox.
An item is addressed by its id; `ids` keeps the order of insertion.

Every function that adds to the receipts or the stream of an item has locked its row before. So one
key stands for the three. An Event is also unique in its workspace, actor, operation and idempotency
key, and an item in its idempotency key. `FOR UPDATE SKIP LOCKED` reads the rows that no other
transaction holds.
-/

namespace AgentColab.Work

open Transaction

/-! ## Rows -/

/-- A row of `work_items`. -/
structure ItemRow where
  workItemId : String
  workspaceId : String
  kind : String
  agentId : String
  taskId : Option String
  brainstormId : Option String
  correlationId : String
  deadline : Time
  payload : Json
  secretHandles : List String
  expectedResultSchema : String
  idempotencyKey : String
  status : WorkItemState
  deliveryCount : ℕ
  deliveredAt : Option Time
  ackedAt : Option Time
  acceptedAt : Option Time
  finishedAt : Option Time
  createdAt : Time
  updatedAt : Time

/-- The columns that `_set` is called with. Every call sets the status. -/
structure Columns where
  status : WorkItemState
  deliveryCount : Option ℕ := none
  deliveredAt : Option Time := none
  ackedAt : Option Time := none
  acceptedAt : Option Time := none
  finishedAt : Option Time := none

/-- `UPDATE work_items SET …, updated_at = :now` -/
def ItemRow.set (row : ItemRow) (cols : Columns) (now : Time) : ItemRow :=
  { row with
    status := cols.status
    deliveryCount := cols.deliveryCount.getD row.deliveryCount
    deliveredAt := cols.deliveredAt <|> row.deliveredAt
    ackedAt := cols.ackedAt <|> row.ackedAt
    acceptedAt := cols.acceptedAt <|> row.acceptedAt
    finishedAt := cols.finishedAt <|> row.finishedAt
    updatedAt := now }

@[simp] theorem ItemRow.set_status (row : ItemRow) (cols : Columns) (now : Time) :
    (row.set cols now).status = cols.status := rfl

@[simp] theorem ItemRow.set_workItemId (row : ItemRow) (cols : Columns) (now : Time) :
    (row.set cols now).workItemId = row.workItemId := rfl

@[simp] theorem ItemRow.set_agentId (row : ItemRow) (cols : Columns) (now : Time) :
    (row.set cols now).agentId = row.agentId := rfl

@[simp] theorem ItemRow.set_ackedAt (row : ItemRow) (cols : Columns) (now : Time) :
    (row.set cols now).ackedAt = (cols.ackedAt <|> row.ackedAt) := rfl

/-- `RECEIPT_KINDS` -/
inductive ReceiptKind where
  | delivery
  | ack
  | accept
  | reject
  | result
  | duplicateResult
  | cancelAck
deriving DecidableEq

/-- The values of a new row of `work_item_receipts`. -/
structure NewReceipt where
  workItemId : String
  receiptKind : ReceiptKind
  deliveryNo : Option ℕ := none
  resultRef : Option String := none
  resultSha256 : Option String := none
  usage : Option Json := none
  detail : Json := .obj []

structure ReceiptRow extends NewReceipt where
  receiptId : ℕ

inductive EventType where
  | queued
  | delivered
  | acked
  | started
  | resultReceived
  | rejected
  | expired
  | cancelled
deriving DecidableEq

def EventType.value : EventType → String
  | queued => "WORK_ITEM_QUEUED"
  | delivered => "WORK_ITEM_DELIVERED"
  | acked => "WORK_ITEM_ACKED"
  | started => "WORK_ITEM_STARTED"
  | resultReceived => "WORK_ITEM_RESULT_RECEIVED"
  | rejected => "WORK_ITEM_REJECTED"
  | expired => "WORK_ITEM_EXPIRED"
  | cancelled => "WORK_ITEM_CANCELLED"

/-- A request to append an Event to the stream of an item. Its scope is the operation that the
type belongs to, so the type stands for the scope. -/
structure AppendRequest where
  type : EventType
  workspaceId : String
  aggregateId : String
  actorAccountId : String
  idempotencyKey : String
  payload : Json
  taskId : Option String
  correlationId : String

structure Event extends AppendRequest where
  eventId : ℕ

structure AuditRow where
  action : String
  targetId : String
  errorCode : Option String
  actorLabel : String
  correlationId : String
  workspaceId : String
  actorAccountId : String
  metadata : Json

structure WorkTables where
  /-- The primary keys of `item`, in the order of insertion. -/
  ids : List String := []
  item : String → Option ItemRow := fun _ ↦ none
  /-- In the order of `id`. -/
  receipts : List ReceiptRow := []
  /-- In the order of `recorded_seq`. -/
  events : List Event := []
  audit : List AuditRow := []

/-! ## Changes -/

inductive WorkWrite where
  | insertItem (row : ItemRow)
  | setColumns (workItemId : String) (cols : Columns) (now : Time)
  | insertReceipt (row : ReceiptRow)
  | insertEvent (event : Event)
  | insertAudit (row : AuditRow)

namespace WorkTables

def apply (db : WorkTables) : WorkWrite → WorkTables
  | .insertItem row =>
    -- an insert never replaces a row
    { db with
      ids := db.ids ++ [row.workItemId]
      item := Function.update db.item row.workItemId (some ((db.item row.workItemId).getD row)) }
  | .setColumns wid cols now =>
    { db with
      item := Function.update db.item wid ((db.item wid).map fun row ↦ row.set cols now) }
  | .insertReceipt row => { db with receipts := db.receipts ++ [row] }
  | .insertEvent event => { db with events := db.events ++ [event] }
  | .insertAudit row => { db with audit := db.audit ++ [row] }

/-- The rows of `work_items`. -/
def items (db : WorkTables) : List ItemRow := db.ids.filterMap db.item

/-- The `result` receipts of an item. -/
def results (db : WorkTables) (wid : String) : List ReceiptRow :=
  db.receipts.filter fun r ↦ r.workItemId = wid ∧ r.receiptKind = .result

/-- The `WORK_ITEM_RESULT_RECEIVED` Events of an item. -/
def resultEvents (db : WorkTables) (wid : String) : List Event :=
  db.events.filter fun e ↦ e.aggregateId = wid ∧ e.type = .resultReceived

end WorkTables

inductive WorkLock where
  | item (workItemId : String)
  | key (idempotencyKey : String)
  | idempotency (workspaceId actorAccountId : String) (type : EventType) (key : String)
  | audit
deriving DecidableEq

def WorkWrite.keys : WorkWrite → List WorkLock
  | insertItem row => [.item row.workItemId, .key row.idempotencyKey]
  | setColumns wid _ _ => [.item wid]
  | insertReceipt row => [.item row.workItemId]
  | insertEvent e => [.item e.aggregateId,
      .idempotency e.workspaceId e.actorAccountId e.type e.idempotencyKey]
  | insertAudit _ => [.audit]

/-! ## Statements -/

inductive Op where
  | now
  /-- `new_work_item_id` -/
  | newWorkItemId
  | findKey (idempotencyKey : String)
  | insertItem (row : ItemRow)
  | load (workItemId : String) (forUpdate : Bool)
  /-- The rows that a poll delivers. -/
  | deliverable (agentId : String) (limit : ℕ)
  | openItems (agentId workspaceId : Option String)
  | setColumns (workItemId : String) (cols : Columns) (now : Time)
  | insertReceipt (row : NewReceipt)
  | resultReceipt (workItemId : String)
  | append (request : AppendRequest)
  | appendAudit (row : AuditRow)

abbrev Res : Op → Type
  | .now => Time
  | .newWorkItemId => String
  | .findKey _ => Option ItemRow
  | .insertItem _ => Except WorkItemError Unit
  | .load _ _ => Option ItemRow
  | .deliverable _ _ => List ItemRow
  | .openItems _ _ => List ItemRow
  | .setColumns _ _ _ => Unit
  | .insertReceipt _ => Option ReceiptRow
  | .resultReceipt _ => Option ReceiptRow
  | .append _ => Except WorkItemError ℕ
  | .appendAudit _ => Unit

/-- What the environment contributes to a statement. -/
structure WorkInput where
  now : Time := 0
  newId : String := ""
  /-- What the Event store raises besides a conflict. -/
  appendError : Option WorkItemError := none

abbrev Eff (R : Type) := Effect WorkWrite WorkLock R

def read {R : Type} (result : R) : Eff R := ⟨result, [], []⟩

/-- `ORDER BY created_at, work_item_id` -/
def ordered (rows : List ItemRow) : List ItemRow :=
  rows.insertionSort fun a b ↦
    a.createdAt < b.createdAt ∨ (a.createdAt = b.createdAt ∧ a.workItemId ≤ b.workItemId)

/-- Whether an Event was recorded for the same workspace, actor, scope and key. -/
def Event.sameKey (e : Event) (r : AppendRequest) : Bool :=
  e.workspaceId = r.workspaceId && e.actorAccountId = r.actorAccountId && e.type = r.type &&
    e.idempotencyKey = r.idempotencyKey

def Event.sameBody (e : Event) (r : AppendRequest) : Bool :=
  e.aggregateId = r.aggregateId && e.payload.text = r.payload.text && e.taskId = r.taskId

/-- `EventStore.append` -/
def execAppend (inp : WorkInput) (n : ℕ) (db : WorkTables) (r : AppendRequest) :
    Eff (Except WorkItemError ℕ) :=
  let locks := [.item r.aggregateId,
    .idempotency r.workspaceId r.actorAccountId r.type r.idempotencyKey]
  match db.events.find? (·.sameKey r) with
  | some prior =>
    if prior.sameBody r then ⟨.ok prior.eventId, [], locks⟩
    else ⟨.error ⟨"IDEMPOTENCY_CONFLICT", "same idempotency key with a different body"⟩, [], locks⟩
  | none =>
    match inp.appendError with
    | some e => ⟨.error e, [], locks⟩
    | none => ⟨.ok n, [.insertEvent ⟨r, n⟩], locks⟩

/-- The insert fails when the item is unknown, and for a second `result` receipt on the index
`work_item_receipts_one_result_idx`. -/
def execReceipt (n : ℕ) (db : WorkTables) (r : NewReceipt) : Eff (Option ReceiptRow) :=
  if (db.item r.workItemId).isNone ∨ (r.receiptKind = .result ∧ db.results r.workItemId ≠ []) then
    ⟨none, [], [.item r.workItemId]⟩
  else ⟨some ⟨r, n⟩, [.insertReceipt ⟨r, n⟩], [.item r.workItemId]⟩

/-- The insert fails when the id or the idempotency key is taken. -/
def execInsertItem (db : WorkTables) (row : ItemRow) : Eff (Except WorkItemError Unit) :=
  let locks := [.item row.workItemId, .key row.idempotencyKey]
  if (db.item row.workItemId).isSome ∨ db.items.any (·.idempotencyKey = row.idempotencyKey) then
    ⟨.error ⟨"IntegrityError", row.workItemId⟩, [], locks⟩
  else ⟨.ok (), [.insertItem row], locks⟩

/-- The rows of an agent that a poll may take. -/
def deliverableRows (held : WorkLock → Bool) (db : WorkTables) (agentId : String) (limit : ℕ) :
    List ItemRow :=
  (ordered (db.items.filter fun row ↦ row.agentId = agentId ∧
    row.status ∈ [.queued, .delivered] ∧ !held (.item row.workItemId))).take limit

/-- `open_items` -/
def openRows (db : WorkTables) (agentId workspaceId : Option String) : List ItemRow :=
  ordered (db.items.filter fun row ↦
    row.status ∈ [.queued, .delivered, .acked, .inProgress] ∧
      workspaceId.all (· = row.workspaceId) ∧ agentId.all (· = row.agentId))

/-- The statement in the given view, with the nonce `n`, the environment's `inp` and the keys
`held` by others. -/
def execStatement (inp : WorkInput) (n : ℕ) (held : WorkLock → Bool) (db : WorkTables) :
    (o : Op) → Eff (Res o)
  | .now => read inp.now
  | .newWorkItemId => read inp.newId
  | .findKey key => read (db.items.find? (·.idempotencyKey = key))
  | .insertItem row => execInsertItem db row
  | .load wid forUpdate => ⟨db.item wid, [], if forUpdate then [.item wid] else []⟩
  | .deliverable agentId limit =>
    let rows := deliverableRows held db agentId limit
    ⟨rows, [], rows.map fun row ↦ .item row.workItemId⟩
  | .openItems agentId workspaceId => read (openRows db agentId workspaceId)
  | .setColumns wid cols now => ⟨(), [.setColumns wid cols now], [.item wid]⟩
  | .insertReceipt r => execReceipt n db r
  | .resultReceipt wid => read (db.results wid).head?
  | .append r => execAppend inp n db r
  | .appendAudit row => ⟨(), [.insertAudit row], [.audit]⟩

theorem execStatement_locked (inp : WorkInput) (n : ℕ) (held : WorkLock → Bool) (db : WorkTables)
    (o : Op) : ∀ x ∈ (execStatement inp n held db o).writes, ∀ k ∈ x.keys,
      k ∈ (execStatement inp n held db o).locks := by
  cases o with
  | insertItem =>
    simp only [execStatement, execInsertItem]
    split_ifs <;> simp [WorkWrite.keys]
  | insertReceipt =>
    simp only [execStatement, execReceipt]
    split_ifs <;> simp [WorkWrite.keys]
  | append =>
    simp only [execStatement, execAppend]
    split
    · split_ifs <;> simp
    · split <;> simp [WorkWrite.keys]
  | _ => simp [execStatement, read, WorkWrite.keys]

abbrev workDatabase : Database Res where
  Store := WorkTables
  Write := WorkWrite
  Key := WorkLock
  Input := WorkInput
  decEqKey := inferInstance
  apply := WorkTables.apply
  keys := WorkWrite.keys
  exec := execStatement
  locked := execStatement_locked

/-- A body that runs inside the caller's transaction. -/
abbrev Body (α : Type) := Prog Res WorkItemError α

def ask (o : Op) : Body (Res o) := Prog.issue o

def orRaise {α : Type} : Except WorkItemError α → Body α
  | .ok a => pure a
  | .error e => throw e

end AgentColab.Work
