import AgentColab.Transaction.Invariant
import AgentColab.Work.Statements

/-!
# The work inbox

Every piece of work given to an agent is a row of `work_items` with `WORK_ITEM_*` Events. A poll
delivers, the agent acknowledges, starts, rejects or submits a result, the control plane cancels,
and the timeout sweep puts an item back into `QUEUED` or expires it.
-/

namespace AgentColab.Work

open Transaction

/-- What the inbox gets from other packages. -/
structure Config where
  /-- `validate("work_result", …)`: the violation of the schema, if there is one. -/
  validate : PyDict → Option WorkItemError
  sha256 : Digest

/-- `load` -/
def load (workItemId : String) (forUpdate : Bool) : Body ItemRow := do
  match ← ask (.load workItemId forUpdate) with
  | some item => return item
  | none => throw ⟨"WORK_ITEM_NOT_FOUND", workItemId⟩

/-- `_require_owner` -/
def requireOwner (item : ItemRow) (agentId : String) : Body Unit :=
  if item.agentId ≠ agentId then
    throw ⟨"WORK_ITEM_NOT_OWNER", item.workItemId ++ " is not owned by " ++ agentId⟩
  else return ()

/-- `_append` -/
def append (item : ItemRow) (type : EventType) (actor key : String) (payload : Json) : Body ℕ := do
  orRaise (← ask (.append {
    type := type
    workspaceId := item.workspaceId
    aggregateId := item.workItemId
    actorAccountId := actor
    idempotencyKey := key
    payload := payload
    taskId := item.taskId
    correlationId := item.correlationId }))

/-- `record_receipt`; `none` is `DuplicateResultError`. -/
def recordReceipt (r : NewReceipt) : Body (Option ReceiptRow) := do
  match ← ask (.insertReceipt r) with
  | some row => return some row
  | none =>
    if r.receiptKind = .result then return none
    else throw ⟨"IntegrityError", r.workItemId⟩

/-- `canonical_json` -/
def canonicalized (value : Json) : Body (List UInt8) :=
  match canonicalJson value with
  | .ok bytes => return bytes
  | .error _ => throw ⟨"CanonicalizationError", ""⟩

/-! ## Enqueue -/

/-- `KINDS` -/
def kinds : List String :=
  ["task_assignment", "subtask_assignment", "invoke", "cancel", "brainstorm_turn",
    "verification_assignment"]

structure Enqueue where
  workspaceId : String
  kind : String
  agentId : String
  payload : Json
  deadline : Time
  expectedResultSchema : String
  correlationId : String
  idempotencyKey : String
  actorAccountId : String
  taskId : Option String := none
  brainstormId : Option String := none
  secretHandles : List String := []
  workItemId : Option String := none

def Enqueue.row (r : Enqueue) (wid : String) (now : Time) : ItemRow where
  workItemId := wid
  workspaceId := r.workspaceId
  kind := r.kind
  agentId := r.agentId
  taskId := r.taskId
  brainstormId := r.brainstormId
  correlationId := r.correlationId
  deadline := r.deadline
  payload := r.payload
  secretHandles := r.secretHandles
  expectedResultSchema := r.expectedResultSchema
  idempotencyKey := r.idempotencyKey
  status := .queued
  deliveryCount := 0
  deliveredAt := none
  ackedAt := none
  acceptedAt := none
  finishedAt := none
  createdAt := now
  updatedAt := now

/-- The second half of `enqueue`: a new item. -/
def insertNew (r : Enqueue) : Body ItemRow := do
  let bytes ← canonicalized r.payload
  if bytes.length > 1000000 then
    throw ⟨"WORK_ITEM_PAYLOAD_TOO_LARGE", toString bytes.length ++ " bytes > 1 MB"⟩
  else
  let now ← ask .now
  let newId ← ask .newWorkItemId
  let wid := r.workItemId.getD newId
  orRaise (← ask (.insertItem (r.row wid now)))
  let item ← load wid false
  let _ ← append item .queued r.actorAccountId r.idempotencyKey (.obj [
    ("work_item_id", .str wid), ("kind", .str r.kind), ("agent_id", .str r.agentId),
    ("deadline", .str (isoformatUtc r.deadline)), ("task_id", .ofOption r.taskId),
    ("brainstorm_id", .ofOption r.brainstormId)])
  return item

def enqueue (r : Enqueue) : Body ItemRow := do
  if r.kind ∉ kinds then throw ⟨"WORK_ITEM_KIND_INVALID", r.kind⟩
  else if decide (r.kind = "brainstorm_turn") ≠ r.brainstormId.isSome then
    throw ⟨"WORK_ITEM_KIND_INVALID", "brainstorm_turn requires brainstorm_id"⟩
  else
  match ← ask (.findKey r.idempotencyKey) with
  | some item =>
    if item.agentId ≠ r.agentId ∨ item.kind ≠ r.kind then
      throw ⟨"IDEMPOTENCY_CONFLICT", "same key with a different work item"⟩
    else return item
  | none => insertNew r

/-! ## Delivery -/

/-- What `poll` and `mark_delivered` do to an item in `QUEUED`; an item that has been delivered
before takes the transition from `DELIVERED`. -/
def deliver (item : ItemRow) (actor : String) (now : Time) (detail : Json) : Body ℕ := do
  let action := if item.deliveryCount > 0 then Action.redeliver else .deliver
  let baseState := if action = .redeliver then WorkItemState.delivered else item.status
  let newState ← orRaise (transition baseState action)
  let deliveryNo := item.deliveryCount + 1
  ask (.setColumns item.workItemId
    { status := newState, deliveryCount := some deliveryNo, deliveredAt := some now } now)
  let _ ← recordReceipt {
    workItemId := item.workItemId
    receiptKind := .delivery
    deliveryNo := some deliveryNo
    detail := detail }
  append item .delivered actor (item.workItemId ++ ":" ++ toString deliveryNo) (.obj [
    ("work_item_id", .str item.workItemId), ("delivery_no", .int deliveryNo)])

/-- The body of the loop of `poll`. -/
def pollOne (actor : String) (now : Time) (item : ItemRow) : Body (ItemRow × Option ℕ) := do
  if item.status = .queued then
    let eventId ← deliver item actor now (.obj [])
    let item ← load item.workItemId false
    return (item, some eventId)
  else return (item, none)

def poll (agentId actor : String) (maxItems : ℤ) : Body (List ItemRow × List ℕ) := do
  let limit := (max 1 (min maxItems 100)).toNat
  let rows ← ask (.deliverable agentId limit)
  let now ← ask .now
  let delivered ← Prog.collect rows (pollOne actor now)
  return (delivered.map Prod.fst, delivered.filterMap Prod.snd)

/-- `mark_delivered`: one item, for a channel that pushes. -/
def markDelivered (workItemId actor : String) (detail : Json) : Body (ItemRow × ℕ × Bool) := do
  let item ← load workItemId true
  if item.status ≠ .queued then return (item, item.deliveryCount, false)
  else
  let now ← ask .now
  let _ ← deliver item actor now detail
  let row ← load workItemId false
  return (row, item.deliveryCount + 1, true)

/-! ## Acknowledgement and the ends of an item -/

/-- The receipt of a change of state that leaves one. -/
def recordOptional : Option NewReceipt → Body Unit
  | none => return ()
  | some r => do
    let _ ← recordReceipt r

/-- The change of state that `ack`, `start`, `reject`, `cancel` and `expire` share: the columns, the
receipt, if there is one, and the Event. -/
def move (item : ItemRow) (cols : Columns) (now : Time) (receipt : Option NewReceipt)
    (type : EventType) (actor : String) (payload : Json) : Body ItemRow := do
  ask (.setColumns item.workItemId cols now)
  recordOptional receipt
  let _ ← append item type actor item.workItemId payload
  load item.workItemId false

def ack (workItemId agentId actor : String) : Body ItemRow := do
  let item ← load workItemId true
  requireOwner item agentId
  if item.status ∈ [WorkItemState.acked, .inProgress] then return item
  else
  let newState ← orRaise (transition item.status .ack)
  let now ← ask .now
  move item { status := newState, ackedAt := some now } now
    (some { workItemId, receiptKind := .ack, deliveryNo := some item.deliveryCount })
    .acked actor (.obj [("work_item_id", .str workItemId)])

def start (workItemId agentId actor : String) : Body ItemRow := do
  let item ← load workItemId true
  requireOwner item agentId
  if item.status = .inProgress then return item
  else
  let newState ← orRaise (transition item.status .start)
  let now ← ask .now
  move item { status := newState, acceptedAt := some now } now
    (some { workItemId, receiptKind := .accept, deliveryNo := some item.deliveryCount })
    .started actor (.obj [("work_item_id", .str workItemId)])

/-- `REJECTION_CODES` -/
def rejectionCodes : List String := ["CAPABILITY_UNSUPPORTED", "CAPACITY", "POLICY", "OTHER"]

def reject (workItemId agentId reasonCode actor : String) : Body ItemRow := do
  if reasonCode ∉ rejectionCodes then throw ⟨"WORK_ITEM_REJECTION_CODE_INVALID", reasonCode⟩
  else
  let item ← load workItemId true
  requireOwner item agentId
  let newState ← orRaise (transition item.status .reject)
  let now ← ask .now
  move item { status := newState, finishedAt := some now } now
    (some {
      workItemId
      receiptKind := .reject
      deliveryNo := some item.deliveryCount
      detail := .obj [("reason_code", .str reasonCode)] })
    .rejected actor (.obj [("work_item_id", .str workItemId), ("reason_code", .str reasonCode)])

/-- `cancel` and `expire`: the control plane ends an item. -/
def close (workItemId reasonCode actor : String) (action : Action) (type : EventType) :
    Body ItemRow := do
  let item ← load workItemId true
  let newState ← orRaise (transition item.status action)
  let now ← ask .now
  move item { status := newState, finishedAt := some now } now none type actor
    (.obj [("work_item_id", .str workItemId), ("reason_code", .str reasonCode)])

def cancel (workItemId reasonCode actor : String) : Body ItemRow :=
  close workItemId reasonCode actor .cancel .cancelled

def expire (workItemId reasonCode actor : String) : Body ItemRow :=
  close workItemId reasonCode actor .expire .expired

/-- `requeue_for_redelivery`; the transition is only looked up, the status is written as it is. -/
def requeueForRedelivery (workItemId : String) : Body ItemRow := do
  let item ← load workItemId true
  let _ ← orRaise (transition item.status .redeliver)
  let now ← ask .now
  ask (.setColumns workItemId { status := .queued } now)
  load workItemId false

/-! ## Results -/

inductive ResultCode where
  | accepted
  | duplicateIgnored

def ResultCode.value : ResultCode → String
  | accepted => "RESULT_ACCEPTED"
  | duplicateIgnored => "DUPLICATE_RESULT_IGNORED"

structure ResultOutcome where
  code : ResultCode
  workItemId : String
  receiptId : ℕ
  resultRef : String
  eventId : Option ℕ
  item : ItemRow

structure SubmitResult where
  workItemId : String
  agentId : String
  payload : PyDict
  actorAccountId : String

/-- The reference of a body with this digest. -/
def resultRef (workItemId digest : String) : String :=
  "colab://work/" ++ workItemId ++ "/result/" ++ digest

/-- `existing.result_ref if existing and existing.result_ref else ""` -/
def firstRef (existing : Option ReceiptRow) : String := (existing.bind (·.resultRef)).getD ""

/-- `_duplicate` -/
def duplicate (r : SubmitResult) (item : ItemRow) (existing : Option ReceiptRow)
    (ref digest : String) : Body ResultOutcome := do
  let first := firstRef existing
  let dup ← recordReceipt {
    workItemId := item.workItemId
    receiptKind := .duplicateResult
    deliveryNo := some item.deliveryCount
    resultRef := some ref
    resultSha256 := some digest
    detail := .obj [("first_result_ref", .str first),
      ("same_body", .bool (existing.any fun e ↦ e.resultSha256 = some digest))] }
  ask (.appendAudit {
    action := "work.duplicate_result_ignored"
    targetId := item.workItemId
    errorCode := some "DUPLICATE_RESULT_IGNORED"
    actorLabel := r.agentId
    correlationId := item.correlationId
    workspaceId := item.workspaceId
    actorAccountId := r.actorAccountId
    metadata := .obj [("first_result_ref", .str first), ("ignored_result_ref", .str ref)] })
  let row ← load item.workItemId false
  return {
    code := .duplicateIgnored
    workItemId := item.workItemId
    receiptId := ((existing <|> dup).map (·.receiptId)).getD 0
    resultRef := if first = "" then ref else first
    eventId := none
    item := row }

/-- `append_audit` for a display identity in the payload, which the server ignores. -/
def auditIdentity (r : SubmitResult) (item : ItemRow) : Body Unit :=
  if ((r.payload.members.lookup "display_identity").any fun v ↦ !(v matches .null)) = true then
    ask (.appendAudit {
      action := "work.display_identity_ignored"
      targetId := item.workItemId
      errorCode := none
      actorLabel := r.agentId
      correlationId := item.correlationId
      workspaceId := item.workspaceId
      actorAccountId := r.actorAccountId
      metadata := .obj [("reason",
        .str "development plan §7A.4: display identity is set by the server")] })
  else return ()

/-- `payload["status"]` -/
def statusOf (payload : PyDict) : Body Json :=
  match payload.members.lookup "status" with
  | some v => return v
  | none => throw ⟨"KeyError", "status"⟩

/-- A `result` receipt could be recorded: the status, the Event and the outcome. -/
def concludeResult (r : SubmitResult) (item : ItemRow) (newState : WorkItemState) (status : Json)
    (receipt : ReceiptRow) (ref : String) : Body ResultOutcome := do
  let now ← ask .now
  ask (.setColumns r.workItemId { status := newState, finishedAt := some now } now)
  let eventId ← append item .resultReceived r.actorAccountId r.workItemId (.obj [
    ("work_item_id", .str r.workItemId), ("result_ref", .str ref), ("status", status)])
  auditIdentity r item
  let row ← load r.workItemId false
  return {
    code := .accepted
    workItemId := r.workItemId
    receiptId := receipt.receiptId
    resultRef := ref
    eventId := some eventId
    item := row }

/-- The item as it is once a result has implied the acknowledgement. -/
def impliedAck (r : SubmitResult) (item : ItemRow) : Body ItemRow := do
  if item.status = .delivered then
    let _ ← ack r.workItemId r.agentId r.actorAccountId
    load r.workItemId true
  else return item

/-- The receipt of a result; a second one is a duplicate. -/
def recordResult (r : SubmitResult) (item : ItemRow) (newState : WorkItemState) (status : Json)
    (ref digest : String) : Body ResultOutcome := do
  match ← recordReceipt {
    workItemId := r.workItemId
    receiptKind := .result
    deliveryNo := some item.deliveryCount
    resultRef := some ref
    resultSha256 := some digest
    usage := r.payload.members.lookup "usage"
    detail := .obj [("status", status),
      ("error_code", (r.payload.members.lookup "error_code").getD .null)] } with
  | some receipt => concludeResult r item newState status receipt ref
  | none =>
    let existing ← ask (.resultReceipt r.workItemId)
    duplicate r item existing ref digest

/-- What is left of `result` for an item that has neither a result nor a terminal status. -/
def acceptResult (r : SubmitResult) (item : ItemRow) (ref digest : String) :
    Body ResultOutcome := do
  let item ← impliedAck r item
  let newState ← orRaise (transition item.status .result)
  let status ← statusOf r.payload
  recordResult r item newState status ref digest

/-- `payload["work_item_id"] != work_item_id` -/
def namesItem (payload : PyDict) (workItemId : String) : Body Unit :=
  match payload.members.lookup "work_item_id" with
  | none => throw ⟨"KeyError", "work_item_id"⟩
  | some (.str w) =>
    if w ≠ workItemId then throw ⟨"WORK_RESULT_SCHEMA_INVALID", "work_item_id mismatch"⟩
    else return ()
  | some _ => throw ⟨"WORK_RESULT_SCHEMA_INVALID", "work_item_id mismatch"⟩

/-- `validate("work_result", payload)` -/
def validated (cfg : Config) (payload : PyDict) : Body Unit :=
  match cfg.validate payload with
  | some e => throw e
  | none => return ()

def result (cfg : Config) (r : SubmitResult) : Body ResultOutcome := do
  validated cfg r.payload
  namesItem r.payload r.workItemId
  let item ← load r.workItemId true
  requireOwner item r.agentId
  let bytes ← canonicalized r.payload.json
  let digest := cfg.sha256 bytes
  let ref := resultRef r.workItemId digest
  let existing ← ask (.resultReceipt r.workItemId)
  if existing.isSome ∨ item.status ∈ terminalStates then duplicate r item existing ref digest
  else acceptResult r item ref digest

/-! ## The timeout sweep -/

structure Sweep where
  actorAccountId : String
  agentId : Option String := none
  workspaceId : Option String := none
  rerouteCounts : List (String × ℕ) := []

structure SweepOutcome where
  workItemId : String
  action : String
  reason : String
deriving DecidableEq

structure SweepReport where
  requeued : List SweepOutcome := []
  expired : List SweepOutcome := []
  rerouteRequired : List SweepOutcome := []
  waitingRequired : List SweepOutcome := []
  invalid : List String := []
deriving DecidableEq

/-- What `next_action` says about a row that the sweep has read. -/
def Sweep.decision (s : Sweep) (now : Time) (item : ItemRow) : Except WorkItemError TimingDecision :=
  nextAction item.status item.deliveredAt item.ackedAt now item.deliveryCount item.kind
    item.acceptedAt ((s.rerouteCounts.lookup item.workItemId).getD 0) item.deadline

def expiryReason (d : TimingDecision) : String :=
  if d.reason = "DEADLINE_EXCEEDED" then "DEADLINE" else "ACK_TIMEOUT"

def SweepReport.record (report : SweepReport) (item : ItemRow) :
    Except WorkItemError TimingDecision → SweepReport
  | .error e => { report with invalid := report.invalid ++ [item.workItemId ++ ": " ++ e.code] }
  | .ok d =>
    match d.action with
    | .none => report
    | .redeliver =>
      { report with requeued := report.requeued ++ [⟨item.workItemId, "REDELIVER", d.reason⟩] }
    | .expire =>
      { report with expired := report.expired ++ [⟨item.workItemId, "EXPIRE", expiryReason d⟩] }
    | .reroute =>
      { report with
        rerouteRequired := report.rerouteRequired ++
          [⟨item.workItemId, "REROUTE_REQUIRED", d.reason⟩] }
    | .waiting =>
      { report with
        waitingRequired := report.waitingRequired ++
          [⟨item.workItemId, "WAITING_REQUIRED", d.reason⟩] }

def Sweep.perform (s : Sweep) (item : ItemRow) : Except WorkItemError TimingDecision → Body Unit
  | .error _ => return ()
  | .ok d =>
    match d.action with
    | .redeliver => do
      let _ ← requeueForRedelivery item.workItemId
    | .expire => do
      let _ ← expire item.workItemId (expiryReason d) s.actorAccountId
    | _ => return ()

/-- The loop of `sweep`. -/
def Sweep.each (s : Sweep) (now : Time) (report : SweepReport) : List ItemRow → Body SweepReport
  | [] => return report
  | item :: items => do
    s.perform item (s.decision now item)
    s.each now (report.record item (s.decision now item)) items

def sweep (s : Sweep) : Body SweepReport := do
  let now ← ask .now
  let items ← ask (.openItems s.agentId s.workspaceId)
  s.each now {} items

/-! ## Transactions -/

inductive WorkCall where
  | enqueue (r : Enqueue)
  | poll (agentId actor : String) (maxItems : ℤ)
  | markDelivered (workItemId actor : String) (detail : Json)
  | ack (workItemId agentId actor : String)
  | start (workItemId agentId actor : String)
  | reject (workItemId agentId reasonCode actor : String)
  | cancel (workItemId reasonCode actor : String)
  | expire (workItemId reasonCode actor : String)
  | result (r : SubmitResult)
  | sweep (s : Sweep)

inductive Answer where
  | item (row : ItemRow)
  | polled (items : List ItemRow) (eventIds : List ℕ)
  | delivered (row : ItemRow) (deliveryNo : ℕ) (changed : Bool)
  | result (outcome : ResultOutcome)
  | swept (report : SweepReport)

def workBody (cfg : Config) : WorkCall → Body Answer
  | .enqueue r => return .item (← enqueue r)
  | .poll agentId actor maxItems => do
    let (items, eventIds) ← poll agentId actor maxItems
    return .polled items eventIds
  | .markDelivered wid actor detail => do
    let (row, deliveryNo, changed) ← markDelivered wid actor detail
    return .delivered row deliveryNo changed
  | .ack wid agentId actor => return .item (← ack wid agentId actor)
  | .start wid agentId actor => return .item (← start wid agentId actor)
  | .reject wid agentId reason actor => return .item (← reject wid agentId reason actor)
  | .cancel wid reason actor => return .item (← cancel wid reason actor)
  | .expire wid reason actor => return .item (← expire wid reason actor)
  | .result r => return .result (← result cfg r)
  | .sweep s => return .swept (← sweep s)

/-- Whether the transaction may go on after a call that ended so. An exception of `sweep` leaves the
maintenance step, whose transaction is rolled back; the callers of the other functions may catch
the error and commit. -/
def tolerated : WorkCall × Except WorkItemError Answer → Bool
  | (.sweep _, .error _) => false
  | _ => true

/-- Transactions on the inbox, any number of calls each. -/
abbrev workSystem (cfg : Config) : System where
  Op := Op
  Res := Res
  Err := WorkItemError
  Ret := Answer
  db := workDatabase
  Entry := WorkCall
  body := workBody cfg
  Aux := Unit
  mayCall _ done _ := done.all tolerated
  mayCommit done := done.all tolerated
  onCall _ _ := ()
  onCommit _ _ := ()

end AgentColab.Work
