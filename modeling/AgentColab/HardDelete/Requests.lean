import AgentColab.Approvals.Quorum
import AgentColab.Domain.Computation
import AgentColab.Domain.Text
import AgentColab.Retention.Job

/-!
# Hard-delete requests

A hard delete is requested, decided by a quorum of Humans, and executed after a waiting period. The
row of a request moves by the commands below, its approval also by those of the approval service.

Every command is one transaction, which locks the row of its request and, if it decides or cancels,
the grant of its approval. What the execution erases is an input here: whether that raises.
-/

namespace AgentColab.HardDelete

open AgentColab Approvals Transaction Database

/-! ## Rows -/

inductive TargetType where
  | account
  | conversation
  | artifact
  | document
deriving DecidableEq

def TargetType.value : TargetType → String
  | account => "account"
  | conversation => "conversation"
  | artifact => "artifact"
  | document => "document"

/-- The member of `TARGET_TYPES` with this value. -/
def TargetType.ofValue (value : String) : Option TargetType :=
  [account, conversation, artifact, document].find? (·.value = value)

inductive RequestStatus where
  | pendingApproval
  | approvedWaiting
  | executed
  | rejected
  | cancelled
deriving DecidableEq

def RequestStatus.value : RequestStatus → String
  | pendingApproval => "PENDING_APPROVAL"
  | approvedWaiting => "APPROVED_WAITING"
  | executed => "EXECUTED"
  | rejected => "REJECTED"
  | cancelled => "CANCELLED"

/-- The statuses of a request that can still be executed. -/
def RequestStatus.openStatuses : List RequestStatus := [.pendingApproval, .approvedWaiting]

def hours (n : ℤ) : Time := n * 3600000000

/-- `datetime.isoformat`, which leaves out microseconds that are zero. -/
def isoformat (t : Time) : String :=
  let text := (Retention.dateTime t).isoformat
  if t % 1000000 = 0 then String.ofList (text.toList.take 19 ++ "+00:00".toList) else text

/-- A row of `hard_delete_requests`. -/
structure HardDeleteRequest where
  requestId : String
  workspaceId : String
  targetType : TargetType
  targetId : String
  reason : String
  requestedBy : String
  approvalId : ℕ
  status : RequestStatus := .pendingApproval
  waitingPeriodHours : ℤ
  approvedAt : Option Time := none
  executableAt : Option Time := none
  executedAt : Option Time := none
  createdAt : Time
  updatedAt : Time

/-! The updates of a row. -/

def HardDeleteRequest.reject (now : Time) (r : HardDeleteRequest) : HardDeleteRequest :=
  { r with status := .rejected, updatedAt := now }

def HardDeleteRequest.approve (now executableAt : Time) (r : HardDeleteRequest) :
    HardDeleteRequest :=
  { r with
    status := .approvedWaiting
    approvedAt := some now
    executableAt := some executableAt
    updatedAt := now }

def HardDeleteRequest.cancel (now : Time) (r : HardDeleteRequest) : HardDeleteRequest :=
  { r with status := .cancelled, updatedAt := now }

def HardDeleteRequest.execute (now : Time) (r : HardDeleteRequest) : HardDeleteRequest :=
  { r with status := .executed, executedAt := some now, updatedAt := now }

inductive HardDeleteEventType where
  | requested
  | approved
  | rejected
  | executed
deriving DecidableEq

/-- Of an Event of a `hard_delete` aggregate, what is compared when its key comes again. -/
structure HardDeleteEvent where
  workspaceId : String
  actorAccountId : String
  idempotencyScope : String
  idempotencyKey : String
  requestId : String
  type : HardDeleteEventType
deriving DecidableEq

structure HardDeleteTables where
  approvals : ApprovalTables := {}
  requests : List HardDeleteRequest := []
  events : List HardDeleteEvent := []

structure CommandError where
  code : String
  detail : String
  status : ℕ
deriving DecidableEq

def CommandError.ofApproval (e : ApprovalError) : CommandError := ⟨e.code, e.detail, e.status⟩

/-- The context of a command, with what the environment answers: what the authorizer raises, when
the account has proved itself by MFA, whether the target exists, the setting, what the Event store
raises besides a conflict, and what the erasure raises. -/
structure CommandContext where
  workspaceId : String
  accountUuid : String
  accountId : String
  credentialFingerprint : String
  idempotencyKey : String
  now : Time
  denial : Option CommandError := none
  verifiedAt : Option Time := none
  targetExists : Bool := true
  waitingPeriodHours : ℤ := 24
  appendError : Option CommandError := none
  erasureError : Option CommandError := none

/-! ## Statements -/

namespace HardDeleteTables

variable (db : HardDeleteTables)

/-- `load_request` -/
def loadRequest (requestId : String) : Option HardDeleteRequest :=
  db.requests.find? (·.requestId = requestId)

def update (requestId : String) (f : HardDeleteRequest → HardDeleteRequest) : HardDeleteTables :=
  { db with requests := db.requests.map fun r ↦ if r.requestId = requestId then f r else r }

end HardDeleteTables

/-- `_append` -/
def append (ctx : CommandContext) (scope requestId : String) (type : HardDeleteEventType)
    (db : HardDeleteTables) : Except CommandError HardDeleteTables :=
  let e : HardDeleteEvent :=
    ⟨ctx.workspaceId, ctx.accountUuid, scope, ctx.idempotencyKey, requestId, type⟩
  match db.events.find? fun e' ↦ e'.workspaceId = e.workspaceId ∧
      e'.actorAccountId = e.actorAccountId ∧ e'.idempotencyScope = scope ∧
      e'.idempotencyKey = e.idempotencyKey with
  | some prior =>
    if prior = e then .ok db
    else .error ⟨"IDEMPOTENCY_CONFLICT", "same idempotency key with a different body", 409⟩
  | none =>
    match ctx.appendError with
    | some err => .error err
    | none => .ok { db with events := db.events ++ [e] }

/-- `require_permission` -/
def requirePermission (ctx : CommandContext) : Except CommandError Unit :=
  ctx.denial.elim (.ok ()) .error

/-- `require_recent_mfa` -/
def requireReauth (ctx : CommandContext) (action : String) : Except CommandError Unit :=
  if ctx.verifiedAt.any fun t ↦ ctx.now - t ≤ 300000000 then .ok ()
  else .error ⟨"REAUTH_REQUIRED", action ++ " requires MFA re-authentication within 300 s", 401⟩

/-- A call of the approval service in the command's own transaction. -/
def callApprovals {α : Type} (inp : ℕ → ApprovalInput) (n : ℕ) (db : HardDeleteTables)
    (body : Body α) : Except CommandError (α × HardDeleteTables × ℕ) :=
  match approvalDatabase.serial inp n db.approvals body with
  | (.ok a, approvals, n') => .ok (a, { db with approvals := approvals }, n')
  | (.error e, _, _) => .error (.ofApproval e)

/-! ## Commands -/

section Commands

variable (catalog : PolicyCatalog) (shortHash : String → String) (ctx : CommandContext)
  (inp : ℕ → ApprovalInput)

/-- The approval that a request asks for: CRITICAL, valid for a week, to be used once. -/
def approvalRequest (requestId : String) : RequestApproval where
  workspaceUuid := ctx.workspaceId
  requestedBy := ctx.accountUuid
  subject := ⟨.action, "hard-delete:" ++ requestId⟩
  action := "api:hard_delete_execute"
  idempotencyKey := ctx.idempotencyKey ++ ":approval"
  risk := some .critical
  validFor := some (hours (24 * 7))
  maxUses := some 1
  requiresHumanApproval := true

def requestIdFor (targetType : TargetType) (targetId : String) : String :=
  "hd-" ++ shortHash (ctx.workspaceId ++ "|" ++ targetType.value ++ "|" ++ targetId ++ "|" ++
    ctx.idempotencyKey)

/-- `open_request` -/
def openRequest (targetType targetId reason : String) (n : ℕ) (db : HardDeleteTables) :
    Except CommandError (String × HardDeleteTables × ℕ) :=
  match TargetType.ofValue targetType with
  | none => .error ⟨"HARD_DELETE_TARGET_TYPE_INVALID", targetType, 400⟩
  | some type =>
    if strip reason = "" then
      .error ⟨"HARD_DELETE_REASON_REQUIRED", targetId, 400⟩
    else if !ctx.targetExists then
      .error ⟨"HARD_DELETE_TARGET_NOT_FOUND", targetType ++ ":" ++ targetId, 404⟩
    else match db.requests.find? fun r ↦ r.workspaceId = ctx.workspaceId ∧ r.targetType = type ∧
        r.targetId = targetId ∧ r.status ∈ RequestStatus.openStatuses with
    | some dup => .error ⟨"HARD_DELETE_ALREADY_PENDING", dup.requestId, 409⟩
    | none => do
      let requestId := requestIdFor shortHash ctx type targetId
      let (outcome, db, n) ←
        callApprovals inp n db (requestApproval catalog (approvalRequest ctx requestId))
      match outcome with
      | .requested approvalId _ _ =>
        if requestId ∈ db.requests.map (·.requestId) then
          .error ⟨"IntegrityError", "hard_delete_requests_pkey", 500⟩
        else
          let row : HardDeleteRequest := {
            requestId := requestId
            workspaceId := ctx.workspaceId
            targetType := type
            targetId := targetId
            reason := strip reason
            requestedBy := ctx.accountUuid
            approvalId := approvalId
            waitingPeriodHours := ctx.waitingPeriodHours
            createdAt := ctx.now
            updatedAt := ctx.now }
          .ok (requestId, { db with requests := db.requests ++ [row] }, n)
      -- `request_approval` returns nothing else
      | _ => .error ⟨"TypeError", "", 500⟩

def requestHardDelete (targetType targetId reason : String) (n : ℕ) (db : HardDeleteTables) :
    Except CommandError (HardDeleteTables × ℕ) := do
  requirePermission ctx
  match db.events.find? fun e ↦ e.workspaceId = ctx.workspaceId ∧
      e.idempotencyScope = "hard_delete:request" ∧ e.idempotencyKey = ctx.idempotencyKey with
  | some _ => return (db, n)
  | none =>
    let (requestId, db, n) ← openRequest catalog shortHash ctx inp targetType targetId reason n db
    let db ← append ctx "hard_delete:request" requestId .requested db
    return (db, n)

/-- `request_account_deletion`, which has checks of its own on the account. -/
def requestAccountDeletion (accountId reason : String) (refusal : Option CommandError) (n : ℕ)
    (db : HardDeleteTables) : Except CommandError (HardDeleteTables × ℕ) := do
  requirePermission ctx
  match refusal with
  | some e => throw e
  | none =>
    let (_, db, n) ← openRequest catalog shortHash ctx inp "account" accountId reason n db
    return (db, n)

/-- What `ApproveHardDelete` makes of a decision. -/
def applyDecision (requestId : String) (req : HardDeleteRequest) (status : ApprovalStatus)
    (db : HardDeleteTables) : Except CommandError HardDeleteTables :=
  match status with
  | .rejected =>
    append ctx "hard_delete:approve" requestId .rejected (db.update requestId (.reject ctx.now))
  | .approved =>
    append ctx "hard_delete:approve" requestId .approved
      (db.update requestId (.approve ctx.now (ctx.now + hours req.waitingPeriodHours)))
  | _ => .ok db

def decision (req : HardDeleteRequest) (decision : Decision) (reasonCode : String) :
    DecideApproval where
  approvalId := req.approvalId
  approverAccountId := ctx.accountId
  decision := decision
  credentialFingerprint := ctx.credentialFingerprint
  reauthVerified := true
  idempotencyKey := ctx.idempotencyKey ++ ":decide"
  reasonCode := reasonCode

def approveHardDelete (requestId : String) (vote : Decision) (reasonCode : String) (n : ℕ)
    (db : HardDeleteTables) : Except CommandError (HardDeleteTables × ℕ) := do
  requirePermission ctx
  match db.loadRequest requestId with
  | none => throw ⟨"HARD_DELETE_NOT_FOUND", requestId, 404⟩
  | some req =>
    if req.status ≠ .pendingApproval then
      throw ⟨"HARD_DELETE_STATUS_INVALID", req.status.value, 409⟩
    else
    requireReauth ctx "hard_delete_approve"
    let (outcome, db, n) ←
      callApprovals inp n db (decideApproval catalog (decision ctx req vote reasonCode))
    match outcome with
    | .decided _ status _ _ _ =>
      let db ← applyDecision ctx requestId req status db
      return (db, n)
    -- `decide_approval` returns nothing else
    | _ => throw ⟨"TypeError", "", 500⟩

/-- The approval may have ended already, which is not an error. `cancel_approval` raises before it
has written anything. -/
def cancelHardDelete (requestId reasonCode : String) (n : ℕ) (db : HardDeleteTables) :
    Except CommandError (HardDeleteTables × ℕ) := do
  requirePermission ctx
  match db.loadRequest requestId with
  | none => throw ⟨"HARD_DELETE_NOT_FOUND", requestId, 404⟩
  | some req =>
    if req.status ∉ RequestStatus.openStatuses then
      throw ⟨"HARD_DELETE_STATUS_INVALID", req.status.value, 409⟩
    else
    let db := db.update requestId (.cancel ctx.now)
    let (approvals, n) := approvalDatabase.transact inp n db.approvals
      (cancelApproval req.approvalId ctx.accountUuid (ctx.idempotencyKey ++ ":cancel") reasonCode)
    let db ← append ctx "hard_delete:cancel" requestId .rejected { db with approvals := approvals }
    return (db, n)

/-- The statuses of an approval that let an execution pass. -/
def executable : List ApprovalStatus := [.approved, .partiallyConsumed, .consumed]

def executeHardDelete (requestId : String) (n : ℕ) (db : HardDeleteTables) :
    Except CommandError (HardDeleteTables × ℕ) := do
  requirePermission ctx
  match db.loadRequest requestId with
  | none => throw ⟨"HARD_DELETE_NOT_FOUND", requestId, 404⟩
  | some req =>
    if req.status = .executed then return (db, n)
    else if req.status ≠ .approvedWaiting then
      throw ⟨"HARD_DELETE_NOT_APPROVED",
        "status " ++ req.status.value ++ ": dual approval required before execution", 409⟩
    else if !req.executableAt.any (· ≤ ctx.now) then
      throw ⟨"HARD_DELETE_WAITING_PERIOD",
        "executable from " ++ req.executableAt.elim "?" isoformat, 409⟩
    else match db.approvals.grants req.approvalId with
    | none => throw ⟨"APPROVAL_NOT_FOUND", toString req.approvalId, 404⟩
    | some grant =>
      if grant.status ∉ executable then throw ⟨"HARD_DELETE_NOT_APPROVED", grant.status.value, 409⟩
      else
      requireReauth ctx "hard_delete_execute"
      match ctx.erasureError with
      | some e => throw e
      | none =>
        let db ← append ctx "hard_delete:execute" requestId .executed db
        return (db.update requestId (.execute ctx.now), n)

/-- The commands of the workflow, and those of the approval service. -/
inductive Command where
  | request (targetType targetId reason : String)
  | requestAccountDeletion (accountId reason : String) (refusal : Option CommandError)
  | approve (requestId : String) (vote : Decision) (reasonCode : String)
  | cancel (requestId reasonCode : String)
  | execute (requestId : String)
  | approval (call : ApprovalCall)

def perform (cmd : Command) (n : ℕ) (db : HardDeleteTables) :
    Except CommandError (HardDeleteTables × ℕ) :=
  match cmd with
  | .request targetType targetId reason =>
    requestHardDelete catalog shortHash ctx inp targetType targetId reason n db
  | .requestAccountDeletion accountId reason refusal =>
    requestAccountDeletion catalog shortHash ctx inp accountId reason refusal n db
  | .approve requestId vote reasonCode =>
    approveHardDelete catalog ctx inp requestId vote reasonCode n db
  | .cancel requestId reasonCode => cancelHardDelete ctx inp requestId reasonCode n db
  | .execute requestId => executeHardDelete ctx requestId n db
  | .approval call => do
    let (_, db, n) ← callApprovals inp n db (approvalBody catalog call)
    return (db, n)

end Commands

/-- The tables after some commands, with the numbers that are used. A command that raises changes
nothing. -/
inductive Reached (catalog : PolicyCatalog) (shortHash : String → String) :
    HardDeleteTables → ℕ → Prop
  | init : Reached catalog shortHash {} 0
  | step {db db' : HardDeleteTables} {n n' : ℕ} (ctx : CommandContext) (inp : ℕ → ApprovalInput)
      (cmd : Command) (before : Reached catalog shortHash db n)
      (performed : perform catalog shortHash ctx inp cmd n db = .ok (db', n')) :
      Reached catalog shortHash db' n'

end AgentColab.HardDelete
