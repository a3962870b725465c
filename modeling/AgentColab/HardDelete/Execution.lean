import AgentColab.Artifacts.Quarantine
import AgentColab.HardDelete.Requests

/-!
# The execution of a hard delete

The execution checks the request, takes a digest of the Events of the workspace, erases the target,
appends its own Events, and takes the digest again without these. Each statement can fail, and the
transaction is then rolled back; the files of a target are not part of it.
-/

namespace AgentColab.HardDelete

open AgentColab Approvals Ledger

/-! ## Rows -/

inductive AccountStatus where
  | active
  | suspended
  | deleted

/-- Of a row of `accounts`, what the deletion changes. -/
structure AccountRow where
  id : Uuid
  accountId : String
  workspaceId : Uuid
  status : AccountStatus
  displayName : String
  authSubject : Option String

inductive CredentialStatus where
  | active
  | revoked
deriving DecidableEq

/-- A row of `service_credentials`. -/
structure CredentialRow where
  accountId : Uuid
  status : CredentialStatus
  revokedAt : Option Time

/-- A row of `principal_role_assignments`. -/
structure AssignmentRow where
  accountId : Uuid
  revokedAt : Option Time

/-- A row of `artifacts`. -/
structure ArtifactRow where
  artifactId : String
  workspaceId : Uuid
  storageUri : String

/-- A row of `document_versions`. -/
structure DocumentVersion where
  documentId : String
  version : ℕ
  storageUri : String

/-- A row of `hard_delete_tombstones`. -/
structure DeletionRow where
  requestId : String
  workspaceId : Uuid
  targetType : TargetType
  targetId : String
  executedAt : Time
  executedBy : Uuid
  approvals : List String
  keysDestroyed : List String
  ledgerEntryHash : Option String
  eventHashBefore : String
  eventHashAfter : String
  eventId : String

structure AuditRow where
  requestId : String
  targetType : TargetType
  keysDestroyed : ℕ
  ledgerEntryHash : Option String
  warnings : List String

structure Rows where
  tables : HardDeleteTables := {}
  store : Retention.Store := {}
  /-- The column `conversation_id` of a message. -/
  conversationOf : String → Option String := fun _ ↦ none
  accounts : List AccountRow := []
  credentials : List CredentialRow := []
  assignments : List AssignmentRow := []
  artifacts : List ArtifactRow := []
  versions : List DocumentVersion := []
  deletions : List DeletionRow := []
  audit : List AuditRow := []

/-- The type of an Event with its payload. -/
inductive Content where
  /-- `HARD_DELETE_EXECUTED` -/
  | executed (requestId keyRef tombstoneId : String) (keysDestroyed : ℕ) (targetType : TargetType)
  /-- `ACCOUNT_HARD_DELETED` -/
  | accountDeleted (accountId requestId : String)
  | other (type payload : String)
deriving DecidableEq

/-- It is the deletion of an account that was requested so. -/
def Content.deletesAccount (requestId : String) : Content → Bool
  | .accountDeleted _ request => request = requestId
  | _ => false

structure Draft where
  aggregateType : String
  aggregateId : String
  scope : String
  key : String
  content : Content
deriving DecidableEq

/-- A row of `events`. -/
structure LogRow where
  eventId : String
  workspaceId : Uuid
  actorAccountId : Uuid
  draft : Draft
  contentHash : String
  previousHash : Option String
  recordedSeq : ℕ

structure World where
  rows : Rows
  log : List LogRow
  files : List String

/-! ## What the execution is given -/

/-- What the Event store makes of a new Event, or its error. -/
structure Sealed where
  eventId : String
  contentHash : String
  previousHash : Option String
  recordedSeq : ℕ
  error : Option CommandError := none

structure ExecuteContext where
  command : CommandContext
  /-- `_ws(ctx)` -/
  workspace : Uuid
  /-- `uuid.UUID(ctx.principal.account_uuid)` -/
  account : Uuid
  book : Option LedgerKey
  clocks : Clocks
  artifactRoot : String
  documentRoot : String
  /-- The exception with which `unlink` fails, but for `FileNotFoundError`. -/
  unlinkError : String → Option String
  accountEvent : Sealed
  executedEvent : Sealed

inductive Statement where
  | permission
  | loadRequest
  | loadGrant
  | reauth
  | digestBefore
  | loadTarget
  | unlink (path : String)
  | keysForTarget
  | destroyKey (keyRef : String)
  | buryMessage (messageId : String)
  | redactMessage (messageId : String)
  | revokeCredentials
  | revokeAssignments
  | deleteAccount
  | accountEvent
  | lastHash
  | approvers
  | executedEvent
  | digestAfter
  | accountEventIds
  | digestExcluding
  | insertTombstone
  | updateRequest
  | audit
  | commit
deriving DecidableEq

inductive ExecutionError where
  | command (e : CommandError)
  | key (e : KeyError)
  | retention (e : Retention.RetentionError)
  | integrity (constraint : String)
  /-- The statement fails, or the process ends before it. -/
  | failed (s : Statement)

/-- The Events that others have committed, by the read that sees them first. -/
structure Arrivals where
  digestBefore : List LogRow := []
  accountEvent : List LogRow := []
  executedEvent : List LogRow := []
  digestAfter : List LogRow := []
  accountEventIds : List LogRow := []
  digestExcluding : List LogRow := []

/-- Those that come after the first digest. -/
def Arrivals.between (a : Arrivals) : List LogRow :=
  a.accountEvent ++ a.executedEvent ++ a.digestAfter ++ a.accountEventIds ++ a.digestExcluding

def Arrivals.all (a : Arrivals) : List LogRow := a.digestBefore ++ a.between

/-! ## Events -/

/-- `ORDER BY recorded_seq` -/
def inOrder (workspace : Uuid) (log : List LogRow) : List LogRow :=
  (log.filter (·.workspaceId = workspace)).insertionSort fun a b ↦ a.recordedSeq ≤ b.recordedSeq

/-- `f"{r[0]}|{r[1]}|{r[2]}\n"` -/
def LogRow.line (r : LogRow) : String :=
  r.eventId ++ "|" ++ r.contentHash ++ "|" ++ r.previousHash.getD "None" ++ "\n"

def digested (rows : List LogRow) : Bytes := rows.flatMap fun r ↦ utf8 r.line

section Execution

variable (H : Hashes) (fails : Statement → Bool) (ctx : ExecuteContext)

/-- `event_chain_digest` -/
def eventChainDigest (log : List LogRow) : String := H.sha256 (digested (inOrder ctx.workspace log))

/-- `_digest_excluding` -/
def digestExcluding (exclude : List String) (log : List LogRow) : String :=
  H.sha256 (digested ((inOrder ctx.workspace log).filter (·.eventId ∉ exclude)))

/-- The Event has the idempotency key of the draft. -/
def sameKey (draft : Draft) (r : LogRow) : Bool :=
  r.workspaceId = ctx.workspace ∧ r.actorAccountId = ctx.account ∧ r.draft.scope = draft.scope ∧
    r.draft.key = draft.key

/-- `ctx.store.append` -/
def appendEvent (draft : Draft) (new : Sealed) (log : List LogRow) :
    Except CommandError (LogRow × List LogRow) :=
  match log.find? (sameKey ctx draft) with
  | some prior =>
    if prior.draft = draft then .ok (prior, log)
    else .error ⟨"IDEMPOTENCY_CONFLICT", "same idempotency key with a different body", 409⟩
  | none =>
    match new.error with
    | some e => .error e
    | none =>
      let row : LogRow := ⟨new.eventId, ctx.workspace, ctx.account, draft, new.contentHash,
        new.previousHash, new.recordedSeq⟩
      .ok (row, log ++ [row])

/-- The Event says that the target of the request was deleted. -/
def isAccountEvent (req : HardDeleteRequest) (r : LogRow) : Bool :=
  r.draft.aggregateType = "account" ∧ r.draft.aggregateId = req.targetId ∧
    r.draft.content.deletesAccount req.requestId

/-- `_account_event_ids` -/
def accountEventIds (req : HardDeleteRequest) (log : List LogRow) : List String :=
  if req.targetType = .account then (log.filter (isAccountEvent req)).map (·.eventId) else []

/-! ## The target -/

/-- A statement is executed, unless it fails. -/
def reach (s : Statement) : Except ExecutionError Unit :=
  if fails s then .error (.failed s) else .ok ()

/-- `_keys_for_target` -/
def keysForTarget (targetType targetId : String) (db : KeyDb) : List String :=
  ((db.keys.filter fun k ↦ k.workspaceId = ctx.workspace ∧ k.targetType = targetType ∧
    k.targetId = targetId).map (·.keyRef)).insertionSort (· ≤ ·)

/-- `_destroy_keys`. All the keys are counted. -/
def eraseKeys : List String → Rows → Except ExecutionError Rows
  | [], rows => .ok rows
  | keyRef :: keyRefs, rows => do
    reach fails (.destroyKey keyRef)
    let keys ← (destroyKeys H ctx.book "HARD_DELETE" ctx.account ctx.clocks [keyRef]
      rows.store.keys).mapError .key
    eraseKeys keyRefs { rows with store := { rows.store with keys := keys } }

def eraseTargetKeys (targetType : TargetType) (targetId : String) (rows : Rows) :
    Except ExecutionError (List String × Rows) := do
  reach fails .keysForTarget
  let keyRefs := keysForTarget ctx targetType.value targetId rows.store.keys
  let rows ← eraseKeys H fails ctx keyRefs rows
  return (keyRefs, rows)

/-- `_execute_account`, up to its Event. -/
def eraseAccount (targetId : String) (rows : Rows) :
    Except ExecutionError (List String × Rows) := do
  reach fails .loadTarget
  match rows.accounts.find? fun a ↦ a.accountId = targetId ∧ a.workspaceId = ctx.workspace with
  | none => throw (.command ⟨"HARD_DELETE_TARGET_NOT_FOUND", targetId, 404⟩)
  | some row =>
    let (destroyed, rows) ← eraseTargetKeys H fails ctx .account targetId rows
    let now := ctx.command.now
    reach fails .revokeCredentials
    let credentials := rows.credentials.map fun c ↦
      if c.accountId = row.id ∧ c.status = .active then
        { c with status := .revoked, revokedAt := some now }
      else c
    reach fails .revokeAssignments
    let assignments := rows.assignments.map fun a ↦
      if a.accountId = row.id ∧ a.revokedAt = none then { a with revokedAt := some now } else a
    reach fails .deleteAccount
    let accounts := rows.accounts.map fun a ↦
      if a.id = row.id then
        { a with status := .deleted, displayName := "[hard-deleted]", authSubject := none }
      else a
    return (destroyed,
      { rows with credentials := credentials, assignments := assignments, accounts := accounts })

/-- `UPDATE messages SET deleted_at = COALESCE(deleted_at, :now), … WHERE message_id = :id` -/
def redactMessage (messageId : String) (now : Time) (contentHash : String) (m : Retention.Message) :
    Retention.Message :=
  if m.messageId = messageId then
    { m with
      deletedAt := some (m.deletedAt.getD now)
      bodyRedacted := "[hard-deleted]"
      tombstoneRef := some contentHash }
  else m

theorem messageId_redactMessage (messageId : String) (now : Time) (contentHash : String)
    (m : Retention.Message) :
    (redactMessage messageId now contentHash m).messageId = m.messageId := by
  rw [redactMessage]
  split <;> rfl

def redactIn (messageId : String) (now : Time) (contentHash : String) (s : Retention.Store) :
    Retention.Store :=
  { s with
    messages := s.messages.map (redactMessage messageId now contentHash)
    messageIds := by
      have hids : (fun m : Retention.Message ↦ m.messageId) ∘
          redactMessage messageId now contentHash = (·.messageId) :=
        funext fun m ↦ messageId_redactMessage ..
      rw [List.map_map, hids]
      exact s.messageIds }

def eraseMessages : List Retention.Message → Rows → Except ExecutionError (List String × Rows)
  | [], rows => .ok ([], rows)
  | m :: ms, rows => do
    let keyRef := m.bodyKeyRef.filter (· ≠ "")
    let rows ← eraseKeys H fails ctx keyRef.toList rows
    reach fails (.buryMessage m.messageId)
    let (contentHash, store) ← (Retention.appendTombstone H
      ⟨m.messageId, m.channelId, "HARD_DELETE", keyRef, ctx.command.now⟩
      rows.store).mapError .retention
    reach fails (.redactMessage m.messageId)
    let store := redactIn m.messageId ctx.command.now contentHash store
    let (destroyed, rows) ← eraseMessages ms { rows with store := store }
    return (keyRef.toList ++ destroyed, rows)

/-- `_execute_conversation` -/
def eraseConversation (targetId : String) (rows : Rows) :
    Except ExecutionError (List String × Rows) := do
  reach fails .loadTarget
  let messages := (rows.store.messages.filter fun m ↦
    rows.conversationOf m.messageId = some targetId ∧
      m.workspaceId = ctx.workspace).insertionSort fun a b ↦ a.rank ≤ b.rank
  let (ofMessages, rows) ← eraseMessages H fails ctx messages rows
  let (destroyed, rows) ← eraseTargetKeys H fails ctx .conversation targetId rows
  return (ofMessages ++ destroyed, rows)

/-! ### Files -/

/-- The files, and the warnings of the execution so far. -/
structure Disk where
  files : List String
  warnings : List String := []

/-- `_unlink`, whose exceptions become warnings. -/
def unlink (label path : String) (disk : Disk) : Disk :=
  match ctx.unlinkError path with
  | some exception => { disk with warnings := disk.warnings ++ [label ++ ": " ++ exception] }
  | none => { disk with files := disk.files.filter (· ≠ path) }

def unlinkAll (label : String) : List String → Disk → Except ExecutionError Unit × Disk
  | [], disk => (.ok (), disk)
  | path :: paths, disk =>
    match reach fails (.unlink path) with
    | .error e => (.error e, disk)
    | .ok () => unlinkAll label paths (unlink ctx label path disk)

/-- The text of a `Path`, which has no empty components and no dots. -/
def pathText (cs : List Char) : String :=
  let parts := (cs.splitOn '/').filter (· ∉ [[], ['.']])
  String.ofList ((if cs.head? = some '/' then ['/'] else []) ++ ['/'].intercalate parts)

/-- `storage.path_for` -/
def artifactPath (uri : String) : Option String :=
  (Artifacts.parseStorageUri uri).map fun (workspaceId, sha) ↦
    pathText (ctx.artifactRoot ++ "/" ++ workspaceId ++ "/" ++ String.ofList (sha.toList.take 2) ++
      "/" ++ sha).toList

/-- The path of a version: of a `file://` URI, absolute, or below the root. -/
def documentPath (uri : String) : String :=
  if "file://".toList.isPrefixOf uri.toList then pathText (removeAll "file://".toList 0 uri.toList)
  else if uri.toList.head? = some '/' then pathText uri.toList
  else pathText (ctx.documentRoot ++ "/" ++ uri).toList

/-- The rows of the versions of a document, in their order. -/
def versionsOf (targetId : String) (rows : Rows) : List DocumentVersion :=
  (rows.versions.filter (·.documentId = targetId)).insertionSort fun a b ↦ a.version ≤ b.version

/-- `_execute_artifact` -/
def eraseArtifact (targetId : String) (rows : Rows) (disk : Disk) :
    Except ExecutionError (List String × Rows) × Disk :=
  match reach fails .loadTarget with
  | .error e => (.error e, disk)
  | .ok () =>
    match rows.artifacts.find? fun a ↦
        a.artifactId = targetId ∧ a.workspaceId = ctx.workspace with
    | none => (.error (.command ⟨"HARD_DELETE_TARGET_NOT_FOUND", targetId, 404⟩), disk)
    | some row =>
      let (unlinked, disk) : Except ExecutionError Unit × Disk :=
        match artifactPath ctx row.storageUri with
        | none => (.ok (),
            { disk with warnings := disk.warnings ++ ["artifact blob: ArtifactStorageError"] })
        | some path => unlinkAll fails ctx "artifact blob" [path] disk
      (unlinked.bind fun () ↦ eraseTargetKeys H fails ctx .artifact targetId rows, disk)

/-- `_execute_document` -/
def eraseDocument (targetId : String) (rows : Rows) (disk : Disk) :
    Except ExecutionError (List String × Rows) × Disk :=
  match reach fails .loadTarget with
  | .error e => (.error e, disk)
  | .ok () =>
    let paths := (versionsOf targetId rows).map fun v ↦ documentPath ctx v.storageUri
    let (unlinked, disk) := unlinkAll fails ctx "document version" paths disk
    (unlinked.bind fun () ↦ eraseTargetKeys H fails ctx .document targetId rows, disk)

def eraseTarget (req : HardDeleteRequest) (rows : Rows) (disk : Disk) :
    Except ExecutionError (List String × Rows) × Disk :=
  match req.targetType with
  | .account => (eraseAccount H fails ctx req.targetId rows, disk)
  | .conversation => (eraseConversation H fails ctx req.targetId rows, disk)
  | .artifact => eraseArtifact H fails ctx req.targetId rows disk
  | .document => eraseDocument H fails ctx req.targetId rows disk

/-! ## The transaction -/

/-- The checks before anything is done: nothing for a request that is executed already. -/
def checkExecution (requestId : String) (db : HardDeleteTables) :
    Except ExecutionError (Option HardDeleteRequest) := do
  reach fails .permission
  (requirePermission ctx.command).mapError .command
  reach fails .loadRequest
  match db.loadRequest requestId with
  | none => throw (.command ⟨"HARD_DELETE_NOT_FOUND", requestId, 404⟩)
  | some req =>
    if req.status = .executed then return none
    else if req.status ≠ .approvedWaiting then
      throw (.command ⟨"HARD_DELETE_NOT_APPROVED",
        "status " ++ req.status.value ++ ": dual approval required before execution", 409⟩)
    else if !req.executableAt.any (· ≤ ctx.command.now) then
      throw (.command ⟨"HARD_DELETE_WAITING_PERIOD",
        "executable from " ++ req.executableAt.elim "?" isoformat, 409⟩)
    else
      reach fails .loadGrant
      match db.approvals.grants req.approvalId with
      | none => throw (.command ⟨"APPROVAL_NOT_FOUND", toString req.approvalId, 404⟩)
      | some grant =>
        if grant.status ∉ executable then
          throw (.command ⟨"HARD_DELETE_NOT_APPROVED", grant.status.value, 409⟩)
        else
          reach fails .reauth
          (requireReauth ctx.command "hard_delete_execute").mapError .command
          return some req

/-- What the caller gets, besides the number of the Event. -/
structure ExecuteResult where
  eventId : String
  keysDestroyed : List String
  ledgerEntryHash : Option String
  eventHashBefore : String
  eventHashAfter : String
  approvals : List String

/-- `ACCOUNT_HARD_DELETED` -/
def accountDraft (req : HardDeleteRequest) : Draft :=
  ⟨"account", req.targetId, "account:hard_delete", ctx.command.idempotencyKey ++ ":account",
    .accountDeleted req.targetId req.requestId⟩

/-- The Event of `_execute_account`. -/
def appendAccountEvent (req : HardDeleteRequest) (log : List LogRow) :
    Except ExecutionError (List LogRow) :=
  if req.targetType = .account then do
    reach fails .accountEvent
    let (_, log) ← (appendEvent ctx (accountDraft ctx req) ctx.accountEvent log).mapError .command
    return log
  else .ok log

/-- The hash of the last entry of the ledger, if a key was destroyed. -/
def ledgerHash (destroyed : List String) (rows : Rows) : Option String :=
  if destroyed = [] then none else Ledger.lastHash rows.store.keys.tombstones

/-- `HARD_DELETE_EXECUTED` -/
def executedDraft (req : HardDeleteRequest) (destroyed : List String) (rows : Rows) : Draft :=
  ⟨"hard_delete", req.requestId, "hard_delete:execute", ctx.command.idempotencyKey,
    .executed req.requestId (destroyed.head?.getD "") ((ledgerHash destroyed rows).getD "")
      destroyed.length req.targetType⟩

/-- The accounts that approved the request, in the order of their decisions. -/
def approversOf (req : HardDeleteRequest) (rows : Rows) : List String :=
  let approvals := (rows.tables.approvals.decisions req.approvalId).filter (·.decision = .approve)
  approvals.map (·.decidedBy)

/-- The rows that say that the request is executed, and the commit. -/
def settle (req : HardDeleteRequest) (destroyed : List String) (rows : Rows)
    (warnings : List String) (result : ExecuteResult) :
    Except ExecutionError (ExecuteResult × Rows) :=
  if req.requestId ∈ rows.deletions.map (·.requestId) then
    .error (.integrity "hard_delete_tombstones_request_id_key")
  else do
    let deletion : DeletionRow := ⟨req.requestId, ctx.workspace, req.targetType, req.targetId,
      ctx.command.now, ctx.account, result.approvals, destroyed, result.ledgerEntryHash,
      result.eventHashBefore, result.eventHashAfter, result.eventId⟩
    let audit : AuditRow :=
      ⟨req.requestId, req.targetType, destroyed.length, result.ledgerEntryHash, warnings⟩
    reach fails .updateRequest
    reach fails .audit
    reach fails .commit
    return (result, { rows with
      tables := rows.tables.update req.requestId (.execute ctx.command.now)
      deletions := rows.deletions ++ [deletion]
      audit := rows.audit ++ [audit] })

/-- What follows the erasure of the rows. -/
def conclude (arrivals : Arrivals) (req : HardDeleteRequest) (before : String)
    (destroyed : List String) (rows : Rows) (warnings : List String) (log : List LogRow) :
    Except ExecutionError (ExecuteResult × Rows × List LogRow) := do
  let log ← appendAccountEvent fails ctx req (log ++ arrivals.accountEvent)
  reach fails .lastHash
  reach fails .approvers
  reach fails .executedEvent
  let (event, log) ← (appendEvent ctx (executedDraft ctx req destroyed rows) ctx.executedEvent
    (log ++ arrivals.executedEvent)).mapError .command
  reach fails .digestAfter
  let after := eventChainDigest H ctx (log ++ arrivals.digestAfter)
  reach fails .accountEventIds
  let exclude := event.eventId ::
    accountEventIds req (log ++ arrivals.digestAfter ++ arrivals.accountEventIds)
  reach fails .digestExcluding
  if digestExcluding H ctx exclude (log ++ arrivals.digestAfter ++ arrivals.accountEventIds ++
      arrivals.digestExcluding) ≠ before then
    .error (.command ⟨"HARD_DELETE_EVENT_CHAIN_CHANGED", "Event rows changed during execution",
      500⟩)
  else do
    reach fails .insertTombstone
    let (result, rows) ← settle fails ctx req destroyed rows warnings ⟨event.eventId, destroyed,
      ledgerHash destroyed rows, before, after, approversOf req rows⟩
    return (result, rows, log ++ arrivals.digestAfter ++ arrivals.accountEventIds ++
      arrivals.digestExcluding)

/-- What the caller gets in the end, and the world that the commit or the rollback leaves. -/
def leave (arrivals : Arrivals) (w : World) (files : List String) :
    Except ExecutionError (ExecuteResult × Rows × List LogRow) →
      Except ExecutionError (Option ExecuteResult) × World
  | .error e => (.error e, { w with log := w.log ++ arrivals.all, files := files })
  | .ok (result, rows, log) => (.ok (some result), ⟨rows, log, files⟩)

/-- **`execute_hard_delete`**, and the world it leaves. A replay has no result of its own. -/
def execute (arrivals : Arrivals) (requestId : String) (w : World) :
    Except ExecutionError (Option ExecuteResult) × World :=
  match checkExecution fails ctx requestId w.rows.tables with
  | .error e => leave arrivals w w.files (.error e)
  | .ok none => (.ok none, { w with log := w.log ++ arrivals.all })
  | .ok (some req) =>
    match reach fails .digestBefore with
    | .error e => leave arrivals w w.files (.error e)
    | .ok () =>
      let log := w.log ++ arrivals.digestBefore
      let before := eventChainDigest H ctx log
      let (erased, disk) := eraseTarget H fails ctx req w.rows ⟨w.files, []⟩
      leave arrivals w disk.files (erased.bind fun x ↦
        conclude H fails ctx arrivals req before x.1 x.2 disk.warnings log)

end Execution

end AgentColab.HardDelete
