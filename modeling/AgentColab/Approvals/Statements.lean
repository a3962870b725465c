import AgentColab.Approvals.Contract
import AgentColab.Transaction.Serial

/-!
# The statements of the approval services

The approval tables, the Events on approval aggregates, and what the services ask of other
packages. A table is a function from its primary key; the ledgers are lists in the order of their
ids, one for each approval.

An insert into a ledger takes a lock on its grant that excludes `FOR UPDATE`. So the grant's lock
covers the row and both of its ledgers. Appending an Event is one statement here.
-/

namespace AgentColab.Approvals

open AgentColab Transaction

/-! ## Rows -/

inductive Decision where
  | approve
  | reject
deriving DecidableEq

/-- A row of `approval_decisions`. -/
structure DecisionRow where
  approvalId : ℕ
  decidedBy : String
  decision : Decision
  credentialFingerprint : String
  reauthVerified : Bool
  eventId : ℕ

/-- A row of `approval_consumptions`. -/
structure ConsumptionRow where
  approvalId : ℕ
  consumptionKey : String
  consumedBy : String
  consumedFor : Subject
  eventId : ℕ

/-- A row of `approvals_projection`. -/
structure ProjectionRow where
  workspaceId : String
  subject : Subject
  action : String
  risk : Risk
  status : ApprovalStatus
  usedCount : ℕ
  maxUses : Option ℤ
  expiresAt : Time
  requestedBy : String
  decidedBy : List String
  lastEventId : ℕ
  updatedAt : Time

inductive Payload where
  | requested (subject : Subject) (action : String) (risk : Risk) (expiresAt : Time)
      (quorumRequired : ℕ) (maxUses : Option ℤ)
  | granted (decidedBy : String) (quorumCount : ℕ) (deciders : List String)
  | rejected (decidedBy reasonCode : String)
  | cancelled (reasonCode : String)
  | expired
  | revoked (reasonCode : String)
  | consumed (consumptionKey : String) (usedCount : ℕ) (consumedFor : Subject)
  | escalated (role : String)
deriving DecidableEq

def Payload.type : Payload → EventType
  | requested .. => .requested
  | granted .. => .granted
  | rejected .. => .rejected
  | cancelled .. => .cancelled
  | expired => .expired
  | revoked .. => .revoked
  | consumed .. => .consumed
  | escalated .. => .escalated

/-- A request to append an Event to the stream of an approval. -/
structure AppendRequest where
  workspaceId : String
  aggregateId : ℕ
  actorAccountId : String
  idempotencyScope : String
  idempotencyKey : String
  payload : Payload
  expectedSeq : ℕ

structure Event where
  eventId : ℕ
  aggregateSeq : ℕ
  workspaceId : String
  aggregateId : ℕ
  actorAccountId : String
  idempotencyScope : String
  idempotencyKey : String
  payload : Payload
  occurredAt : Time
deriving DecidableEq

structure AppendResult where
  eventId : ℕ
  aggregateSeq : ℕ
  replayed : Bool := false

structure ApprovalTables where
  /-- The primary keys of `grants`. -/
  ids : List ℕ := []
  grants : ℕ → Option Grant := fun _ ↦ none
  decisions : ℕ → List DecisionRow := fun _ ↦ []
  consumptions : ℕ → List ConsumptionRow := fun _ ↦ []
  projection : ℕ → Option ProjectionRow := fun _ ↦ none
  /-- In the order of `recorded_seq`. -/
  events : List Event := []
  aliases : AliasGraph := []

/-! ## Changes -/

inductive ApprovalWrite where
  | insertGrant (row : Grant)
  | setStatus (approvalId : ℕ) (status : ApprovalStatus) (seq : ℕ)
  | insertDecision (row : DecisionRow)
  | insertConsumption (row : ConsumptionRow)
  | upsertProjection (approvalId : ℕ) (row : ProjectionRow)
  | insertEvent (event : Event)
  | setAliases (graph : AliasGraph)

/-- `ON CONFLICT (approval_id) DO UPDATE` sets the columns that change. -/
def ProjectionRow.merge (old new : ProjectionRow) : ProjectionRow :=
  { old with
    status := new.status
    usedCount := new.usedCount
    decidedBy := new.decidedBy
    lastEventId := new.lastEventId
    updatedAt := new.updatedAt }

namespace ApprovalTables

def apply (db : ApprovalTables) : ApprovalWrite → ApprovalTables
  | .insertGrant row =>
    { db with
      ids := db.ids ++ [row.approvalId]
      grants := Function.update db.grants row.approvalId (some row) }
  | .setStatus aid status seq =>
    { db with
      grants := Function.update db.grants aid
        ((db.grants aid).map fun g ↦ { g with status := status, aggregateSeq := seq }) }
  | .insertDecision row =>
    { db with
      decisions := Function.update db.decisions row.approvalId
        (db.decisions row.approvalId ++ [row]) }
  | .insertConsumption row =>
    { db with
      consumptions := Function.update db.consumptions row.approvalId
        (db.consumptions row.approvalId ++ [row]) }
  | .upsertProjection aid row =>
    { db with
      projection := Function.update db.projection aid
        (some (((db.projection aid).map fun old ↦ old.merge row).getD row)) }
  | .insertEvent event => { db with events := db.events ++ [event] }
  | .setAliases graph => { db with aliases := graph }

/-- `stream` -/
def stream (db : ApprovalTables) (aid : ℕ) : List Event :=
  db.events.filter (·.aggregateId = aid)

/-- `SELECT decided_by … ORDER BY id` -/
def deciders (db : ApprovalTables) (aid : ℕ) : List String :=
  (db.decisions aid).map (·.decidedBy)

end ApprovalTables

inductive ApprovalLock where
  | grant (approvalId : ℕ)
  | stream (approvalId : ℕ)
  | projection (approvalId : ℕ)
  | idempotency (workspaceId actorAccountId scope key : String)
  | aliases
deriving DecidableEq

def ApprovalWrite.keys : ApprovalWrite → List ApprovalLock
  | insertGrant row => [.grant row.approvalId]
  | setStatus aid _ _ => [.grant aid]
  | insertDecision row => [.grant row.approvalId]
  | insertConsumption row => [.grant row.approvalId]
  | upsertProjection aid _ => [.projection aid]
  | insertEvent e => [.stream e.aggregateId,
      .idempotency e.workspaceId e.actorAccountId e.idempotencyScope e.idempotencyKey]
  | setAliases _ => [.aliases]

/-! ## Statements -/

/-- `PrincipalInfo` -/
structure PrincipalInfo where
  accountUuid : String
  accountId : String
  isHuman : Bool
  isActive : Bool

inductive Op where
  | now
  /-- `validate_subject`; it only reads. -/
  | validateSubject (workspaceUuid : String) (subject : Subject)
  | findRequest (workspaceUuid requestedBy idempotencyKey : String)
  | insertGrant (row : ℕ → Grant)
  | loadGrant (approvalId : ℕ) (forUpdate : Bool)
  | principal (accountId : String)
  | aliasGraph
  | authorize (accountId : String) (approvalId : ℕ)
  | rolesCover (accountId : String) (risk : Risk)
  | isAdminActor (accountUuid : String)
  | priorDeciders (approvalId : ℕ)
  | insertDecision (row : DecisionRow)
  | findConsumption (approvalId : ℕ) (consumptionKey : String)
  | countConsumptions (approvalId : ℕ)
  | insertConsumption (row : ConsumptionRow)
  | append (request : AppendRequest)
  | firstEvent (approvalId : ℕ)
  | lastEvent (approvalId : ℕ)
  | setStatus (approvalId : ℕ) (status : ApprovalStatus) (seq : ℕ)
  | upsertProjection (approvalId : ℕ) (row : ProjectionRow)
  | expiredGrants (workspaceUuid : Option String) (now : Time)
  /-- An administrator changes the alias table. -/
  | setAliases (graph : AliasGraph)

abbrev Res : Op → Type
  | .now => Time
  | .validateSubject _ _ => Except ApprovalError Unit
  | .findRequest _ _ _ => Option ℕ
  | .insertGrant _ => Except ApprovalError ℕ
  | .loadGrant _ _ => Option Grant
  | .principal _ => Option PrincipalInfo
  | .aliasGraph => AliasGraph
  | .authorize _ _ => Option String
  | .rolesCover _ _ => Bool
  | .isAdminActor _ => Bool
  | .priorDeciders _ => List String
  | .insertDecision _ => Except ApprovalError Unit
  | .findConsumption _ _ => Option ℕ
  | .countConsumptions _ => ℕ
  | .insertConsumption _ => Except ApprovalError Unit
  | .append _ => Except ApprovalError AppendResult
  | .firstEvent _ => Option Event
  | .lastEvent _ => Option Event
  | .setStatus _ _ _ => Unit
  | .upsertProjection _ _ => Unit
  | .expiredGrants _ _ => List ℕ
  | .setAliases _ => Unit

/-- What the environment contributes to a statement. -/
structure ApprovalInput where
  now : Time := 0
  subjectError : Option ApprovalError := none
  principal : Option PrincipalInfo := none
  denial : Option String := none
  rolesCover : Bool := true
  isAdmin : Bool := false
  /-- What the Event store raises besides a conflict. -/
  appendError : Option ApprovalError := none

abbrev Eff (R : Type) := Effect ApprovalWrite ApprovalLock R

def read {R : Type} (result : R) : Eff R := ⟨result, [], []⟩

/-- Whether an Event was recorded for the same workspace, actor, scope and key. -/
def Event.sameKey (e : Event) (r : AppendRequest) : Bool :=
  e.workspaceId = r.workspaceId && e.actorAccountId = r.actorAccountId &&
    e.idempotencyScope = r.idempotencyScope && e.idempotencyKey = r.idempotencyKey

def Event.sameBody (e : Event) (r : AppendRequest) : Bool :=
  e.aggregateId = r.aggregateId && e.payload = r.payload

/-- `PostgresEventStore.append` -/
def execAppend (inp : ApprovalInput) (n : ℕ) (db : ApprovalTables) (r : AppendRequest) :
    Eff (Except ApprovalError AppendResult) :=
  let locks := [.stream r.aggregateId,
    .idempotency r.workspaceId r.actorAccountId r.idempotencyScope r.idempotencyKey]
  match db.events.find? (·.sameKey r) with
  | some prior =>
    if prior.sameBody r then ⟨.ok ⟨prior.eventId, prior.aggregateSeq, true⟩, [], locks⟩
    else ⟨.error ⟨"IDEMPOTENCY_CONFLICT", "same idempotency key with a different body", 409⟩, [],
      locks⟩
  | none =>
    match inp.appendError with
    | some e => ⟨.error e, [], locks⟩
    | none =>
      let next := (db.stream r.aggregateId).length + 1
      if r.expectedSeq ≠ next then
        ⟨.error ⟨"SEQUENCE_CONFLICT", "expected " ++ toString r.expectedSeq ++ ", next is " ++
          toString next, 409⟩, [], locks⟩
      else
        ⟨.ok ⟨n, next, false⟩, [.insertEvent ⟨n, next, r.workspaceId, r.aggregateId,
          r.actorAccountId, r.idempotencyScope, r.idempotencyKey, r.payload, inp.now⟩], locks⟩

/-- The statement in the given view, with the nonce `n` and the environment's `inp`. -/
def execStatement (inp : ApprovalInput) (n : ℕ) (db : ApprovalTables) : (o : Op) → Eff (Res o)
  | .now => read inp.now
  | .validateSubject _ _ => read (inp.subjectError.elim (.ok ()) .error)
  | .findRequest ws rb key =>
    read (db.ids.find? fun aid ↦ (db.grants aid).any fun g ↦
      g.workspaceUuid = ws && g.requestedBy = rb && g.idempotencyKey = key)
  | .insertGrant row =>
    if (db.grants (row n).approvalId).isSome then
      ⟨.error ⟨"IntegrityError", "approval_grants_approval_id_key", 500⟩, [],
        [.grant (row n).approvalId]⟩
    else ⟨.ok (row n).approvalId, [.insertGrant (row n)], [.grant (row n).approvalId]⟩
  | .loadGrant aid forUpdate => ⟨db.grants aid, [], if forUpdate then [.grant aid] else []⟩
  | .principal _ => read inp.principal
  | .aliasGraph => read db.aliases
  | .authorize _ _ => read inp.denial
  | .rolesCover _ _ => read inp.rolesCover
  | .isAdminActor _ => read inp.isAdmin
  | .priorDeciders aid => read (db.deciders aid)
  | .insertDecision row =>
    if row.decidedBy ∈ db.deciders row.approvalId then
      ⟨.error ⟨"IntegrityError", "approval_decisions_approval_id_decided_by_key", 500⟩, [],
        [.grant row.approvalId]⟩
    else ⟨.ok (), [.insertDecision row], [.grant row.approvalId]⟩
  | .findConsumption aid key =>
    read (((db.consumptions aid).find? (·.consumptionKey = key)).map (·.eventId))
  | .countConsumptions aid => read (db.consumptions aid).length
  | .insertConsumption row =>
    if row.consumptionKey ∈ (db.consumptions row.approvalId).map (·.consumptionKey) then
      ⟨.error ⟨"IntegrityError", "approval_consumptions_approval_id_consumption_key_key", 500⟩, [],
        [.grant row.approvalId]⟩
    else ⟨.ok (), [.insertConsumption row], [.grant row.approvalId]⟩
  | .append r => execAppend inp n db r
  | .firstEvent aid => read (db.stream aid).head?
  | .lastEvent aid => read (db.stream aid).getLast?
  | .setStatus aid status seq => ⟨(), [.setStatus aid status seq], [.grant aid]⟩
  | .upsertProjection aid row => ⟨(), [.upsertProjection aid row], [.projection aid]⟩
  | .expiredGrants ws now =>
    let ids := db.ids.filter fun aid ↦ (db.grants aid).any fun g ↦
      [.pending, .approved, .partiallyConsumed].contains g.status && g.expiresAt ≤ now &&
        ws.all (· = g.workspaceUuid)
    ⟨ids, [], ids.map .grant⟩
  | .setAliases graph => ⟨(), [.setAliases graph], [.aliases]⟩

/-- Every change is made under the locks of its keys. -/
theorem execStatement_locked (inp : ApprovalInput) (n : ℕ) (db : ApprovalTables) (o : Op) :
    ∀ x ∈ (execStatement inp n db o).writes, ∀ k ∈ x.keys,
      k ∈ (execStatement inp n db o).locks := by
  cases o with
  | insertGrant | insertDecision | insertConsumption =>
    simp only [execStatement]
    split_ifs <;> simp [ApprovalWrite.keys]
  | append =>
    simp only [execStatement, execAppend]
    split
    · split_ifs <;> simp
    · split
      · simp
      · split_ifs <;> simp [ApprovalWrite.keys]
  | _ => simp [execStatement, read, ApprovalWrite.keys]

abbrev approvalDatabase : Database Res where
  Store := ApprovalTables
  Write := ApprovalWrite
  Key := ApprovalLock
  Input := ApprovalInput
  decEqKey := inferInstance
  apply := ApprovalTables.apply
  keys := ApprovalWrite.keys
  exec inp n _ db o := execStatement inp n db o
  locked inp n _ db o := execStatement_locked inp n db o

/-- A body that runs inside the caller's transaction. -/
abbrev Body (α : Type) := Prog Res ApprovalError α

def ask (o : Op) : Body (Res o) := Prog.issue o

def orRaise {α : Type} : Except ApprovalError α → Body α
  | .ok a => pure a
  | .error e => throw e

end AgentColab.Approvals
