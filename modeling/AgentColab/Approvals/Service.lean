import AgentColab.Approvals.Statements
import Mathlib.Data.List.Sort

/-!
# Approval services

Every function runs inside the caller's transaction and appends one Event for each change of state.
The grants are the authority, the ledgers only grow, and the projection is never read.
-/

namespace AgentColab.Approvals

open AgentColab Transaction

variable (catalog : PolicyCatalog)

/-- `_load_grant` -/
def loadGrant (approvalId : ℕ) (forUpdate : Bool) : Body Grant := do
  match ← ask (.loadGrant approvalId forUpdate) with
  | some g => return g
  | none => throw ⟨"APPROVAL_NOT_FOUND", toString approvalId, 404⟩

/-- `_append` -/
def append (grant : Grant) (actorUuid scope key : String) (payload : Payload) :
    Body AppendResult := do
  orRaise (← ask (.append {
    workspaceId := grant.workspaceUuid
    aggregateId := grant.approvalId
    actorAccountId := actorUuid
    idempotencyScope := "approval:" ++ scope
    idempotencyKey := key
    payload := payload
    expectedSeq := grant.aggregateSeq + 1 }))

/-- The row that `_project` writes. -/
def projected (grant : Grant) (status : ApprovalStatus) (used : ℕ) (deciders : List String)
    (eventId : ℕ) (now : Time) : ProjectionRow where
  workspaceId := grant.workspaceUuid
  subject := grant.subject
  action := grant.action
  risk := grant.risk
  status := status
  usedCount := used
  maxUses := grant.maxUses
  expiresAt := grant.expiresAt
  requestedBy := grant.requestedBy
  decidedBy := deciders
  lastEventId := eventId
  updatedAt := now

/-- `_project` -/
def project (grant : Grant) (status : ApprovalStatus) (eventId : ℕ) (now : Time) : Body Unit := do
  let used ← ask (.countConsumptions grant.approvalId)
  let deciders ← ask (.priorDeciders grant.approvalId)
  ask (.upsertProjection grant.approvalId (projected grant status used deciders eventId now))

/-! ## Request -/

structure RequestApproval where
  workspaceUuid : String
  requestedBy : String
  subject : Subject
  action : String
  idempotencyKey : String
  risk : Option Risk := none
  validFor : Option Time := none
  maxUses : Option ℤ := none
  implementingAgentAccount : Option String := none
  channelUuid : Option String := none
  requiresHumanApproval : Bool := false

/-- The higher of the catalog's risk and the one that was asked for. -/
def effectiveRisk (r : RequestApproval) : Risk :=
  match r.risk with
  | some risk => if risk.index > (catalog.riskFor r.action).index then risk
    else catalog.riskFor r.action
  | none => catalog.riskFor r.action

def requiredQuorum (r : RequestApproval) : ℕ :=
  let quorum := catalog.quorum (effectiveRisk catalog r)
  if r.requiresHumanApproval && quorum = 0 then 1 else quorum

/-- `now + valid_for if valid_for else default_expiry(now)`; a zero length counts as absent. -/
def expiry (r : RequestApproval) (now : Time) : Time :=
  match r.validFor with
  | some d => if d = 0 then defaultExpiry now else now + d
  | none => defaultExpiry now

def newGrant (r : RequestApproval) (now : Time) (n : ℕ) : Grant where
  approvalId := n
  workspaceUuid := r.workspaceUuid
  subject := r.subject
  action := r.action
  risk := effectiveRisk catalog r
  requestedBy := r.requestedBy
  implementingAgentAccount := r.implementingAgentAccount
  channelUuid := r.channelUuid
  validFrom := now
  expiresAt := expiry r now
  maxUses := r.maxUses
  quorumRequired := requiredQuorum catalog r
  requiresHumanApproval := r.requiresHumanApproval
  idempotencyKey := r.idempotencyKey

inductive Outcome where
  | requested (approvalId eventId : ℕ) (replayed : Bool)
  | decided (approvalId : ℕ) (status : ApprovalStatus) (approvalsRecorded quorumRequired : ℕ)
      (eventId : Option ℕ)
  | terminated (eventId : ℕ)
  | expired (approvalIds : List ℕ)
  | consumed (approvalId : ℕ) (consumptionKey : String) (usedCount : ℕ) (status : ApprovalStatus)
      (eventId : ℕ) (replayed : Bool)
  | aliased

/-- The second half of `request_approval`: a new grant. -/
def createGrant (r : RequestApproval) (now : Time) : Body Outcome := do
  let aid ← orRaise (← ask (.insertGrant (newGrant catalog r now)))
  let grant ← loadGrant aid false
  let result ← append grant r.requestedBy "request" r.idempotencyKey
    (.requested grant.subject grant.action grant.risk grant.expiresAt grant.quorumRequired
      grant.maxUses)
  ask (.setStatus aid .pending result.aggregateSeq)
  project grant .pending result.eventId now
  return .requested aid result.eventId false

def requestApproval (r : RequestApproval) : Body Outcome := do
  orRaise (← ask (.validateSubject r.workspaceUuid r.subject))
  if r.maxUses.any (· ≤ 0) then throw ⟨"MAX_USES_INVALID", "", 400⟩
  else
  let now ← ask .now
  if expiry r now ≤ now then
    throw ⟨"VALIDITY_INVALID", "expires_at must be after valid_from", 400⟩
  else
  -- the same key from the same requester returns the existing grant
  match ← ask (.findRequest r.workspaceUuid r.requestedBy r.idempotencyKey) with
  | some aid =>
    let grant ← loadGrant aid false
    match ← ask (.firstEvent grant.approvalId) with
    | some prior => return .requested grant.approvalId prior.eventId true
    | none => throw ⟨"IndexError", "", 500⟩
  | none => createGrant catalog r now

/-! ## Decide -/

structure DecideApproval where
  approvalId : ℕ
  approverAccountId : String
  decision : Decision
  credentialFingerprint : String
  reauthVerified : Bool
  idempotencyKey : String
  reasonCode : String := "REJECTED_BY_APPROVER"

/-- `check_eligibility`: the approver, or the code of the refusal. -/
def checkEligibility (d : DecideApproval) (grant : Grant) (prior : List String) :
    Body (Except String PrincipalInfo) := do
  match ← ask (.principal d.approverAccountId) with
  | none => return .error "APPROVER_NOT_ELIGIBLE"
  | some approver =>
    if !approver.isActive then return .error "APPROVER_NOT_ELIGIBLE"
    else
    let graph ← ask .aliasGraph
    if samePrincipal approver.accountUuid grant.requestedBy graph ||
        samePrincipal approver.accountUuid grant.implementingAgentAccount graph then
      return .error "SELF_APPROVAL_FORBIDDEN"
    else if approver.accountUuid ∈ prior then return .error "APPROVER_DUPLICATE"
    else if (catalog.humanOnly grant.risk || grant.requiresHumanApproval) && !approver.isHuman then
      return .error "HUMAN_APPROVER_REQUIRED"
    else
    match ← ask (.authorize approver.accountId grant.approvalId) with
    | some "CHANNEL_NOT_MEMBER" => return .error "APPROVER_NOT_CHANNEL_MEMBER"
    | some "ROLE_MAX_RISK_EXCEEDED" => return .error "APPROVER_ROLE_RISK_TOO_LOW"
    | some _ => return .error "APPROVER_NOT_ELIGIBLE"
    | none =>
      if !(← ask (.rolesCover approver.accountId grant.risk)) then
        return .error "APPROVER_ROLE_RISK_TOO_LOW"
      else if grant.risk.index ≥ Risk.high.index && !d.reauthVerified then
        return .error "REAUTH_REQUIRED"
      else return .ok approver

/-- `_record_decision` -/
def recordDecision (d : DecideApproval) (approver : String) (decision : Decision) (eventId : ℕ) :
    Body Unit := do
  orRaise (← ask (.insertDecision {
    approvalId := d.approvalId
    decidedBy := approver
    decision := decision
    credentialFingerprint := d.credentialFingerprint
    reauthVerified := d.reauthVerified
    eventId := eventId }))

/-- The Event of a decision that ends the vote, the row of the ledger, the status and the
projection. -/
def conclude (d : DecideApproval) (grant : Grant) (approver : PrincipalInfo) (decision : Decision)
    (payload : Payload) (now : Time) : Body (ApprovalStatus × ℕ) := do
  let result ← append grant approver.accountUuid "decide" d.idempotencyKey payload
  recordDecision d approver.accountUuid decision result.eventId
  let status ← orRaise (nextStatus grant.status payload.type)
  ask (.setStatus d.approvalId status result.aggregateSeq)
  project grant status result.eventId now
  return (status, result.eventId)

/-- What is left of `decide_approval` once the approver is found eligible. -/
def recordVote (d : DecideApproval) (grant : Grant) (prior : List String) (approver : PrincipalInfo)
    (now : Time) : Body Outcome := do
  match d.decision with
  | .reject =>
    let (status, eventId) ← conclude d grant approver .reject
      (.rejected approver.accountId d.reasonCode) now
    return .decided d.approvalId status prior.length grant.quorumRequired (some eventId)
  | .approve =>
    let approvals := prior.length + 1
    if approvals ≥ grant.quorumRequired then
      let (status, eventId) ← conclude d grant approver .approve
        (.granted approver.accountId approvals
          ((prior ++ [approver.accountUuid]).insertionSort (· ≤ ·))) now
      return .decided d.approvalId status approvals grant.quorumRequired (some eventId)
    else
    -- the quorum is not met: a row of the ledger, no Event, and the status stays
    match ← ask (.lastEvent d.approvalId) with
    | none => throw ⟨"IndexError", "", 500⟩
    | some last =>
      recordDecision d approver.accountUuid .approve last.eventId
      project grant .pending last.eventId now
      return .decided d.approvalId .pending approvals grant.quorumRequired none

def decideApproval (d : DecideApproval) : Body Outcome := do
  let now ← ask .now
  let grant ← loadGrant d.approvalId true
  if grant.status ≠ .pending then throw ⟨"APPROVAL_NOT_PENDING", grant.status.value, 409⟩
  else if now ≥ grant.expiresAt then throw ⟨"APPROVAL_NOT_USABLE", "expired", 409⟩
  else
  let prior ← ask (.priorDeciders d.approvalId)
  match ← checkEligibility catalog d grant prior with
  | .error code => throw ⟨code, d.approverAccountId ++ " cannot decide", 403⟩
  | .ok approver => recordVote d grant prior approver now

/-! ## Cancel, revoke and expire -/

/-- `_terminate` -/
def terminate (approvalId : ℕ) (payload : Payload) (actorUuid key scope : String) :
    Body AppendResult := do
  let grant ← loadGrant approvalId true
  let status ← orRaise (nextStatus grant.status payload.type)
  let result ← append grant actorUuid scope key payload
  ask (.setStatus approvalId status result.aggregateSeq)
  let now ← ask .now
  project grant status result.eventId now
  return result

def cancelApproval (approvalId : ℕ) (actorUuid key reasonCode : String) : Body Outcome := do
  let grant ← loadGrant approvalId false
  let allowed ← if grant.requestedBy = actorUuid then pure true else ask (.isAdminActor actorUuid)
  if !allowed then
    throw ⟨"APPROVAL_CANCEL_FORBIDDEN", "only the requester or an administrator", 403⟩
  else
  let result ← terminate approvalId (.cancelled reasonCode) actorUuid key "cancel"
  return .terminated result.eventId

def revokeApproval (approvalId : ℕ) (actorUuid key reasonCode : String) : Body Outcome := do
  let result ← terminate approvalId (.revoked reasonCode) actorUuid key "revoke"
  return .terminated result.eventId

/-- The body of the loop of `expire_approvals`: the expiry and its escalation. -/
def expireOne (actorUuid : String) (now : Time) (approvalId : ℕ) : Body Unit := do
  let _ ← terminate approvalId .expired actorUuid ("expire:" ++ toString approvalId) "expire"
  let grant ← loadGrant approvalId false
  let result ← append grant actorUuid "escalate" ("escalate:" ++ toString approvalId)
    (.escalated catalog.escalationRole)
  ask (.setStatus approvalId .expired result.aggregateSeq)
  project grant .expired result.eventId now

def expireApprovals (actorUuid : String) (workspaceUuid : Option String) : Body Outcome := do
  let now ← ask .now
  let expired ← ask (.expiredGrants workspaceUuid now)
  Prog.forEach expired (expireOne catalog actorUuid now)
  return .expired expired

/-! ## Consume -/

structure ConsumeApproval where
  approvalId : ℕ
  consumptionKey : String
  consumedBy : String
  consumedFor : Subject

def takeUse (c : ConsumeApproval) (grant : Grant) (now : Time) : Body Outcome := do
  let used ← ask (.countConsumptions c.approvalId)
  if grant.maxUses.any fun m ↦ (used : ℤ) ≥ m then
    throw ⟨"APPROVAL_EXHAUSTED", toString used ++ " uses", 409⟩
  else
  let result ← append grant c.consumedBy "consume"
    (toString c.approvalId ++ ":" ++ c.consumptionKey)
    (.consumed c.consumptionKey (used + 1) c.consumedFor)
  orRaise (← ask (.insertConsumption {
    approvalId := c.approvalId
    consumptionKey := c.consumptionKey
    consumedBy := c.consumedBy
    consumedFor := c.consumedFor
    eventId := result.eventId }))
  let status := statusAfterConsumption (used + 1) grant.maxUses
  ask (.setStatus c.approvalId status result.aggregateSeq)
  project grant status result.eventId now
  return .consumed c.approvalId c.consumptionKey (used + 1) status result.eventId false

/-- Lock the grant, look for the key, check the validity, count the ledger and take one use. -/
def consumeApproval (c : ConsumeApproval) : Body Outcome := do
  let now ← ask .now
  let grant ← loadGrant c.approvalId true
  match ← ask (.findConsumption c.approvalId c.consumptionKey) with
  | some eventId =>
    let used ← ask (.countConsumptions c.approvalId)
    return .consumed c.approvalId c.consumptionKey used grant.status eventId true
  | none =>
    if grant.status = .consumed then throw ⟨"APPROVAL_EXHAUSTED", "", 409⟩
    else if grant.status ∉ ApprovalStatus.consumable then
      throw ⟨"APPROVAL_NOT_USABLE", grant.status.value, 409⟩
    else if !(grant.validFrom ≤ now && now < grant.expiresAt) then
      throw ⟨"APPROVAL_NOT_USABLE", "outside validity window", 409⟩
    else if c.consumedFor ≠ grant.subject then throw ⟨"APPROVAL_SCOPE_MISMATCH", "", 409⟩
    else takeUse c grant now

inductive ApprovalCall where
  | request (r : RequestApproval)
  | decide (d : DecideApproval)
  | cancel (approvalId : ℕ) (actorUuid key reasonCode : String)
  | revoke (approvalId : ℕ) (actorUuid key reasonCode : String)
  | expire (actorUuid : String) (workspaceUuid : Option String)
  | consume (c : ConsumeApproval)
  /-- An administrator changes the alias table. -/
  | setAliases (graph : AliasGraph)

def approvalBody : ApprovalCall → Body Outcome
  | .request r => requestApproval catalog r
  | .decide d => decideApproval catalog d
  | .cancel aid actor key reason => cancelApproval aid actor key reason
  | .revoke aid actor key reason => revokeApproval aid actor key reason
  | .expire actor ws => expireApprovals catalog actor ws
  | .consume c => consumeApproval c
  | .setAliases graph => do
    ask (.setAliases graph)
    return .aliased

end AgentColab.Approvals
