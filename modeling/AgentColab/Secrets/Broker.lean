import AgentColab.Digest.Sha256
import AgentColab.Domain.Clock
import Mathlib.Data.List.Basic

/-!
# Leases, handles and the checks of a resolve

Only the digest of a handle is stored. A resolve finds the lease by it, checks the lease and then
its grant, reads the secret and counts the use. The process keeps a registry of the handles that can
still be resolved: it is what a revocation in the same process clears.
-/

namespace AgentColab.Secrets

abbrev Bytes := List UInt8

/-- `handle_hash`: what is stored of a handle. -/
def handleHash (handle : String) : String := Sha256.hexDigest handle.toUTF8.toList

/-- `is_handle` -/
def isHandle (value : String) : Bool :=
  ['s', 'h', '-'].isPrefixOf value.toList && value.toList.length == 35

/-- The identity of a lease, `"lease-"` and hexadecimal digits. -/
structure LeaseId where
  hex : String
deriving DecidableEq

def LeaseId.value (id : LeaseId) : String := "lease-" ++ id.hex

theorem LeaseId.value_ne_lease (id : LeaseId) : id.value ≠ "lease" := by
  intro h
  have hlength := congrArg String.length h
  rw [LeaseId.value, String.length_append] at hlength
  have h6 : "lease-".length = 6 := by decide
  have h5 : "lease".length = 5 := by decide
  omega

theorem LeaseId.value_injective : Function.Injective LeaseId.value := by
  rintro ⟨a⟩ ⟨b⟩ h
  have : a = b := by simpa [LeaseId.value] using h
  rw [this]

/-! ## Rows -/

structure LeaseScope where
  agentId : String
  taskId : Option String
  action : Option String
  workItemId : Option String
  sidecarInstanceId : Option String

/-- A row of `secret_grants`. -/
structure GrantRow where
  grantId : String
  workspaceId : String
  secretRef : String
  agentId : String
  taskId : Option String
  action : Option String
  ttlSeconds : ℕ
  singleUse : Bool
  exposureAllowed : Bool
  exposureApprovalId : Option String
  expiresAt : Time
  revokedAt : Option Time

/-- `GrantRow.matches`: what the grant leaves open is open to every lease. -/
def GrantRow.matches (grant : GrantRow) (scope : LeaseScope) : Bool :=
  if grant.agentId ≠ scope.agentId then false
  else if grant.taskId ≠ none ∧ grant.taskId ≠ scope.taskId then false
  else !decide (grant.action ≠ none ∧ grant.action ≠ scope.action)

/-- A row of `secret_leases`. -/
structure LeaseRow where
  leaseId : LeaseId
  workspaceId : String
  grantId : String
  secretRef : String
  handleHash : String
  agentId : String
  taskId : Option String
  action : Option String
  workItemId : Option String
  sidecarInstanceId : Option String
  singleUse : Bool
  issuedAt : Time
  expiresAt : Time
  usedAt : Option Time
  useCount : ℕ
  revokedAt : Option Time
deriving DecidableEq

/-- A row of `approval_grants`, as the exposure of a secret reads it. -/
structure ApprovalRow where
  approvalId : String
  status : String
  expiresAt : Time

/-- The authenticated identity of who is resolving. -/
structure ResolveContext where
  agentId : String
  sidecarInstanceId : Option String
  taskId : Option String
  action : Option String
  workItemId : Option String

inductive Kind where
  | grant
  | lease
  | task
  | agent
  | secret
deriving DecidableEq

def Kind.value : Kind → String
  | grant => "grant"
  | lease => "lease"
  | task => "task"
  | agent => "agent"
  | secret => "secret"

/-! ## The checks -/

/-- The stable codes a broker call is refused with. -/
inductive SecretError where
  | notFound
  | scopeDenied
  | leaseExpired
  | handleUsed
  | handleRevoked
  | handleHostMismatch
  | exposureApprovalRequired
  | providerUnavailable
deriving DecidableEq

def SecretError.code : SecretError → String
  | notFound => "SECRET_NOT_FOUND"
  | scopeDenied => "SECRET_SCOPE_DENIED"
  | leaseExpired => "SECRET_LEASE_EXPIRED"
  | handleUsed => "SECRET_HANDLE_USED"
  | handleRevoked => "SECRET_HANDLE_REVOKED"
  | handleHostMismatch => "SECRET_HANDLE_HOST_MISMATCH"
  | exposureApprovalRequired => "SECRET_EXPOSURE_APPROVAL_REQUIRED"
  | providerUnavailable => "SECRET_PROVIDER_UNAVAILABLE"

/-- A part of the scope of a lease that the context of a resolve does not match. -/
inductive Mismatch where
  | agent
  | task
  | action
  | workItem
  | sidecarInstance

/-- `_scope_mismatch`: the first part that does not match. -/
def scopeMismatch (lease : LeaseRow) (context : ResolveContext) : Option Mismatch :=
  if lease.agentId ≠ context.agentId then some .agent
  else if lease.taskId ≠ none ∧ lease.taskId ≠ context.taskId then some .task
  else if lease.action ≠ none ∧ lease.action ≠ context.action then some .action
  else if lease.workItemId ≠ none ∧ lease.workItemId ≠ context.workItemId then some .workItem
  else if lease.sidecarInstanceId ≠ none ∧
      lease.sidecarInstanceId ≠ context.sidecarInstanceId then some .sidecarInstance
  else none

/-- The part of `resolve` between the read of the lease and the read of its grant. -/
def checkLease (workspaceId : String) : Option LeaseRow → Except SecretError LeaseRow
  | none => .error .notFound
  | some lease =>
    if lease.workspaceId ≠ workspaceId then .error .notFound
    else if lease.revokedAt.isSome then .error .handleRevoked
    else .ok lease

/-- The part of `resolve` between the read of the grant and the read of the secret, up to the
approval of an exposure. -/
def checkGrant (lease : LeaseRow) (now : Time) (context : ResolveContext) :
    Option GrantRow → Except SecretError GrantRow
  | none => .error .handleRevoked
  | some grant =>
    if grant.revokedAt.isSome then .error .handleRevoked
    else if lease.expiresAt ≤ now ∨ grant.expiresAt ≤ now then .error .leaseExpired
    else if lease.singleUse ∧ 0 < lease.useCount then .error .handleUsed
    else
      match scopeMismatch lease context with
      | some .sidecarInstance => .error .handleHostMismatch
      | some _ => .error .scopeDenied
      | none => .ok grant

/-- `exposure_approved`, given the approvals. -/
def exposureApproved (approvals : List ApprovalRow) (grant : GrantRow) (now : Time) : Bool :=
  match grant.exposureAllowed, grant.exposureApprovalId with
  | true, some approvalId =>
    match approvals.find? (·.approvalId = approvalId) with
    | none => false
    | some row => row.status = "APPROVED" ∧ now < row.expiresAt
  | _, _ => false

/-- The check of a resolve that hands the value to a language model. -/
def checkExposure (approvals : List ApprovalRow) (purpose : String) (grant : GrantRow)
    (now : Time) : Except SecretError Unit :=
  if purpose = "llm_context" ∧ exposureApproved approvals grant now = false then
    .error .exposureApprovalRequired
  else .ok ()

variable {lease : LeaseRow}

theorem checkLease_ok {workspaceId : String} {row : Option LeaseRow}
    (h : checkLease workspaceId row = .ok lease) :
    row = some lease ∧ lease.workspaceId = workspaceId ∧ lease.revokedAt = none := by
  unfold checkLease at h
  split at h
  · cases h
  · split_ifs at h with hw hr
    obtain rfl := Except.ok.inj h
    exact ⟨rfl, not_not.1 hw, by simpa using hr⟩

theorem checkGrant_ok {now : Time} {context : ResolveContext} {row : Option GrantRow}
    {grant : GrantRow} (h : checkGrant lease now context row = .ok grant) :
    row = some grant ∧ grant.revokedAt = none ∧ now < lease.expiresAt ∧
      ¬(lease.singleUse = true ∧ 0 < lease.useCount) ∧ scopeMismatch lease context = none := by
  unfold checkGrant at h
  split at h
  · cases h
  · split_ifs at h with hr he hu
    split at h
    · cases h
    · cases h
    · rename_i hscope
      obtain rfl := Except.ok.inj h
      exact ⟨rfl, by simpa using hr, Int.not_le.1 fun hle ↦ he (.inl hle), hu, hscope⟩

end AgentColab.Secrets
