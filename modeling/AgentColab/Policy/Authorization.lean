import AgentColab.Policy.Engine

/-!
# Server-side authorization

An account is authorized for an action by its committed role assignments: the Roles that are in
their window, at their current versions, are given to the policy engine; then come the capability,
the membership in the channel, and the risk of the action.
-/

namespace AgentColab.Policy

open Approvals (Risk)

/-! ## The catalog -/

/-- What approval a class of actions needs by default. -/
inductive Approval where
  | none
  | channelPolicy
  | human1
  | human2
deriving DecidableEq

structure ActionClass where
  risk : Risk
  approval : Approval

/-- An action: its class and the permission that it needs. -/
structure ActionSpec where
  actionClass : String
  permission : String

structure Catalog where
  vocabulary : List String
  actionClasses : List (String × ActionClass)
  actions : List (String × ActionSpec)
  unclassifiedDefault : Risk
  humanOnlyFrom : Risk

structure RiskDecision where
  action : String
  actionClass : String
  risk : Risk
  approval : Approval
  unclassified : Bool

namespace Catalog

/-- `risk_for`. The class of a listed action is listed itself, which the loader checks. -/
def riskFor (c : Catalog) (action : String) (sideEffect : Bool) : RiskDecision :=
  match c.actions.lookup action with
  | none => ⟨action, "unclassified", c.unclassifiedDefault, .human1, true⟩
  | some spec =>
    let cls := (c.actionClasses.lookup spec.actionClass).getD ⟨c.unclassifiedDefault, .human1⟩
    if sideEffect ∧ cls.risk.index < Risk.medium.index then
      ⟨action, spec.actionClass, .medium, .channelPolicy, false⟩
    else ⟨action, spec.actionClass, cls.risk, cls.approval, false⟩

/-- `human_only` -/
def humanOnly (c : Catalog) (risk : Risk) : Bool := c.humanOnlyFrom.index ≤ risk.index

end Catalog

/-! ## Committed policy state -/

structure PrincipalInfo where
  accountId : String
  accountUuid : String
  workspaceUuid : String
  accountType : String
  status : String
  agentId : Option String

/-- A row of `principal_role_assignments`. -/
structure Assignment where
  accountUuid : String
  roleId : String
  validFrom : Time
  validTo : Option Time
  revokedAt : Option Time
deriving DecidableEq

/-- A row of `roles`. -/
structure RoleRow where
  roleId : String
  currentVersion : ℕ
  status : String

/-- A row of `role_versions`, with the constraints as their keys are found. -/
structure RoleVersion where
  roleId : String
  version : ℕ
  permissions : List String
  deny : List String
  domains : Option (List String)
  sideEffects : Option String
  requiresHumanApproval : Option (List String)
  channels : Option (List String)
  resources : Option (List String)
  maxRisk : Option Risk

/-- A row of `channel_members`, with both ids of its channel. -/
structure ChannelMember where
  accountUuid : String
  status : String
  channelId : String
  channelUuid : String

structure PolicyTables where
  accounts : List PrincipalInfo
  assignments : List Assignment
  roles : List RoleRow
  versions : List RoleVersion
  /-- `agent_capabilities`, by Agent. -/
  capabilities : List (String × String)
  members : List ChannelMember
  uniqueRoles : (roles.map (·.roleId)).Nodup
  uniqueVersions : (versions.map fun v ↦ (v.roleId, v.version)).Nodup

/-- `role_from_version` -/
def roleFromVersion (v : RoleVersion) (status : String) : Role where
  roleId := v.roleId
  version := v.version
  permissions := v.permissions
  deny := v.deny
  constraints :=
    { domains := v.domains
      sideEffects := v.sideEffects.getD "allow"
      requiresHumanApproval := v.requiresHumanApproval.getD []
      channels := v.channels
      resources := v.resources
      maxRisk := v.maxRisk.getD .critical }
  status := status

/-- The assignment is of the account, in its window and not revoked. -/
def Assignment.inWindow (a : Assignment) (accountUuid : String) (now : Time) : Bool :=
  a.accountUuid = accountUuid ∧ a.revokedAt = none ∧ a.validFrom ≤ now ∧
    a.validTo.all fun validTo ↦ now < validTo

/-- The Roles of one assignment: its active role at the current version. -/
def PolicyTables.rolesOf (t : PolicyTables) (a : Assignment) : List Role :=
  (t.roles.filter fun r ↦
      r.roleId = a.roleId ∧ r.status = "active" ∧ 0 < r.currentVersion).flatMap fun r ↦
    (t.versions.filter fun v ↦ v.roleId = r.roleId ∧ v.version = r.currentVersion).map
      (roleFromVersion · r.status)

/-- What the authorizer reads. -/
structure PolicyRepository where
  principal : String → Option PrincipalInfo
  effectiveRoles : PrincipalInfo → Time → List Role
  capabilityIds : PrincipalInfo → List String
  isChannelMember : PrincipalInfo → String → Bool

/-- `PostgresPolicyRepository` -/
def postgresPolicyRepository (t : PolicyTables) : PolicyRepository where
  principal accountId := t.accounts.find? (·.accountId = accountId)
  effectiveRoles p now :=
    sortRoles ((t.assignments.filter (·.inWindow p.accountUuid now)).flatMap t.rolesOf)
  capabilityIds p :=
    match p.agentId with
    | none => []
    | some agentId => (t.capabilities.filter (·.1 = agentId)).map (·.2)
  isChannelMember p channelId := t.members.any fun m ↦
    m.accountUuid = p.accountUuid ∧ m.status = "active" ∧
      (m.channelId = channelId ∨ m.channelUuid = channelId)

/-! ## `Authorizer` -/

structure AuthorizationRequest where
  permission : String
  action : Option String := none
  domain : Option String := none
  channelId : Option String := none
  resource : Option String := none
  sideEffect : Bool := false
  requiredCapability : Option String := none

structure Authorization where
  allowed : Bool
  code : String
  risk : Risk
  actionClass : String
  approval : Approval
  approvalRequired : Bool
  humanOnly : Bool
  matchedRoles : List String

/-- `_classify` -/
def classify (c : Catalog) (request : AuthorizationRequest) : RiskDecision :=
  let candidates := ((c.actions.filter (·.2.permission = request.permission)).map
    (·.1)).insertionSort (· ≤ ·)
  let action := request.action.getD (candidates.head?.getD ("permission:" ++ request.permission))
  c.riskFor action request.sideEffect

/-- `_roles_cover_risk` -/
def rolesCoverRisk (roles : List Role) (matched : List String) (risk : Risk) : Bool :=
  roles.any fun role ↦ role.roleId ∈ matched && risk.index ≤ role.constraints.maxRisk.index

def AuthorizationRequest.actionRequest (request : AuthorizationRequest) : ActionRequest where
  permission := request.permission
  domain := request.domain
  sideEffect := request.sideEffect
  channelId := request.channelId
  resource := request.resource

/-- `_deny` -/
def denied (c : Catalog) (decision : RiskDecision) (code : String) (matched : List String) :
    Authorization :=
  ⟨false, code, decision.risk, decision.actionClass, decision.approval, false,
    c.humanOnly decision.risk, matched⟩

/-- The end of `authorize`, when nothing is denied. -/
def granted (c : Catalog) (class' : RiskDecision) (decision : PolicyDecision) : Authorization where
  allowed := true
  code := "ALLOW"
  risk := class'.risk
  actionClass := class'.actionClass
  approval :=
    if decision.requiresHumanApproval ∧ class'.approval = .none then .human1 else class'.approval
  approvalRequired := decision.requiresHumanApproval || class'.approval ∈ [.human1, .human2]
  humanOnly := c.humanOnly class'.risk || decision.requiresHumanApproval
  matchedRoles := decision.matchedRoles

/-- `authorize` -/
def authorize (repository : PolicyRepository) (c : Catalog) (now : Time) (accountId : String)
    (request : AuthorizationRequest) : Authorization :=
  let class' := classify c request
  match repository.principal accountId with
  | none => denied c class' "PRINCIPAL_UNKNOWN" []
  | some principal =>
    if principal.status ≠ "ACTIVE" then denied c class' "PRINCIPAL_INACTIVE" []
    else
      let roles := repository.effectiveRoles principal now
      let decision := evaluate (some c.vocabulary) roles request.actionRequest
      if decision.decision = .deny then denied c class' decision.reason decision.matchedRoles
      else if request.requiredCapability.any fun capability ↦
          capability ≠ "" ∧ capability ∉ repository.capabilityIds principal then
        denied c class' "CAPABILITY_MISSING" decision.matchedRoles
      else if request.channelId.any fun channelId ↦
          channelId ≠ "" ∧ !repository.isChannelMember principal channelId then
        denied c class' "CHANNEL_NOT_MEMBER" decision.matchedRoles
      else if !rolesCoverRisk roles decision.matchedRoles class'.risk then
        denied c class' "ROLE_MAX_RISK_EXCEEDED" decision.matchedRoles
      else granted c class' decision

end AgentColab.Policy
