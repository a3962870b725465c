import AgentColab.Approvals.Contract
import Mathlib.Data.List.Sort
import Mathlib.Data.String.Basic

/-!
# The policy engine

A Role is a set of permission patterns with patterns that deny and constraints. An explicit deny of
any active Role wins; otherwise a Role that grants the permission has to be in scope; otherwise the
request is denied (`evaluate_allow_iff`).
-/

namespace AgentColab.Policy

open Approvals (Risk)

/-! ## Model -/

inductive Decision where
  | allow
  | deny
deriving DecidableEq

inductive DenyReason where
  | defaultDeny
  | explicitDeny
  | scopeDomain
  | scopeSideEffect
  | scopeChannel
  | scopeResource
  | roleInactive
  | unknownPermission

def DenyReason.value : DenyReason → String
  | defaultDeny => "DEFAULT_DENY"
  | explicitDeny => "EXPLICIT_DENY"
  | scopeDomain => "SCOPE_DOMAIN"
  | scopeSideEffect => "SCOPE_SIDE_EFFECT"
  | scopeChannel => "SCOPE_CHANNEL"
  | scopeResource => "SCOPE_RESOURCE"
  | roleInactive => "ROLE_INACTIVE"
  | unknownPermission => "UNKNOWN_PERMISSION"

/-- Where there is no list, nothing is restricted. -/
structure Constraints where
  domains : Option (List String) := none
  sideEffects : String := "allow"
  requiresHumanApproval : List String := []
  channels : Option (List String) := none
  resources : Option (List String) := none
  maxRisk : Risk := .critical
deriving DecidableEq

structure Role where
  roleId : String
  version : ℕ
  permissions : List String
  deny : List String := []
  constraints : Constraints := {}
  status : String := "active"
deriving DecidableEq

structure ActionRequest where
  permission : String
  domain : Option String := none
  sideEffect : Bool := false
  channelId : Option String := none
  resource : Option String := none

structure PolicyDecision where
  decision : Decision
  reason : String
  matchedRoles : List String := []
  requiresHumanApproval : Bool := false

/-- `permission_matches`: `task.*` matches `task.create`, `*` matches everything, and any other
pattern only itself. -/
def permissionMatches (pattern permission : String) : Bool :=
  if pattern = "*" then true
  else if ['.', '*'] <:+ pattern.toList then pattern.toList.dropLast <+: permission.toList
  else pattern = permission

/-! ## Evaluation -/

def Role.denies (role : Role) (permission : String) : Bool :=
  role.deny.any (permissionMatches · permission)

def Role.grants (role : Role) (permission : String) : Bool :=
  role.permissions.any (permissionMatches · permission)

/-- `needs_human`, for one Role. -/
def Role.demandsHuman (role : Role) (permission : String) : Bool :=
  permission ∈ role.constraints.requiresHumanApproval ||
    role.constraints.requiresHumanApproval.any (permissionMatches · permission)

/-- A constraint that lists what is allowed excludes everything else, and a request without the
value. -/
def excludes (allowed : Option (List String)) (value : Option String) : Bool :=
  allowed.any fun list ↦ value.all (· ∉ list)

/-- `_scope_violation` -/
def scopeViolation (role : Role) (request : ActionRequest) : Option DenyReason :=
  let c := role.constraints
  if excludes c.domains request.domain then some .scopeDomain
  else if c.sideEffects = "deny" ∧ request.sideEffect then some .scopeSideEffect
  else if excludes c.channels request.channelId then some .scopeChannel
  else if excludes c.resources request.resource then some .scopeResource
  else none

/-- `sorted(roles, key=lambda r: r.role_id)` -/
def sortRoles (roles : List Role) : List Role := roles.insertionSort fun a b ↦ a.roleId ≤ b.roleId

/-- `PolicyEngine.evaluate` -/
def evaluate (vocabulary : Option (List String)) (roles : List Role) (request : ActionRequest) :
    PolicyDecision :=
  if vocabulary.any (request.permission ∉ ·) then
    { decision := .deny, reason := DenyReason.unknownPermission.value }
  else
    let active := sortRoles (roles.filter (·.status = "active"))
    match active.find? (·.denies request.permission) with
    | some role => { decision := .deny, reason := DenyReason.explicitDeny.value,
                     matchedRoles := [role.roleId] }
    | none =>
      let granting := active.filter (·.grants request.permission)
      if granting.isEmpty then { decision := .deny, reason := DenyReason.defaultDeny.value }
      else
        let inScope := granting.filter fun r ↦ (scopeViolation r request).isNone
        if inScope.isEmpty then
          { decision := .deny
            reason := ((granting.findSome? (scopeViolation · request)).getD .scopeResource).value
            matchedRoles := granting.map (·.roleId) }
        else
          { decision := .allow
            reason := "ALLOW"
            matchedRoles := inScope.map (·.roleId)
            requiresHumanApproval := inScope.any (·.demandsHuman request.permission) }

/-! ## What is decided -/

/-- An active Role that grants the permission, with every scope constraint satisfied. -/
structure Applicable (roles : List Role) (request : ActionRequest) (role : Role) : Prop where
  mem : role ∈ roles
  active : role.status = "active"
  grants : role.grants request.permission
  inScope : scopeViolation role request = none

def Undenied (roles : List Role) (permission : String) : Prop :=
  ∀ r ∈ roles, r.status = "active" → r.denies permission = false

/-- The Roles that allow a request. -/
def inScope (roles : List Role) (request : ActionRequest) : List Role :=
  ((sortRoles (roles.filter (·.status = "active"))).filter (·.grants request.permission)).filter
    fun r ↦ (scopeViolation r request).isNone

variable {vocabulary : Option (List String)} {roles : List Role} {request : ActionRequest}

variable {r : Role}

theorem mem_sortRoles : r ∈ sortRoles roles ↔ r ∈ roles := (List.perm_insertionSort _ _).mem_iff

theorem mem_inScope : r ∈ inScope roles request ↔ Applicable roles request r := by
  simp only [inScope, List.mem_filter, mem_sortRoles, decide_eq_true_eq, Option.isNone_iff_eq_none]
  constructor
  · rintro ⟨⟨⟨hmem, hactive⟩, hgrants⟩, hscope⟩
    exact ⟨hmem, hactive, hgrants, hscope⟩
  · rintro ⟨hmem, hactive, hgrants, hscope⟩
    exact ⟨⟨⟨hmem, hactive⟩, hgrants⟩, hscope⟩

theorem find?_denies_eq_none :
    (sortRoles (roles.filter (·.status = "active"))).find? (·.denies request.permission) = none ↔
      Undenied roles request.permission := by
  simp only [List.find?_eq_none, mem_sortRoles, List.mem_filter, decide_eq_true_eq, and_imp,
    Bool.not_eq_true, Undenied]

theorem evaluate_of_inScope (hv : vocabulary.any (request.permission ∉ ·) = false)
    (hdeny : Undenied roles request.permission) (hscope : inScope roles request ≠ []) :
    evaluate vocabulary roles request =
      { decision := .allow
        reason := "ALLOW"
        matchedRoles := (inScope roles request).map (·.roleId)
        requiresHumanApproval :=
          (inScope roles request).any (·.demandsHuman request.permission) } := by
  have hgranting : ¬((sortRoles (roles.filter (·.status = "active"))).filter
      (·.grants request.permission)).isEmpty := by
    rw [List.isEmpty_iff]
    intro hnil
    rw [inScope, hnil] at hscope
    exact hscope rfl
  have hscope' : ¬(inScope roles request).isEmpty := by rwa [List.isEmpty_iff]
  rw [evaluate, hv, if_neg Bool.false_ne_true]
  dsimp only
  rw [find?_denies_eq_none.2 hdeny]
  dsimp only
  rw [if_neg hgranting]
  exact if_neg hscope'

theorem evaluate_of_not_inScope (h : inScope roles request = []) :
    (evaluate vocabulary roles request).decision = .deny := by
  unfold evaluate
  split_ifs
  · rfl
  dsimp only
  split
  · rfl
  split_ifs with _ hempty
  · rfl
  · rfl
  · exact absurd (List.isEmpty_iff.2 h) hempty

theorem evaluate_allow_iff : (evaluate vocabulary roles request).decision = .allow ↔
      (∀ v ∈ vocabulary, request.permission ∈ v) ∧ Undenied roles request.permission ∧
        ∃ r, Applicable roles request r := by
  have hvocabulary : vocabulary.any (request.permission ∉ ·) = false ↔
      ∀ v ∈ vocabulary, request.permission ∈ v := by
    cases vocabulary <;> simp
  rw [← hvocabulary]
  constructor
  · intro h
    refine ⟨?_, ?_, ?_⟩
    · by_contra hv
      rw [evaluate, if_pos (by simpa using hv)] at h
      cases h
    · refine find?_denies_eq_none.1 (Option.eq_none_iff_forall_ne_some.2 fun role hfind ↦ ?_)
      unfold evaluate at h
      split_ifs at h
      dsimp only at h
      rw [hfind] at h
      cases h
    · by_contra hnone
      have hempty : inScope roles request = [] :=
        List.eq_nil_iff_forall_not_mem.2 fun r hr ↦ hnone ⟨r, mem_inScope.1 hr⟩
      rw [evaluate_of_not_inScope hempty] at h
      cases h
  · rintro ⟨hv, hdeny, r, hr⟩
    rw [evaluate_of_inScope hv hdeny (List.ne_nil_of_mem (mem_inScope.2 hr))]

/-- What an allowed request matches: the Roles that apply, and whether one of them demands a
human. -/
theorem evaluate_matched (h : (evaluate vocabulary roles request).decision = .allow) :
    (∀ id, id ∈ (evaluate vocabulary roles request).matchedRoles ↔
        ∃ r, Applicable roles request r ∧ r.roleId = id) ∧
      ((evaluate vocabulary roles request).requiresHumanApproval ↔
        ∃ r, Applicable roles request r ∧ r.demandsHuman request.permission) := by
  obtain ⟨hv, hdeny, r, hr⟩ := evaluate_allow_iff.1 h
  have hv' : vocabulary.any (request.permission ∉ ·) = false := by
    cases vocabulary with
    | none => rfl
    | some v => simpa using hv v rfl
  rw [evaluate_of_inScope hv' hdeny (List.ne_nil_of_mem (mem_inScope.2 hr))]
  simp only [List.mem_map, List.any_eq_true, mem_inScope, implies_true, true_and]

end AgentColab.Policy
