import AgentColab.Domain.Computation
import AgentColab.Policy.Authorization

/-!
# What authorization decides

A request is allowed when its principal is active, the permission is in the vocabulary, no Role in
force denies it, the capability and the membership are there, and one single Role in force grants
the permission, is in scope and covers the risk (`authorize_allowed_iff`). No order of rows matters;
more patterns that deny, and fewer Roles that do not, allow less.
-/

namespace AgentColab.Policy

open List

/-! ## Roles in force -/

/-- The account has the Role now: by an assignment in its window, of an active role, at its current
version. -/
def InForce (t : PolicyTables) (accountUuid : String) (now : Time) (role : Role) : Prop :=
  ∃ a ∈ t.assignments, a.inWindow accountUuid now ∧ role ∈ t.rolesOf a

variable {t : PolicyTables} {role : Role} {now : Time} {accountUuid : String}

theorem mem_rolesOf {a : Assignment} : role ∈ t.rolesOf a ↔ ∃ r ∈ t.roles, ∃ v ∈ t.versions,
      (r.roleId = a.roleId ∧ r.status = "active" ∧ 0 < r.currentVersion) ∧
        (v.roleId = r.roleId ∧ v.version = r.currentVersion) ∧
          roleFromVersion v r.status = role := by
  simp only [PolicyTables.rolesOf, mem_flatMap, mem_filter, List.mem_map, decide_eq_true_eq]
  constructor
  · rintro ⟨r, ⟨hr, hactive⟩, v, ⟨hv, hversion⟩, hrole⟩
    exact ⟨r, hr, v, hv, hactive, hversion, hrole⟩
  · rintro ⟨r, hr, v, hv, hactive, hversion, hrole⟩
    exact ⟨r, ⟨hr, hactive⟩, v, ⟨hv, hversion⟩, hrole⟩

theorem mem_effectiveRoles {p : PrincipalInfo} :
    role ∈ (postgresPolicyRepository t).effectiveRoles p now ↔
      InForce t p.accountUuid now role := by
  simp only [postgresPolicyRepository, mem_sortRoles, mem_flatMap, mem_filter, InForce, and_assoc]

theorem InForce.active (h : InForce t accountUuid now role) : role.status = "active" := by
  obtain ⟨a, -, -, hrole⟩ := h
  obtain ⟨r, -, v, -, ⟨-, hactive, -⟩, -, rfl⟩ := mem_rolesOf.1 hrole
  exact hactive

theorem InForce.eq_of_roleId {role' : Role} (h : InForce t accountUuid now role)
    (h' : InForce t accountUuid now role') (heq : role.roleId = role'.roleId) : role = role' := by
  obtain ⟨a, -, -, hrole⟩ := h
  obtain ⟨a', -, -, hrole'⟩ := h'
  obtain ⟨r, hr, v, hv, -, ⟨hid, hversion⟩, rfl⟩ := mem_rolesOf.1 hrole
  obtain ⟨r', hr', v', hv', -, ⟨hid', hversion'⟩, rfl⟩ := mem_rolesOf.1 hrole'
  replace heq : v.roleId = v'.roleId := heq
  obtain rfl : r = r' := inj_on_of_nodup_map t.uniqueRoles hr hr' (hid.symm.trans (heq.trans hid'))
  obtain rfl : v = v' := inj_on_of_nodup_map t.uniqueVersions hv hv'
    (Prod.ext heq (hversion.trans hversion'.symm))
  rfl

/-! ## Scope -/

def Admits (allowed : Option (List String)) (value : Option String) : Prop :=
  ∀ list, allowed = some list → ∃ v, value = some v ∧ v ∈ list

/-- Every scope constraint of the Role is satisfied. -/
structure InScope (role : Role) (request : ActionRequest) : Prop where
  domain : Admits role.constraints.domains request.domain
  sideEffect : role.constraints.sideEffects = "deny" → request.sideEffect = false
  channel : Admits role.constraints.channels request.channelId
  resource : Admits role.constraints.resources request.resource

theorem excludes_eq_false_iff {allowed : Option (List String)} {value : Option String} :
    excludes allowed value = false ↔ Admits allowed value := by
  cases allowed <;> cases value <;> simp [excludes, Admits]

theorem scopeViolation_eq_none_iff {request : ActionRequest} :
    scopeViolation role request = none ↔ InScope role request := by
  unfold scopeViolation
  dsimp only
  constructor
  · intro h
    split_ifs at h with hdomain hside hchannel hresource
    refine ⟨excludes_eq_false_iff.1 (by simpa using hdomain), fun hdeny ↦ ?_,
      excludes_eq_false_iff.1 (by simpa using hchannel),
      excludes_eq_false_iff.1 (by simpa using hresource)⟩
    exact Bool.eq_false_iff.2 fun hrequest ↦ hside ⟨hdeny, hrequest⟩
  · rintro ⟨hdomain, hside, hchannel, hresource⟩
    rw [if_neg (by simp [excludes_eq_false_iff.2 hdomain]),
      if_neg (fun h ↦ Bool.false_ne_true ((hside h.1).symm.trans h.2)),
      if_neg (by simp [excludes_eq_false_iff.2 hchannel]),
      if_neg (by simp [excludes_eq_false_iff.2 hresource])]

/-! ## The decision -/

/-- A Role in force that grants the permission and is in scope. -/
def Applies (t : PolicyTables) (p : PrincipalInfo) (now : Time) (request : AuthorizationRequest)
    (role : Role) : Prop :=
  InForce t p.accountUuid now role ∧ role.grants request.permission ∧
    InScope role request.actionRequest

structure Eligible (t : PolicyTables) (c : Catalog) (accountId : String)
    (request : AuthorizationRequest) (p : PrincipalInfo) : Prop where
  principal : (postgresPolicyRepository t).principal accountId = some p
  active : p.status = "ACTIVE"
  known : request.permission ∈ c.vocabulary
  capability : ∀ capability, request.requiredCapability = some capability → capability ≠ "" →
    capability ∈ (postgresPolicyRepository t).capabilityIds p
  member : ∀ channelId, request.channelId = some channelId → channelId ≠ "" →
    (postgresPolicyRepository t).isChannelMember p channelId

/-- What a request needs of the Roles: none that is in force denies it, and a single one grants it,
is in scope and covers the risk. -/
def Permitted (t : PolicyTables) (c : Catalog) (now : Time) (request : AuthorizationRequest)
    (p : PrincipalInfo) : Prop :=
  (∀ r, InForce t p.accountUuid now r → r.denies request.permission = false) ∧
    ∃ r, Applies t p now request r ∧ (classify c request).risk.index ≤ r.constraints.maxRisk.index

section

variable {t t' : PolicyTables} {c : Catalog} {now : Time} {accountId : String}
  {request : AuthorizationRequest} {p : PrincipalInfo}

theorem applicable_iff {r : Role} :
    Applicable ((postgresPolicyRepository t).effectiveRoles p now) request.actionRequest r ↔
      Applies t p now request r := by
  constructor
  · rintro ⟨hmem, -, hgrants, hscope⟩
    exact ⟨mem_effectiveRoles.1 hmem, hgrants, scopeViolation_eq_none_iff.1 hscope⟩
  · rintro ⟨hforce, hgrants, hscope⟩
    exact ⟨mem_effectiveRoles.2 hforce, hforce.active, hgrants, scopeViolation_eq_none_iff.2 hscope⟩

theorem undenied_iff :
    Undenied ((postgresPolicyRepository t).effectiveRoles p now) request.permission ↔
      ∀ r, InForce t p.accountUuid now r → r.denies request.permission = false := by
  constructor
  · exact fun h r hr ↦ h r (mem_effectiveRoles.2 hr) hr.active
  · exact fun h r hr _ ↦ h r (mem_effectiveRoles.1 hr)

theorem rolesCoverRisk_iff {matched : List String} {risk : Approvals.Risk}
    (hmatched : ∀ id, id ∈ matched ↔ ∃ r, Applies t p now request r ∧ r.roleId = id) :
    rolesCoverRisk ((postgresPolicyRepository t).effectiveRoles p now) matched risk ↔
      ∃ r, Applies t p now request r ∧ risk.index ≤ r.constraints.maxRisk.index := by
  simp only [rolesCoverRisk, List.any_eq_true, Bool.and_eq_true, decide_eq_true_eq,
    mem_effectiveRoles, hmatched]
  constructor
  · rintro ⟨r, hforce, ⟨r', happlies, hid⟩, hrisk⟩
    obtain rfl := happlies.1.eq_of_roleId hforce hid
    exact ⟨r', happlies, hrisk⟩
  · rintro ⟨r, happlies, hrisk⟩
    exact ⟨r, happlies.1, ⟨r, happlies, rfl⟩, hrisk⟩

/-- The engine allows a known permission that no Role in force denies and that some Role grants in
scope. -/
theorem evaluate_iff :
    (evaluate (some c.vocabulary) ((postgresPolicyRepository t).effectiveRoles p now)
        request.actionRequest).decision = .allow ↔ request.permission ∈ c.vocabulary ∧
        (∀ r, InForce t p.accountUuid now r → r.denies request.permission = false) ∧
          ∃ r, Applies t p now request r := by
  rw [evaluate_allow_iff]
  refine and_congr ?_ (and_congr undenied_iff (exists_congr fun r ↦ applicable_iff))
  simp [AuthorizationRequest.actionRequest]

theorem authorize_of_allowed
    (h : (authorize (postgresPolicyRepository t) c now accountId request).allowed) :
    ∃ p, Eligible t c accountId request p ∧ Permitted t c now request p ∧
      ((authorize (postgresPolicyRepository t) c now accountId request).approvalRequired ↔
        (∃ r, Applies t p now request r ∧ r.demandsHuman request.permission) ∨
          (classify c request).approval ∈ [Approval.human1, .human2]) := by
  unfold authorize at h ⊢
  cases hp : (postgresPolicyRepository t).principal accountId with
  | none =>
    rw [hp] at h
    cases h
  | some p =>
    rw [hp] at h
    dsimp only at h ⊢
    split_ifs at h with hactive hdeny hcapability hmember hrisk
    · cases h
    · cases h
    · cases h
    · cases h
    · cases h
    · rw [if_neg hactive, if_neg hdeny, if_neg hcapability, if_neg hmember, if_neg hrisk]
      have hallow : (evaluate (some c.vocabulary)
          ((postgresPolicyRepository t).effectiveRoles p now) request.actionRequest).decision =
            .allow := by
        cases hdecision : (evaluate (some c.vocabulary)
          ((postgresPolicyRepository t).effectiveRoles p now) request.actionRequest).decision with
        | allow => rfl
        | deny => exact absurd hdecision hdeny
      obtain ⟨hknown, hundenied, -⟩ := evaluate_iff.1 hallow
      obtain ⟨hmatched, hhuman⟩ := evaluate_matched hallow
      simp only [applicable_iff] at hmatched hhuman
      rw [Bool.not_eq_true', Bool.not_eq_false, rolesCoverRisk_iff hmatched] at hrisk
      refine ⟨p, ⟨hp, not_not.1 hactive, hknown, ?_, ?_⟩, ⟨hundenied, hrisk⟩, ?_⟩
      · intro capability hrequired hne
        simp only [hrequired, Option.any_some, decide_eq_true_eq, not_and, not_not] at hcapability
        exact hcapability hne
      · intro channelId hrequired hne
        simp only [hrequired, Option.any_some, decide_eq_true_eq, not_and, Bool.not_eq_true',
          Bool.not_eq_false] at hmember
        exact hmember hne
      · rw [granted, Bool.or_eq_true, hhuman, decide_eq_true_eq]
        rfl

theorem authorize_of_permitted (he : Eligible t c accountId request p)
    (hp : Permitted t c now request p) :
    (authorize (postgresPolicyRepository t) c now accountId request).allowed := by
  obtain ⟨hundenied, r, happlies, hrisk⟩ := hp
  have hallow := evaluate_iff.2 ⟨he.known, hundenied, r, happlies⟩
  obtain ⟨hmatched, -⟩ := evaluate_matched hallow
  simp only [applicable_iff] at hmatched
  have hcover := (rolesCoverRisk_iff hmatched).2 ⟨r, happlies, hrisk⟩
  unfold authorize
  rw [he.principal]
  dsimp only
  rw [if_neg (not_not.2 he.active), if_neg (by rw [hallow]; decide), if_neg, if_neg,
    if_neg (by rw [hcover]; decide)]
  · rfl
  · intro hnot
    obtain ⟨channelId, hrequired, hnot⟩ := (Option.any_eq_true _ _).1 hnot
    obtain ⟨hne, hnot⟩ := of_decide_eq_true hnot
    rw [he.member channelId hrequired hne] at hnot
    cases hnot
  · intro hnot
    obtain ⟨capability, hrequired, hnot⟩ := (Option.any_eq_true _ _).1 hnot
    obtain ⟨hne, hnot⟩ := of_decide_eq_true hnot
    exact hnot (he.capability capability hrequired hne)

theorem authorize_allowed_iff :
    (authorize (postgresPolicyRepository t) c now accountId request).allowed ↔
      ∃ p, Eligible t c accountId request p ∧ Permitted t c now request p := by
  constructor
  · intro h
    obtain ⟨p, he, hp, -⟩ := authorize_of_allowed h
    exact ⟨p, he, hp⟩
  · rintro ⟨p, he, hp⟩
    exact authorize_of_permitted he hp

end

/-! ## Other orders, other patterns, fewer bindings -/

structure Reordered (t t' : PolicyTables) : Prop where
  accounts : t'.accounts = t.accounts
  capabilities : t'.capabilities = t.capabilities
  members : t'.members = t.members
  assignments : t'.assignments.Perm t.assignments
  roles : t'.roles.Perm t.roles
  versions : t'.versions.Perm t.versions

/-- A version with at least the patterns that deny. -/
def RoleVersion.DeniesMore (v v' : RoleVersion) : Prop :=
  v.deny ⊆ v'.deny ∧ v' = { v with deny := v'.deny }

structure DenyAdded (t t' : PolicyTables) : Prop where
  accounts : t'.accounts = t.accounts
  capabilities : t'.capabilities = t.capabilities
  members : t'.members = t.members
  assignments : t'.assignments = t.assignments
  roles : t'.roles = t.roles
  versions : List.Forall₂ RoleVersion.DeniesMore t.versions t'.versions

structure Removed (t t' : PolicyTables) : Prop where
  accounts : t'.accounts = t.accounts
  capabilities : t'.capabilities = t.capabilities
  members : t'.members = t.members
  assignments : t'.assignments ⊆ t.assignments
  roles : t'.roles = t.roles
  versions : t'.versions = t.versions

/-- No Role of a removed assignment denies the permission. -/
def Harmless (t t' : PolicyTables) (permission : String) : Prop :=
  ∀ a ∈ t.assignments, a ∉ t'.assignments → ∀ r ∈ t.rolesOf a, r.denies permission = false

section

variable {t t' : PolicyTables} {c : Catalog} {now : Time} {accountId : String}
  {request : AuthorizationRequest} {p : PrincipalInfo}

theorem Eligible.congr (h : Eligible t c accountId request p) (haccounts : t'.accounts = t.accounts)
    (hcapabilities : t'.capabilities = t.capabilities) (hmembers : t'.members = t.members) :
    Eligible t' c accountId request p := by
  obtain ⟨hprincipal, hactive, hknown, hcapability, hmember⟩ := h
  refine ⟨?_, hactive, hknown, ?_, ?_⟩
  · simpa only [postgresPolicyRepository, haccounts] using hprincipal
  · simpa only [postgresPolicyRepository, hcapabilities] using hcapability
  · simpa only [postgresPolicyRepository, hmembers] using hmember

variable {accountUuid : String} {role role' : Role}

theorem inForce_of_reordered (h : Reordered t t') :
    InForce t' accountUuid now role ↔ InForce t accountUuid now role := by
  simp only [InForce, mem_rolesOf, h.assignments.mem_iff, h.roles.mem_iff, h.versions.mem_iff]

theorem permitted_of_reordered (h : Reordered t t') :
    Permitted t' c now request p ↔ Permitted t c now request p := by
  simp only [Permitted, Applies, inForce_of_reordered h]

theorem inForce_of_denyAdded (h : DenyAdded t t') (hforce : InForce t accountUuid now role) :
    ∃ role', InForce t' accountUuid now role' ∧ role.deny ⊆ role'.deny ∧
      role' = { role with deny := role'.deny } := by
  obtain ⟨a, ha, hwindow, hrole⟩ := hforce
  obtain ⟨r, hr, v, hv, hactive, ⟨hid, hversion⟩, rfl⟩ := mem_rolesOf.1 hrole
  obtain ⟨v', hv', hdeny, heq⟩ := exists_of_mem_left h.versions v hv
  refine ⟨roleFromVersion v' r.status, ⟨a, h.assignments ▸ ha, hwindow, ?_⟩, hdeny, ?_⟩
  · refine mem_rolesOf.2 ⟨r, h.roles ▸ hr, v', hv', hactive, ?_, rfl⟩
    rw [heq]
    exact ⟨hid, hversion⟩
  · rw [heq]
    rfl

theorem inForce_before_denyAdded (h : DenyAdded t t') (hforce : InForce t' accountUuid now role') :
    ∃ role, InForce t accountUuid now role ∧ role' = { role with deny := role'.deny } := by
  obtain ⟨a, ha, hwindow, hrole⟩ := hforce
  obtain ⟨r, hr, v', hv', hactive, hversion, rfl⟩ := mem_rolesOf.1 hrole
  obtain ⟨v, hv, hdeny, heq⟩ := exists_of_mem_left h.versions.flip v' hv'
  refine ⟨roleFromVersion v r.status, ⟨a, h.assignments ▸ ha, hwindow, ?_⟩, ?_⟩
  · rw [heq] at hversion
    exact mem_rolesOf.2 ⟨r, h.roles ▸ hr, v, hv, hactive, hversion, rfl⟩
  · rw [heq]
    rfl

theorem denies_of_subset {permission : String} (h : role.deny ⊆ role'.deny)
    (hnot : role'.denies permission = false) : role.denies permission = false := by
  rw [Role.denies, List.any_eq_false] at hnot ⊢
  exact fun pattern hpattern ↦ hnot pattern (h hpattern)

theorem permitted_before_denyAdded (h : DenyAdded t t') (hp : Permitted t' c now request p) :
    Permitted t c now request p := by
  obtain ⟨hundenied, role', ⟨hforce, hgrants, hscope⟩, hrisk⟩ := hp
  refine ⟨fun r hr ↦ ?_, ?_⟩
  · obtain ⟨r', hr', hdeny, -⟩ := inForce_of_denyAdded h hr
    exact denies_of_subset hdeny (hundenied r' hr')
  · obtain ⟨role, hforce', heq⟩ := inForce_before_denyAdded h hforce
    rw [heq] at hgrants hscope hrisk
    exact ⟨role, ⟨hforce', hgrants, ⟨hscope.domain, hscope.sideEffect, hscope.channel,
      hscope.resource⟩⟩, hrisk⟩

theorem mem_rolesOf_of_removed (h : Removed t t') {a : Assignment} :
    role ∈ t'.rolesOf a ↔ role ∈ t.rolesOf a := by
  rw [mem_rolesOf, mem_rolesOf, h.roles, h.versions]

theorem permitted_before_removed (h : Removed t t') (hharmless : Harmless t t' request.permission)
    (hp : Permitted t' c now request p) : Permitted t c now request p := by
  obtain ⟨hundenied, role, ⟨⟨a, ha, hwindow, hrole⟩, hgrants, hscope⟩, hrisk⟩ := hp
  refine ⟨?_, role, ⟨⟨a, h.assignments ha, hwindow, (mem_rolesOf_of_removed h).1 hrole⟩, hgrants,
    hscope⟩, hrisk⟩
  rintro r ⟨b, hb, hbwindow, hr⟩
  by_cases hkept : b ∈ t'.assignments
  · exact hundenied r ⟨b, hkept, hbwindow, (mem_rolesOf_of_removed h).2 hr⟩
  · exact hharmless b hb hkept r hr

/-- **Authorization is the documented combination.** A request is allowed when its principal is
eligible and its Roles permit it; no order of the rows matters; more patterns that deny, or fewer
Roles that do not deny, never allow what was denied; and an allowed request needs human approval
when a Role that applies demands it, or its class of actions has it by default. -/
theorem authorize_decides (t : PolicyTables) (c : Catalog) (now : Time) (accountId : String)
    (request : AuthorizationRequest) :
    ((authorize (postgresPolicyRepository t) c now accountId request).allowed ↔
      ∃ p, Eligible t c accountId request p ∧ Permitted t c now request p) ∧ (∀ t', Reordered t t' →
      (authorize (postgresPolicyRepository t') c now accountId request).allowed =
        (authorize (postgresPolicyRepository t) c now accountId request).allowed) ∧
    (∀ t', DenyAdded t t' ∨ Removed t t' ∧ Harmless t t' request.permission →
      (authorize (postgresPolicyRepository t) c now accountId request).allowed = false →
        (authorize (postgresPolicyRepository t') c now accountId request).allowed = false) ∧
    ((authorize (postgresPolicyRepository t) c now accountId request).allowed →
      ∃ p, (postgresPolicyRepository t).principal accountId = some p ∧
        ((authorize (postgresPolicyRepository t) c now accountId request).approvalRequired ↔
          (∃ r, Applies t p now request r ∧ r.demandsHuman request.permission) ∨
            (classify c request).approval ∈ [Approval.human1, .human2])) := by
  refine ⟨authorize_allowed_iff, fun t' h ↦ ?_, fun t' h hnot ↦ ?_, fun h ↦ ?_⟩
  · rw [Bool.eq_iff_iff, authorize_allowed_iff, authorize_allowed_iff]
    refine exists_congr fun p ↦ and_congr ⟨fun he ↦ ?_, fun he ↦ ?_⟩ (permitted_of_reordered h)
    · exact he.congr h.accounts.symm h.capabilities.symm h.members.symm
    · exact he.congr h.accounts h.capabilities h.members
  · rw [Bool.eq_false_iff, ne_eq, authorize_allowed_iff] at hnot ⊢
    rintro ⟨p, he, hp⟩
    rcases h with h | ⟨h, hharmless⟩
    · exact hnot ⟨p, he.congr h.accounts.symm h.capabilities.symm h.members.symm,
        permitted_before_denyAdded h hp⟩
    · exact hnot ⟨p, he.congr h.accounts.symm h.capabilities.symm h.members.symm,
        permitted_before_removed h hharmless hp⟩
  · obtain ⟨p, he, -, happroval⟩ := authorize_of_allowed h
    exact ⟨p, he.principal, happroval⟩

end

/-! ## Sample tables -/

namespace Sample

def version (roleId : String) (permissions deny : List String) : RoleVersion :=
  ⟨roleId, 1, permissions, deny, none, none, none, none, none, none⟩

def assignment (roleId : String) : Assignment := ⟨"uuid-ann", roleId, 0, none, none⟩

/-- Ann has a role that grants and one that denies, and is a member of no channel. -/
def tables : PolicyTables where
  accounts := [⟨"ann", "uuid-ann", "uuid-ws", "human", "ACTIVE", none⟩]
  assignments := [assignment "role-worker", assignment "role-blocked"]
  roles := [⟨"role-worker", 1, "active"⟩, ⟨"role-blocked", 1, "active"⟩]
  versions := [version "role-worker" ["task.*"] [], version "role-blocked" [] ["task.create"]]
  capabilities := []
  members := []
  uniqueRoles := by decide
  uniqueVersions := by decide

def unblocked : PolicyTables := { tables with assignments := [assignment "role-worker"] }

def catalog : Catalog where
  vocabulary := ["task.create"]
  actionClasses := [("destructive", ⟨.high, .human1⟩)]
  actions := [("tool:task_wipe", ⟨"destructive", "task.create"⟩)]
  unclassifiedDefault := .high
  humanOnlyFrom := .high

def ann : PrincipalInfo := ⟨"ann", "uuid-ann", "uuid-ws", "human", "ACTIVE", none⟩

def allowed (t : PolicyTables) (request : AuthorizationRequest) : Bool :=
  (authorize (postgresPolicyRepository t) catalog 1 "ann" request).allowed

def create : AuthorizationRequest := { permission := "task.create" }

/-- Requests that the role of Ann permits, for a capability, a channel and a permission that are not
there. -/
def restricted : List AuthorizationRequest :=
  [{ permission := "task.create", requiredCapability := some "cap-shell" },
    { permission := "task.create", channelId := some "general" }, { permission := "task.purge" }]

def suspended : PolicyTables := { unblocked with accounts := [{ ann with status := "SUSPENDED" }] }

theorem removed : Removed tables unblocked :=
  ⟨rfl, rfl, rfl, fun _ ha ↦ mem_cons.2 (.inl (mem_singleton.1 ha)), rfl, rfl⟩

def worker : Role := roleFromVersion (version "role-worker" ["task.*"] []) "active"

variable {t : PolicyTables}

theorem inForce_worker (ht : (postgresPolicyRepository t).effectiveRoles ann 1 = [worker])
    {r : Role} : InForce t ann.accountUuid 1 r ↔ r = worker := by
  rw [← mem_effectiveRoles (p := ann), ht, mem_singleton]

theorem permitted_worker {request : AuthorizationRequest}
    (ht : (postgresPolicyRepository t).effectiveRoles ann 1 = [worker])
    (hgrants : worker.grants request.permission) : Permitted t catalog 1 request ann := by
  refine ⟨fun r hr ↦ ?_, worker, ⟨(inForce_worker ht).2 rfl, hgrants, ⟨?_, ?_, ?_, ?_⟩⟩, ?_⟩
  · rw [(inForce_worker ht).1 hr]
    rfl
  · rintro _ ⟨⟩
  · exact fun h ↦ absurd h (by decide)
  · rintro _ ⟨⟩
  · rintro _ ⟨⟩
  · cases (classify catalog request).risk <;> decide

end Sample

open Sample

/-- Removing a role that denies allows what was denied; a request that the Roles permit can be
denied for a capability, a channel, the vocabulary or the status of its principal; and an approval
can be required that no Role demands. -/
theorem combination_not_exact : (¬∀ t t' c now accountId request, Removed t t' →
      (authorize (postgresPolicyRepository t) c now accountId request).allowed = false →
        (authorize (postgresPolicyRepository t') c now accountId request).allowed = false) ∧
    (∀ request ∈ restricted, Permitted unblocked catalog 1 request Sample.ann ∧
      allowed unblocked request = false) ∧
    (Permitted suspended catalog 1 create Sample.ann ∧ allowed suspended create = false) ∧
    ¬∀ t c now accountId request p,
      (authorize (postgresPolicyRepository t) c now accountId request).allowed →
      ((authorize (postgresPolicyRepository t) c now accountId request).approvalRequired ↔
        ∃ r, Applies t p now request r ∧ r.demandsHuman request.permission) := by
  have hroles : (postgresPolicyRepository unblocked).effectiveRoles Sample.ann 1 =
      [worker] := by decide +kernel
  refine ⟨fun h ↦ ?_, ?_, ⟨permitted_worker hroles (by decide +kernel), by decide +kernel⟩,
    fun h ↦ ?_⟩
  · have hdenied := h _ _ catalog 1 "ann" create removed (by decide +kernel)
    revert hdenied
    decide +kernel
  · simp only [restricted, mem_cons, not_mem_nil, or_false, forall_eq_or_imp, forall_eq]
    exact ⟨⟨permitted_worker hroles (by decide +kernel), by decide +kernel⟩,
      ⟨permitted_worker hroles (by decide +kernel), by decide +kernel⟩,
      ⟨permitted_worker hroles (by decide +kernel), by decide +kernel⟩⟩
  · have hiff := h unblocked catalog 1 "ann"
      { permission := "task.create", action := some "tool:task_wipe" } Sample.ann
      (by decide +kernel)
    obtain ⟨r, hr, hdemands⟩ := hiff.1 (by decide +kernel)
    rw [(inForce_worker hroles).1 hr.1] at hdemands
    revert hdemands
    decide +kernel

end AgentColab.Policy
