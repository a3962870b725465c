import AgentColab.Secrets.Transactions

/-!
# A lease and its grant

The time to live and the single use of a grant are what a lease has by default: the caller of
`issue_lease` may ask for others, and the ceiling of a time to live is `MAX_TTL`. A lease may thus
outlast its grant, whose expiry is checked at each resolve.
-/

namespace AgentColab.Secrets

/-- `IssueSecretLease` -/
structure IssueSecretLease where
  secretRef : String
  taskId : Option String
  action : Option String
  workItemId : Option String
  sidecarInstanceId : Option String
  ttlSeconds : Option ℤ

/-- What `issue_secret_lease` calls `issue_lease` with, for the Agent of the caller. -/
def IssueSecretLease.request (cmd : IssueSecretLease) (workspaceId agentId : String) (now : Time)
    (leaseId : LeaseId) (handle : String) : IssueRequest where
  workspaceId := workspaceId
  secretRef := cmd.secretRef
  scope := ⟨agentId, cmd.taskId, cmd.action, cmd.workItemId, cmd.sidecarInstanceId⟩
  ttl := (cmd.ttlSeconds.filter (· ≠ 0)).map (· * 1000000)
  singleUse := none
  now := now
  grantId := none
  leaseId := leaseId
  handle := handle

/-- What a lease has of the grant under which a request has issued it. -/
structure GrantRow.Bounds (g : GrantRow) (q : IssueRequest) (l : LeaseRow) : Prop where
  agent : l.agentId = g.agentId
  task : ∀ t, g.taskId = some t → l.taskId = some t
  action : ∀ a, g.action = some a → l.action = some a
  positive : l.issuedAt < l.expiresAt
  ceiling : l.expiresAt ≤ l.issuedAt + World.maxTtl
  ttl : q.ttl = none ∨ q.ttl = some 0 → l.expiresAt = l.issuedAt + (g.ttlSeconds : ℤ) * 1000000
  singleUse : q.singleUse = none → l.singleUse = g.singleUse
  resolves : ∀ now context g', checkGrant l now context (some g) = .ok g' → now < g.expiresAt

theorem GrantRow.matches_iff {g : GrantRow} {scope : LeaseScope} :
    g.matches scope = true ↔ g.agentId = scope.agentId ∧
      (∀ t, g.taskId = some t → scope.taskId = some t) ∧
      ∀ a, g.action = some a → scope.action = some a := by
  unfold GrantRow.matches
  split_ifs with hagent htask
  · simp [hagent]
  · obtain ⟨hsome, hne⟩ := htask
    obtain ⟨t, ht⟩ := Option.ne_none_iff_exists'.mp hsome
    simp only [false_iff]
    exact fun h ↦ hne (ht.trans (h.2.1 t ht).symm)
  · cases ha : g.action <;> cases ht : g.taskId <;> simp_all [eq_comm]

theorem checkGrant_live {l : LeaseRow} {g g' : GrantRow} {now : Time} {context : ResolveContext}
    (h : checkGrant l now context (some g) = .ok g') : now < g.expiresAt := by
  by_contra hle
  rw [checkGrant, if_pos (.inr (Int.not_lt.mp hle) : l.expiresAt ≤ now ∨ g.expiresAt ≤ now)] at h
  split_ifs at h

/-- **A lease stays in the scope of its grant, which bounds what the caller leaves open.** -/
theorem lease_bounds {w : World} {q : IssueRequest} {g : GrantRow} {l : LeaseRow}
    (hg : w.matchingGrant q = some g) (hl : World.newLease q g = some l) :
    g.Bounds q l ∧ ∀ (cmd : IssueSecretLease) (workspaceId agentId handle : String) (now : Time)
      (leaseId : LeaseId), q = cmd.request workspaceId agentId now leaseId handle →
        l.singleUse = g.singleUse := by
  have hp := List.find?_some hg
  simp only [decide_eq_true_eq] at hp
  obtain ⟨hagent, htask, haction⟩ := GrantRow.matches_iff.mp hp.2.2.2.2.2.2
  unfold World.newLease at hl
  dsimp only at hl
  split_ifs at hl with hrange
  obtain rfl := Option.some.inj hl
  rw [not_or, Int.not_le, Int.not_lt] at hrange
  refine ⟨⟨hagent.symm, htask, haction, Int.lt_add_of_pos_right _ hrange.1,
    Int.add_le_add_left hrange.2 _, ?_, fun h ↦ by simp [h], fun _ _ _ ↦ checkGrant_live⟩, ?_⟩
  · rintro (h | h) <;> simp [h]
  · rintro cmd workspaceId agentId handle now leaseId rfl
    rfl

namespace Leased

/-- A grant of five minutes for one use, which ends at the time 100. -/
def grant : GrantRow :=
  ⟨"g", "w", "ref", "agent", some "T", none, 300, true, false, none, 100 * 1000000, none⟩

/-- A lease of an hour that may be used more than once. -/
def request : IssueRequest where
  workspaceId := "w"
  secretRef := "ref"
  scope := ⟨"agent", some "T", some "push", none, none⟩
  ttl := some (3600 * 1000000)
  singleUse := some false
  now := 0
  grantId := none
  leaseId := ⟨"0"⟩
  handle := "sh-0"

theorem matching : (World.start [grant]).matchingGrant request = some grant :=
  List.find?_cons_of_pos (by decide +kernel)

end Leased

open Leased

theorem lease_bounds_hour : ∃ l, World.newLease request grant = some l ∧ grant.Bounds request l :=
  ⟨_, rfl, (lease_bounds matching rfl).1⟩

theorem lease_exceeds_grant : ∃ l, (World.start [grant]).matchingGrant request = some grant ∧
    World.newLease request grant = some l ∧
      l.issuedAt + (grant.ttlSeconds : ℤ) * 1000000 < l.expiresAt ∧
      grant.expiresAt < l.expiresAt ∧ grant.singleUse = true ∧ l.singleUse = false :=
  ⟨_, matching, rfl, by decide, by decide, rfl, rfl⟩

end AgentColab.Secrets
