import AgentColab.Secrets.Resolve

/-!
# Issue, resolve and revoke as interleaved transactions

An issue reads the grants without a lock and inserts a lease that others see when it commits. A
resolve locks the lease, reads its grant without a lock, and counts the use. A revocation updates
the leases of its target and then the grants: it finds the rows that are committed when an update
begins, waits for those that are locked, and passes over those that have been revoked meanwhile.
-/

namespace AgentColab.Secrets

/-! ## Requests -/

/-- The arguments of `issue_lease`, with the identities that it draws. -/
structure IssueRequest where
  workspaceId : String
  secretRef : String
  scope : LeaseScope
  ttl : Option Time
  singleUse : Option Bool
  now : Time
  grantId : Option String
  leaseId : LeaseId
  handle : String

/-- The arguments of `resolve`. -/
structure ResolveRequest where
  workspaceId : String
  handle : String
  context : ResolveContext
  now : Time
  purpose : String

/-- The arguments of `revoke`. -/
structure Revoke where
  workspaceId : String
  kind : Kind
  target : String
  now : Time
deriving DecidableEq

/-- A lease that the first update of a revocation looks for. -/
def Revoke.Targets (r : Revoke) (l : LeaseRow) : Prop :=
  l.workspaceId = r.workspaceId ∧ match r.kind with
    | .lease => l.leaseId.value = r.target
    | .grant => l.grantId = r.target
    | .task => l.taskId = some r.target
    | .agent => l.agentId = r.target
    | .secret => l.secretRef = r.target

instance (r : Revoke) (l : LeaseRow) : Decidable (r.Targets l) := by
  unfold Revoke.Targets
  cases r.kind <;> infer_instance

/-- A grant that its second update looks for; there is none for the kind `lease`. -/
def Revoke.TargetsGrant (r : Revoke) (g : GrantRow) : Prop :=
  g.workspaceId = r.workspaceId ∧ match r.kind with
    | .lease => False
    | .grant => g.grantId = r.target
    | .task => g.taskId = some r.target
    | .agent => g.agentId = r.target
    | .secret => g.secretRef = r.target

instance (r : Revoke) (g : GrantRow) : Decidable (r.TargetsGrant g) := by
  unfold Revoke.TargetsGrant
  cases r.kind <;> infer_instance

/-! ## Transactions -/

inductive IssuePhase where
  | started
  | granted (grant : GrantRow)
  | inserted (lease : LeaseRow)

inductive ResolvePhase where
  | started
  | locked (lease : LeaseRow)
  | granted (lease : LeaseRow)
  | read (lease : LeaseRow) (value : Bytes)

/-- `seen` is the number of leases that were committed when the first update looked for its rows;
nothing depends on it. -/
inductive RevokePhase where
  | started
  | scanned (seen : ℕ) (candidates : List LeaseId)
  | leases (seen : ℕ) (ids : List LeaseId)
  | grants (seen : ℕ) (ids : List LeaseId) (grantIds : List String)

/-- An open transaction. `began` is the number of revocations that were committed when it began;
nothing depends on it. -/
inductive Transaction where
  | issue (request : IssueRequest) (began : ℕ) (phase : IssuePhase)
  | resolve (request : ResolveRequest) (began : ℕ) (phase : ResolvePhase)
  | revoke (request : Revoke) (phase : RevokePhase)

/-- A resolve that has returned the bytes of a secret. -/
structure Answer where
  leaseId : LeaseId
  began : ℕ
  now : Time
  value : Bytes

/-- The committed rows, the row locks on the leases, and the open transactions. `issued` is `began`
of the issue; `revocations` and `answers` record what has been committed. -/
structure World where
  grants : List GrantRow
  leases : List LeaseRow
  locks : LeaseId → Option ℕ
  transactions : ℕ → Option Transaction
  issued : LeaseId → ℕ
  revocations : List Revoke
  answers : List Answer

namespace World

def set (w : World) (i : ℕ) (x : Option Transaction) : World :=
  { w with transactions := fun j ↦ if j = i then x else w.transactions j }

def close (w : World) (i : ℕ) : World :=
  { w.set i none with locks := fun id ↦ if w.locks id = some i then none else w.locks id }

def lock (w : World) (i : ℕ) (ids : List LeaseId) : World :=
  { w with locks := fun id ↦ if id ∈ ids then some i else w.locks id }

def Free (w : World) (i : ℕ) (id : LeaseId) : Prop := w.locks id = none ∨ w.locks id = some i

instance (w : World) (i : ℕ) (id : LeaseId) : Decidable (w.Free i id) := by
  unfold Free
  infer_instance

/-! ## Issue -/

/-- The grant that `issue_lease` takes: the rows are in the order of the query. -/
def matchingGrant (w : World) (q : IssueRequest) : Option GrantRow :=
  w.grants.find? fun g ↦ g.workspaceId = q.workspaceId ∧ g.secretRef = q.secretRef ∧
    g.agentId = q.scope.agentId ∧ g.revokedAt = none ∧ q.now < g.expiresAt ∧
    (q.grantId = none ∨ q.grantId = some g.grantId) ∧ g.matches q.scope = true

/-- `MAX_TTL` -/
def maxTtl : Time := 3600 * 1000000

/-- The lease of a request under a grant; `none` when the time to live is out of range. -/
def newLease (q : IssueRequest) (g : GrantRow) : Option LeaseRow :=
  let ttl := match q.ttl with
    | some ttl => if ttl = 0 then (g.ttlSeconds : ℤ) * 1000000 else ttl
    | none => (g.ttlSeconds : ℤ) * 1000000
  if ttl ≤ 0 ∨ maxTtl < ttl then none
  else some
    { leaseId := q.leaseId, workspaceId := q.workspaceId, grantId := g.grantId,
      secretRef := q.secretRef, handleHash := Secrets.handleHash q.handle,
      agentId := q.scope.agentId, taskId := q.scope.taskId, action := q.scope.action,
      workItemId := q.scope.workItemId, sidecarInstanceId := q.scope.sidecarInstanceId,
      singleUse := q.singleUse.getD g.singleUse, issuedAt := q.now, expiresAt := q.now + ttl,
      usedAt := none, useCount := 0, revokedAt := none }

/-- The unique indexes of the leases. -/
def Fresh (w : World) (l : LeaseRow) : Prop :=
  ∀ q ∈ w.leases, q.leaseId ≠ l.leaseId ∧ q.handleHash ≠ l.handleHash

instance (w : World) (l : LeaseRow) : Decidable (w.Fresh l) := by
  unfold Fresh
  infer_instance

/-! ## Resolve -/

def leaseByHandle (w : World) (handle : String) : Option LeaseRow :=
  w.leases.find? (·.handleHash = handleHash handle)

def loadGrant (w : World) (grantId : String) : Option GrantRow :=
  w.grants.find? (·.grantId = grantId)

/-- The update that counts a use of the lease `id`. -/
def countUse (id : LeaseId) (now : Time) (l : LeaseRow) : LeaseRow :=
  if l.leaseId = id then l.used now else l

/-! ## Revoke -/

/-- `UPDATE secret_leases SET revoked_at = …` -/
def revokeLease (ids : List LeaseId) (now : Time) (l : LeaseRow) : LeaseRow :=
  if l.leaseId ∈ ids then { l with revokedAt := l.revokedAt.or (some now) } else l

/-- `UPDATE secret_grants SET revoked_at = …`; a grant that has been revoked in the meantime stays
as it is. -/
def revokeGrant (ids : List String) (now : Time) (g : GrantRow) : GrantRow :=
  if g.grantId ∈ ids then { g with revokedAt := g.revokedAt.or (some now) } else g

end World

/-! ## Steps -/

/-- The statements of the transactions. A refusal, a deadlock or a rollback is the step `stop`. -/
inductive Label where
  | beginIssue (i : ℕ) (request : IssueRequest)
  | readGrants (i : ℕ)
  | insertLease (i : ℕ)
  | commitIssue (i : ℕ)
  | beginResolve (i : ℕ) (request : ResolveRequest)
  | lockLease (i : ℕ)
  | readGrant (i : ℕ) (approvals : List ApprovalRow)
  | readSecret (i : ℕ) (value : Bytes)
  | commitResolve (i : ℕ)
  | beginRevoke (i : ℕ) (request : Revoke)
  | scanLeases (i : ℕ)
  | updateLeases (i : ℕ)
  | updateGrants (i : ℕ)
  | commitRevoke (i : ℕ)
  | stop (i : ℕ)

open World in
/-- One statement; `none` when the transaction cannot execute it now. -/
def World.step (w : World) : Label → Option World
  | .beginIssue i request =>
    match w.transactions i with
    | none => some (w.set i (some (.issue request w.revocations.length .started)))
    | some _ => none
  | .readGrants i =>
    match w.transactions i with
    | some (.issue q began .started) =>
      (w.matchingGrant q).map fun g ↦ w.set i (some (.issue q began (.granted g)))
    | _ => none
  | .insertLease i =>
    match w.transactions i with
    | some (.issue q began (.granted g)) =>
      (newLease q g).map fun l ↦ w.set i (some (.issue q began (.inserted l)))
    | _ => none
  | .commitIssue i =>
    match w.transactions i with
    | some (.issue _ began (.inserted l)) =>
      if w.Fresh l then some
        { w.close i with
          leases := w.leases ++ [l]
          issued := Function.update w.issued l.leaseId began }
      else none
    | _ => none
  | .beginResolve i request =>
    match w.transactions i with
    | none => some (w.set i (some (.resolve request w.revocations.length .started)))
    | some _ => none
  | .lockLease i =>
    match w.transactions i with
    | some (.resolve q began .started) =>
      if isHandle q.handle = false then none
      else
        match checkLease q.workspaceId (w.leaseByHandle q.handle) with
        | .error _ => none
        | .ok l =>
          if w.Free i l.leaseId then
            some ((w.lock i [l.leaseId]).set i (some (.resolve q began (.locked l))))
          else none
    | _ => none
  | .readGrant i approvals =>
    match w.transactions i with
    | some (.resolve q began (.locked l)) =>
      match checkGrant l q.now q.context (w.loadGrant l.grantId) with
      | .error _ => none
      | .ok g =>
        match checkExposure approvals q.purpose g q.now with
        | .error _ => none
        | .ok _ => some (w.set i (some (.resolve q began (.granted l))))
    | _ => none
  | .readSecret i value =>
    match w.transactions i with
    | some (.resolve q began (.granted l)) =>
      some (w.set i (some (.resolve q began (.read l value))))
    | _ => none
  | .commitResolve i =>
    match w.transactions i with
    | some (.resolve q began (.read l value)) => some
        { w.close i with
          leases := w.leases.map (countUse l.leaseId q.now)
          answers := w.answers ++ [⟨l.leaseId, began, q.now, value⟩] }
    | _ => none
  | .beginRevoke i request =>
    match w.transactions i with
    | none => some (w.set i (some (.revoke request .started)))
    | some _ => none
  | .scanLeases i =>
    match w.transactions i with
    | some (.revoke r .started) =>
      let found := w.leases.filter fun l ↦ l.revokedAt = none ∧ r.Targets l
      some (w.set i (some (.revoke r (.scanned w.leases.length (found.map LeaseRow.leaseId)))))
    | _ => none
  | .updateLeases i =>
    match w.transactions i with
    | some (.revoke r (.scanned seen candidates)) =>
      let ids := (w.leases.filter fun l ↦ l.leaseId ∈ candidates ∧ l.revokedAt = none).map
        LeaseRow.leaseId
      -- the update waits for every row that it has found
      if ∀ id ∈ candidates, w.Free i id then
        some ((w.lock i ids).set i (some (.revoke r (.leases seen ids))))
      else none
    | _ => none
  | .updateGrants i =>
    match w.transactions i with
    | some (.revoke r (.leases seen ids)) =>
      let found := w.grants.filter fun g ↦ g.revokedAt = none ∧ r.TargetsGrant g
      some (w.set i (some (.revoke r (.grants seen ids (found.map GrantRow.grantId)))))
    | _ => none
  | .commitRevoke i =>
    match w.transactions i with
    | some (.revoke r (.grants _ ids grantIds)) => some
        { w.close i with
          leases := w.leases.map (revokeLease ids r.now)
          grants := w.grants.map (revokeGrant grantIds r.now)
          revocations := w.revocations ++ [r] }
    | _ => none
  | .stop i => some (w.close i)

def World.start (grants : List GrantRow) : World where
  grants := grants
  leases := []
  locks := fun _ ↦ none
  transactions := fun _ ↦ none
  issued := fun _ ↦ 0
  revocations := []
  answers := []

inductive Run (C : World → Label → Prop) : World → List Label → World → Prop
  | nil (w : World) : Run C w [] w
  | cons {w w₁ w' : World} {l : Label} {ls : List Label} (hstep : w.step l = some w₁) (hC : C w l)
      (h : Run C w₁ ls w') : Run C w (l :: ls) w'

end AgentColab.Secrets
