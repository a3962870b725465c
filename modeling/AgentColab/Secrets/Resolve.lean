import AgentColab.Secrets.Broker

/-!
# A resolve through the API

A resolve runs in one transaction, which holds the lease from its first read on, and beside it the
process keeps its registry of live handles. The command handler looks up the identity of the lease
there once the broker has returned, and the API puts that identity and the value into its answer.
-/

namespace AgentColab.Secrets

/-! ## The registry of a process -/

/-- `LiveHandles`: lease identities by the digest of their handle. -/
structure LiveHandles where
  byHash : List (String × LeaseId)

namespace LiveHandles

def leaseId (live : LiveHandles) (hash : String) : Option LeaseId := live.byHash.lookup hash

def drop (live : LiveHandles) (hash : String) : LiveHandles :=
  ⟨live.byHash.filter fun entry ↦ entry.1 ≠ hash⟩

def add (live : LiveHandles) (hash : String) (leaseId : LeaseId) : LiveHandles :=
  ⟨(hash, leaseId) :: (live.drop hash).byHash⟩

@[simp] theorem leaseId_add (live : LiveHandles) (hash : String) (id : LeaseId) :
    (live.add hash id).leaseId hash = some id := by
  rw [leaseId, add, List.lookup_cons_self]

@[simp] theorem leaseId_drop (live : LiveHandles) (hash : String) :
    (live.drop hash).leaseId hash = none := by
  rw [leaseId, List.lookup_eq_none_iff]
  rintro ⟨h, id⟩ hmem
  have hne : h ≠ hash := by simpa using (List.mem_filter.1 hmem).2
  simpa using hne.symm

end LiveHandles

/-! ## The broker -/

/-- The tables a resolve reads and writes. -/
structure Tables where
  leases : List LeaseRow
  grants : List GrantRow
  approvals : List ApprovalRow

/-- `SELECT … FROM secret_leases WHERE handle_hash = :h FOR UPDATE` -/
def Tables.leaseByHandle (t : Tables) (hash : String) : Option LeaseRow :=
  t.leases.find? (·.handleHash = hash)

/-- `load_grant` -/
def Tables.loadGrant (t : Tables) (grantId : String) : Option GrantRow :=
  t.grants.find? (·.grantId = grantId)

/-- `UPDATE secret_leases SET used_at = COALESCE(used_at, :n), use_count = use_count + 1` -/
def LeaseRow.used (lease : LeaseRow) (now : Time) : LeaseRow :=
  { lease with usedAt := lease.usedAt.or (some now), useCount := lease.useCount + 1 }

def Tables.countUse (t : Tables) (leaseId : LeaseId) (now : Time) : Tables :=
  { t with leases := t.leases.map fun r ↦ if r.leaseId = leaseId then r.used now else r }

/-- What a resolve checks before it touches the registry. -/
def checks (t : Tables) (workspaceId handle : String) (context : ResolveContext) (now : Time)
    (purpose : String) : Except SecretError LeaseRow :=
  if isHandle handle = false then .error .notFound
  else do
    let lease ← checkLease workspaceId (t.leaseByHandle (handleHash handle))
    let grant ← checkGrant lease now context (t.loadGrant lease.grantId)
    checkExposure t.approvals purpose grant now
    return lease

/-- A handle that this process has not registered is registered on its first use. -/
def LiveHandles.register (live : LiveHandles) (hash : String) (lease : LeaseRow) : LiveHandles :=
  if live.leaseId hash = none ∧ lease.usedAt = none then live.add hash lease.leaseId else live

/-- The state of the server process: its registry, and the tables. -/
structure Server where
  tables : Tables
  live : LiveHandles

/-- What a granted resolve leaves: the use is counted, and a handle for one use is dropped. -/
def Server.granted (s : Server) (lease : LeaseRow) (now : Time) : Server where
  tables := s.tables.countUse lease.leaseId now
  live :=
    let live := s.live.register lease.handleHash lease
    if lease.singleUse then live.drop lease.handleHash else live

/-- `broker.resolve`, with the decryption of the current version as a parameter. -/
def resolve (readSecretBytes : String → Except SecretError Bytes) (s : Server)
    (workspaceId handle : String) (context : ResolveContext) (now : Time) (purpose : String) :
    Except SecretError Bytes × Server :=
  match checks s.tables workspaceId handle context now purpose with
  | .error e => (.error e, s)
  | .ok lease =>
    match readSecretBytes lease.secretRef with
    | .error e =>
      -- the rows are rolled back, the registry is not
      (.error e, { s with live := s.live.register lease.handleHash lease })
    | .ok value => (.ok value, s.granted lease now)

/-! ## The command handler and the API -/

structure B64 where
  bytes : Bytes

def b64encode (value : Bytes) : B64 := ⟨value⟩

def b64decode (text : B64) : Bytes := text.bytes

/-- The account behind a request, with the Agent that is registered for it. -/
structure Principal where
  workspaceId : String
  agentId : Option String
  mayLease : Bool

/-- `ResolveSecret` -/
structure ResolveBody where
  handle : String
  sidecarInstanceId : Option String
  workItemId : Option String
  taskId : Option String
  action : Option String
  purpose : String

def ResolveBody.context (cmd : ResolveBody) (agentId : String) : ResolveContext where
  agentId := agentId
  sidecarInstanceId := cmd.sidecarInstanceId
  taskId := cmd.taskId
  action := cmd.action
  workItemId := cmd.workItemId

/-- An answer to `POST /resolve`: status 200 with the members of its body, or an error. -/
inductive Response where
  | ok (leaseId : String) (secretB64 : B64) (expiresAt : Option Time)
  | error (status : ℕ) (code : String)

/-- `resolve_secret`: the identity is looked up after the broker has returned. -/
def resolveSecret (readSecretBytes : String → Except SecretError Bytes) (s : Server)
    (principal : Principal) (cmd : ResolveBody) (now : Time) :
    Except String (String × B64) × Server :=
  if principal.mayLease = false then (.error "POLICY_DENIED", s)
  else
    match principal.agentId with
    | none => (.error "SECRET_SCOPE_DENIED", s)
    | some agentId =>
      match resolve readSecretBytes s principal.workspaceId cmd.handle (cmd.context agentId) now
        cmd.purpose with
      | (.error e, s') => (.error e.code, s')
      | (.ok value, s') =>
        (.ok (((s'.live.leaseId (handleHash cmd.handle)).map LeaseId.value).getD "lease",
          b64encode value), s')

/-- A request to the API: its headers and its body. -/
structure Request where
  headers : List (String × String)
  body : ResolveBody

/-- `POST /resolve`: an error keeps its code when it is one of the broker's. -/
def resolveEndpoint (readSecretBytes : String → Except SecretError Bytes) (s : Server)
    (principal : Principal) (request : Request) (now : Time) : Response × Server :=
  match request.headers.lookup "Idempotency-Key" with
  | none => (.error 400 "IDEMPOTENCY_KEY_REQUIRED", s)
  | some key =>
    if key = "" then (.error 400 "IDEMPOTENCY_KEY_REQUIRED", s)
    else
      match resolveSecret readSecretBytes s principal request.body now with
      | (.error code, s') =>
        (.error 403 (if code = "POLICY_DENIED" then "SECRET_SCOPE_DENIED" else code), s')
      | (.ok (leaseId, secretB64), s') => (.ok leaseId secretB64 none, s')

/-! ## What an answer tells -/

section

variable {readSecretBytes : String → Except SecretError Bytes} {s s' : Server}

/-- The lease that a resolve of this request finds and lets through. -/
def Resolves (readSecretBytes : String → Except SecretError Bytes) (s : Server)
    (principal : Principal) (body : ResolveBody) (now : Time) (lease : LeaseRow) (value : Bytes) :
    Prop :=
  ∃ agentId, principal.agentId = some agentId ∧
    checks s.tables principal.workspaceId body.handle (body.context agentId) now body.purpose =
      .ok lease ∧ readSecretBytes lease.secretRef = .ok value

variable {now : Time}

theorem handleHash_of_checks {t : Tables} {workspaceId handle : String} {context : ResolveContext}
    {purpose : String} {lease : LeaseRow}
    (h : checks t workspaceId handle context now purpose = .ok lease) :
    lease.handleHash = handleHash handle ∧ lease ∈ t.leases ∧ now < lease.expiresAt := by
  unfold checks at h
  split_ifs at h
  simp only [bind, Except.bind, pure, Except.pure] at h
  split at h
  · cases h
  · rename_i found hlease
    split at h
    · cases h
    · rename_i grant hgrant
      split at h
      · cases h
      · obtain rfl := Except.ok.inj h
        have hrow := (checkLease_ok hlease).1
        have hhash := List.find?_some hrow
        exact ⟨by simpa using hhash, List.mem_of_find?_eq_some hrow, (checkGrant_ok hgrant).2.2.1⟩

/-- The identity that is answered: what the registry holds for the handle after the resolve. -/
def answeredId (s : Server) (lease : LeaseRow) (now : Time) : String :=
  (((s.granted lease now).live.leaseId lease.handleHash).map LeaseId.value).getD "lease"

theorem resolveEndpoint_ok {principal : Principal} {request : Request} {leaseId : String}
    {secretB64 : B64} {expiresAt : Option Time} (h : resolveEndpoint readSecretBytes s principal
    request now = (.ok leaseId secretB64 expiresAt, s')) :
    ∃ lease value, Resolves readSecretBytes s principal request.body now lease value ∧
      leaseId = answeredId s lease now ∧ secretB64 = b64encode value ∧ expiresAt = none ∧
      s' = s.granted lease now := by
  unfold resolveEndpoint at h
  split at h
  · cases h
  split_ifs at h with hkey
  · cases h
  split at h
  · cases h
  rename_i id b64 s'' hsecret
  cases h
  unfold resolveSecret at hsecret
  split_ifs at hsecret with hmay
  · cases hsecret
  split at hsecret
  · cases hsecret
  rename_i agentId hagent
  split at hsecret
  · cases hsecret
  rename_i value s₀ hresolve
  cases hsecret
  unfold resolve at hresolve
  split at hresolve
  · cases hresolve
  rename_i lease hchecks
  split at hresolve
  · cases hresolve
  rename_i bytes hread
  cases hresolve
  refine ⟨lease, value, ⟨agentId, hagent, hchecks, hread⟩, ?_, rfl, rfl, rfl⟩
  rw [answeredId, (handleHash_of_checks hchecks).1]

end

/-- The handle of the lease stays in the registry when its resolve returns. -/
def Registered (s : Server) (lease : LeaseRow) : Prop :=
  lease.singleUse = false ∧ (s.live.leaseId lease.handleHash = some lease.leaseId ∨
      s.live.leaseId lease.handleHash = none ∧ lease.usedAt = none)

instance (s : Server) (lease : LeaseRow) : Decidable (Registered s lease) := by
  unfold Registered
  infer_instance

/-- The answer names the lease exactly when its handle is still registered. -/
theorem answeredId_eq_iff (s : Server) (lease : LeaseRow) (now : Time) :
    answeredId s lease now = lease.leaseId.value ↔ Registered s lease := by
  unfold answeredId Server.granted Registered LiveHandles.register
  dsimp only
  cases hsingle : lease.singleUse
  · cases hlive : s.live.leaseId lease.handleHash with
    | some =>
      simp [hlive, LeaseId.value_injective.eq_iff]
    | none =>
      cases hused : lease.usedAt
      · simp
      · simpa [hlive] using lease.leaseId.value_ne_lease.symm
  · simpa using lease.leaseId.value_ne_lease.symm

end AgentColab.Secrets
