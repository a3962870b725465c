import AgentColab.Secrets.Resolve

/-!
# The sidecar: client, store and watcher

The client owns the buffer of the value. A session puts it into the store under the identity and
until the time that the client has read, and from then on views, expiry and the revocations of the
watcher reach it through that identity only.
-/

namespace AgentColab.Secrets

/-! ## The store -/

abbrev Injector := ℕ

/-- A value in the store; the buffer is the identity of a `bytearray`. -/
structure Entry where
  handle : String
  buffer : ℕ
  expiresAtMono : Time
  injectors : List Injector

/-- `injectors.append` -/
def Entry.append (e : Entry) (injector : Injector) : Entry :=
  { e with injectors := e.injectors ++ [injector] }

/-- The contents of the buffers, the injectors that were attached for a lease, and those that are
invalidated. -/
structure SecretStore where
  entries : List (String × Entry)
  buffers : ℕ → Bytes
  attached : List (String × Injector)
  invalidated : List Injector

namespace SecretStore

def empty : SecretStore := ⟨[], fun _ ↦ [], [], []⟩

/-- `_entry`, without its exception. -/
def entry (st : SecretStore) (leaseId : String) : Option Entry := st.entries.lookup leaseId

def put (st : SecretStore) (leaseId handle : String) (buffer : ℕ) (ttl : Time) (clock : Time) :
    SecretStore :=
  let entry : Entry := ⟨handle, buffer, clock + max ttl 0, []⟩
  if (st.entry leaseId).isSome then
    { st with entries := st.entries.map fun e ↦ if e.1 = leaseId then (leaseId, entry) else e }
  else { st with entries := st.entries ++ [(leaseId, entry)] }

/-- `revoke`: the value is zeroed and every injector is invalidated. -/
def revoke (st : SecretStore) (leaseId : String) : Bool × SecretStore :=
  match st.entry leaseId with
  | none => (false, st)
  | some entry =>
    (true,
      { entries := st.entries.filter fun e ↦ e.1 ≠ leaseId
        buffers := Function.update st.buffers entry.buffer []
        attached := st.attached
        invalidated := st.invalidated ++ entry.injectors })

/-- `attach`, which raises `LEASE_UNKNOWN` for a lease without an entry. -/
def attach (st : SecretStore) (leaseId : String) (injector : Injector) : SecretStore :=
  match st.entry leaseId with
  | none => st
  | some _ =>
    { st with
      entries := st.entries.map fun e ↦
        if e.1 = leaseId then (e.1, e.2.append injector) else e
      attached := st.attached ++ [(leaseId, injector)] }

/-- `view`: a value that is past its expiry is revoked on the way. -/
def view (st : SecretStore) (leaseId : String) (clock : Time) : Except String Bytes × SecretStore :=
  match st.entry leaseId with
  | none => (.error "LEASE_UNKNOWN", st)
  | some entry =>
    if entry.expiresAtMono ≤ clock then (.error "LEASE_UNKNOWN", (st.revoke leaseId).2)
    else (.ok (st.buffers entry.buffer), st)

def revokeAll (st : SecretStore) (leaseIds : List String) : SecretStore :=
  leaseIds.foldl (fun st leaseId ↦ (st.revoke leaseId).2) st

def expire (st : SecretStore) (clock : Time) : SecretStore :=
  st.revokeAll ((st.entries.filter fun e ↦ e.2.expiresAtMono ≤ clock).map Prod.fst)

def wipeAll (st : SecretStore) : SecretStore := st.revokeAll (st.entries.map Prod.fst)

end SecretStore

/-! ## The watcher -/

/-- A revocation as the client hands it over: one for each lease that an item lists. -/
structure Revocation where
  seq : ℕ
  leaseId : String
  reason : String
  kind : String
deriving DecidableEq

/-- A session with the store and the watcher over it. -/
structure Watched where
  store : SecretStore
  lastSeq : ℕ
  handled : List Revocation

namespace Watched

/-- `RevocationWatcher.handle` -/
def handle (w : Watched) (revocation : Revocation) : Watched where
  store := (w.store.revoke revocation.leaseId).2
  lastSeq := max w.lastSeq revocation.seq
  handled := w.handled ++ [revocation]

/-- `RevocationWatcher.poll_once`, given what the client returns. -/
def pollOnce (w : Watched) (items : List Revocation) (nextSeq : ℕ) (clock : Time) : Watched :=
  let w := items.foldl handle w
  { w with lastSeq := max w.lastSeq nextSeq, store := w.store.expire clock }

/-- What happens to the store after the value has been put. -/
inductive Op where
  | attach (leaseId : String) (injector : Injector)
  | view (leaseId : String) (clock : Time)
  | handle (revocation : Revocation)
  | pollOnce (items : List Revocation) (nextSeq : ℕ) (clock : Time)
  | expire (clock : Time)
  | wipeAll

def step (w : Watched) : Op → Watched
  | .attach leaseId injector => { w with store := w.store.attach leaseId injector }
  | .view leaseId clock => { w with store := (w.store.view leaseId clock).2 }
  | .handle revocation => w.handle revocation
  | .pollOnce items nextSeq clock => w.pollOnce items nextSeq clock
  | .expire clock => { w with store := w.store.expire clock }
  | .wipeAll => { w with store := w.store.wipeAll }

def run (w : Watched) (ops : List Op) : Watched := ops.foldl step w

theorem run_append (w : Watched) (ops ops' : List Op) :
    w.run (ops ++ ops') = (w.run ops).run ops' := List.foldl_append

end Watched

/-! ## The client and its session -/

/-- `BROKER_DENIAL_CODES` -/
def brokerDenialCodes : List String :=
  ["SECRET_NOT_FOUND", "SECRET_SCOPE_DENIED", "SECRET_LEASE_EXPIRED", "SECRET_HANDLE_USED",
    "SECRET_HANDLE_REVOKED", "SECRET_HANDLE_HOST_MISMATCH", "SECRET_EXPOSURE_APPROVAL_REQUIRED"]

/-- `BrokerClient._denial` -/
def denial (status : ℕ) (code : String) : String :=
  if status = 401 then "BROKER_AUTH_FAILED"
  else if code ∈ brokerDenialCodes then code
  else if status = 403 then "SECRET_SCOPE_DENIED"
  else if 500 ≤ status then "BROKER_UNAVAILABLE"
  else "BROKER_BAD_RESPONSE"

/-- `SidecarConfig`, as the client uses it. -/
structure SidecarConfig where
  instanceId : String
  token : Option String

/-- The headers that `BrokerClient` sends with every request. -/
def SidecarConfig.headers (config : SidecarConfig) : List (String × String) :=
  [("User-Agent", "agent-colab-sidecar"), ("X-Sidecar-Instance", config.instanceId)] ++
    match config.token with
    | none => []
    | some token => [("Authorization", "Bearer " ++ token)]

/-- `ResolvedLease`, with the value in a buffer. -/
structure ResolvedLease where
  leaseId : String
  handle : String
  expiresAt : Time
  value : Bytes

/-- `DEFAULT_TTL_S`, in microseconds. -/
def defaultTtl : Time := 300 * 1000000

/-- The part of `BrokerClient.resolve` that reads the answer. -/
def readAnswer (handle : String) (now : Time) : Response → Except String ResolvedLease
  | .error status code => .error (denial status code)
  | .ok leaseId secretB64 expiresAt =>
    .ok ⟨leaseId, handle, expiresAt.getD (now + defaultTtl), b64decode secretB64⟩

/-- The clock readings of a session that opens: of the server when it resolves, of the client when
it has read the answer, of the session when it computes the time to live, and the monotonic one of
`put`, with the wall clock at which the monotonic clock was zero. -/
structure Readings where
  server : Time
  answered : Time
  session : Time
  put : Time
  boot : Time

/-- What a session is opened with. The transport stands between the client and the API. -/
structure SessionInput where
  readSecretBytes : String → Except SecretError Bytes
  principal : Principal
  config : SidecarConfig
  transport : Request → Request
  handle : String
  workItem : Option String
  readings : Readings

/-- The request of `BrokerClient.resolve`; a scope that is empty is left out. -/
def SessionInput.request (i : SessionInput) : Request where
  headers := i.config.headers
  body :=
    { handle := i.handle, sidecarInstanceId := some i.config.instanceId,
      workItemId := i.workItem.filter (· ≠ ""), taskId := none, action := none,
      purpose := "adapter" }

def valueBuffer : ℕ := 0

/-- The store of a session once the value of the lease is in it. -/
def ResolvedLease.stored (lease : ResolvedLease) (r : Readings) : SecretStore :=
  { SecretStore.empty with buffers := Function.update (fun _ ↦ []) valueBuffer lease.value }.put
    lease.leaseId lease.handle valueBuffer (max (lease.expiresAt - r.session) 0) r.put

/-- The beginning of `run_session`, up to the watcher. -/
def openSession (s : Server) (i : SessionInput) : Except String Watched × Server :=
  let (answer, s') :=
    resolveEndpoint i.readSecretBytes s i.principal (i.transport i.request) i.readings.server
  (match readAnswer i.handle i.readings.answered answer with
    | .error code => .error code
    | .ok lease => .ok ⟨lease.stored i.readings, 0, []⟩, s')

end AgentColab.Secrets
