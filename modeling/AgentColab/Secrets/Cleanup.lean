import AgentColab.Secrets.Sidecar

/-!
# When a session cleans up what it resolved

The session reaches the value through the identity and the expiry that the client has read, so the
value goes with its lease when these are the lease's own. The API answers the identity only while
the handle is registered, and never the expiry.
-/

namespace AgentColab.Secrets

open List Option

/-! ## What the store keeps of a value -/

/-- The value in the buffer is gone: zeroed, out of the store, and every injector is invalidated. -/
structure Gone (leaseId : String) (buffer : ℕ) (st : SecretStore) : Prop where
  noEntry : st.entry leaseId = none
  zeroed : st.buffers buffer = []
  invalidated : ∀ injector, (leaseId, injector) ∈ st.attached → injector ∈ st.invalidated

/-- The value is in the store under this identity and with this expiry, or it is gone. -/
structure Kept (leaseId : String) (buffer : ℕ) (expiry : Time) (st : SecretStore) : Prop where
  held : ∀ e, st.entry leaseId = some e → e.buffer = buffer ∧ e.expiresAtMono = expiry ∧
    ∀ injector, (leaseId, injector) ∈ st.attached → injector ∈ e.injectors
  gone : st.entry leaseId = none → Gone leaseId buffer st

section

variable {leaseId : String} {buffer : ℕ} {expiry : Time} {st : SecretStore}

variable {α : Type*} {clock : Time}

theorem lookup_filter_ne (l : List (String × α)) (a b : String) :
    (l.filter fun e ↦ e.1 ≠ a).lookup b = if b = a then none else l.lookup b := by
  induction l with
  | nil => simp
  | cons e l ih =>
    obtain ⟨k, v⟩ := e
    by_cases hk : k = a
    · rw [filter_cons_of_neg (by simpa using hk), ih]
      by_cases hb : b = a
      · rw [if_pos hb, if_pos hb]
      · have : (b == k) = false := by simpa [hk] using hb
        rw [if_neg hb, if_neg hb, lookup_cons, this]
    · rw [filter_cons_of_pos (by simpa using hk), lookup_cons, ih, lookup_cons]
      by_cases hb : b = k
      · have hba : b ≠ a := fun h ↦ hk (hb ▸ h)
        rw [if_neg hba, if_neg hba]
      · have : (b == k) = false := by simpa using hb
        rw [this]

theorem entry_revoke (st : SecretStore) (id : String) :
    (st.revoke id).2.entry leaseId = if leaseId = id then none else st.entry leaseId := by
  unfold SecretStore.revoke
  split
  · rename_i hnone
    by_cases h : leaseId = id
    · rw [if_pos h, h, hnone]
    · rw [if_neg h]
  · exact lookup_filter_ne _ _ _

theorem Gone.revoke (h : Gone leaseId buffer st) (id : String) :
    Gone leaseId buffer (st.revoke id).2 := by
  refine ⟨?_, ?_, ?_⟩
  · rw [entry_revoke, h.noEntry, ite_self]
  · unfold SecretStore.revoke
    split
    · exact h.zeroed
    · rename_i entry _
      by_cases hb : buffer = entry.buffer
      · rw [hb]
        exact Function.update_self _ _ _
      · exact (Function.update_of_ne hb _ _).trans h.zeroed
  · unfold SecretStore.revoke
    split
    · exact h.invalidated
    · intro injector hattached
      exact mem_append_left _ (h.invalidated injector hattached)

theorem Kept.revoke_self (h : Kept leaseId buffer expiry st) :
    Gone leaseId buffer (st.revoke leaseId).2 := by
  cases hentry : st.entry leaseId with
  | none => exact (h.gone hentry).revoke leaseId
  | some e =>
    obtain ⟨hbuffer, -, hinjectors⟩ := h.held e hentry
    refine ⟨by rw [entry_revoke, if_pos rfl], ?_, ?_⟩ <;> simp only [SecretStore.revoke, hentry]
    · rw [hbuffer]
      exact Function.update_self _ _ _
    · intro injector hattached
      exact mem_append_right _ (hinjectors injector hattached)

theorem Gone.kept (h : Gone leaseId buffer st) : Kept leaseId buffer expiry st :=
  ⟨fun e he ↦ absurd (h.noEntry.symm.trans he) (by simp), fun _ ↦ h⟩

theorem Kept.revoke (h : Kept leaseId buffer expiry st) (id : String) :
    Kept leaseId buffer expiry (st.revoke id).2 := by
  by_cases hid : leaseId = id
  · subst hid
    exact h.revoke_self.kept
  · have hentry : (st.revoke id).2.entry leaseId = st.entry leaseId := by
      rw [entry_revoke, if_neg hid]
    constructor
    · intro e he
      rw [hentry] at he
      obtain ⟨hbuffer, hexpiry, hinjectors⟩ := h.held e he
      refine ⟨hbuffer, hexpiry, fun injector hattached ↦ hinjectors injector ?_⟩
      unfold SecretStore.revoke at hattached
      split at hattached <;> exact hattached
    · intro hnone
      exact (h.gone (hentry.symm.trans hnone)).revoke id

theorem Kept.revokeAll (ids : List String) : ∀ {st : SecretStore}, Kept leaseId buffer expiry st →
      Kept leaseId buffer expiry (st.revokeAll ids) := by
  induction ids with
  | nil => exact fun h ↦ h
  | cons id _ ih => exact fun h ↦ ih (h.revoke id)

theorem Gone.revokeAll (ids : List String) :
    ∀ {st : SecretStore}, Gone leaseId buffer st → Gone leaseId buffer (st.revokeAll ids) := by
  induction ids with
  | nil => exact fun h ↦ h
  | cons id _ ih => exact fun h ↦ ih (h.revoke id)

theorem Kept.revokeAll_mem {ids : List String} (hmem : leaseId ∈ ids) :
    ∀ {st : SecretStore}, Kept leaseId buffer expiry st →
      Gone leaseId buffer (st.revokeAll ids) := by
  induction ids with
  | nil => exact absurd hmem not_mem_nil
  | cons id ids ih =>
    intro st h
    by_cases hid : leaseId = id
    · subst hid
      exact h.revoke_self.revokeAll ids
    · exact ih ((mem_cons.1 hmem).resolve_left hid) (h.revoke id)

theorem lookup_map_snd (l : List (String × α)) (f : String → α → α) (a : String) :
    (l.map fun e ↦ (e.1, f e.1 e.2)).lookup a = (l.lookup a).map (f a) := by
  induction l with
  | nil => rfl
  | cons e l ih =>
    obtain ⟨k, v⟩ := e
    rw [map_cons, lookup_cons, lookup_cons]
    by_cases ha : a = k
    · subst ha
      simp
    · have : (a == k) = false := by simpa using ha
      rw [this]
      exact ih

theorem entry_attach {e : Entry} (id : String) (injector : Injector)
    (he : st.entry id = some e) :
    (st.attach id injector).entry leaseId = (st.entry leaseId).map fun e ↦
      if leaseId = id then e.append injector else e := by
  have hmap : (fun e : String × Entry ↦ if e.1 = id then (e.1, e.2.append injector) else e) =
      fun e ↦ (e.1, if e.1 = id then e.2.append injector else e.2) := by
    funext e
    split_ifs <;> rfl
  let f : String → Entry → Entry := fun k e ↦ if k = id then e.append injector else e
  rw [SecretStore.attach, he]
  change (st.entries.map _).lookup leaseId = _
  rw [hmap]
  exact lookup_map_snd st.entries f leaseId

theorem Kept.attach (h : Kept leaseId buffer expiry st) (id : String) (injector : Injector) :
    Kept leaseId buffer expiry (st.attach id injector) := by
  cases he : st.entry id with
  | none =>
    have : st.attach id injector = st := by rw [SecretStore.attach, he]
    rwa [this]
  | some =>
    have hattached : (st.attach id injector).attached = st.attached ++ [(id, injector)] := by
      rw [SecretStore.attach, he]
    constructor
    · intro e' he'
      rw [entry_attach id injector he, map_eq_some_iff] at he'
      obtain ⟨e₀, he₀, rfl⟩ := he'
      obtain ⟨hbuffer, hexpiry, hinjectors⟩ := h.held e₀ he₀
      refine ⟨by split_ifs <;> exact hbuffer, by split_ifs <;> exact hexpiry, ?_⟩
      intro i hi
      rw [hattached, mem_append, mem_singleton, Prod.mk.injEq] at hi
      split_ifs with hid
      · refine mem_append.2 (hi.imp (hinjectors i) fun hsame ↦ ?_)
        exact mem_singleton.2 hsame.2
      · exact hinjectors i (hi.resolve_right fun hsame ↦ hid hsame.1)
    · intro hnone
      rw [entry_attach id injector he, map_eq_none_iff] at hnone
      have hgone := h.gone hnone
      have hid : leaseId ≠ id := by
        rintro rfl
        rw [hnone] at he
        cases he
      refine ⟨by rw [entry_attach id injector he, hnone, map_none], ?_, ?_⟩
      · rw [SecretStore.attach, he]
        exact hgone.zeroed
      · intro i hi
        rw [hattached, mem_append, mem_singleton, Prod.mk.injEq] at hi
        have hmem := hgone.invalidated i (hi.resolve_right fun hsame ↦ hid hsame.1)
        rw [SecretStore.attach, he]
        exact hmem

/-! ## Views and sweeps -/

theorem Gone.view (h : Gone leaseId buffer st) (clock : Time) :
    st.view leaseId clock = (.error "LEASE_UNKNOWN", st) := by
  rw [SecretStore.view, h.noEntry]

theorem Kept.view (h : Kept leaseId buffer expiry st) (id : String) (clock : Time) :
    Kept leaseId buffer expiry (st.view id clock).2 := by
  unfold SecretStore.view
  split
  · exact h
  · split_ifs
    · exact h.revoke id
    · exact h

theorem Kept.view_late (h : Kept leaseId buffer expiry st) (hclock : expiry ≤ clock) :
    (st.view leaseId clock).1 = .error "LEASE_UNKNOWN" ∧
      Gone leaseId buffer (st.view leaseId clock).2 := by
  cases he : st.entry leaseId with
  | none =>
    rw [(h.gone he).view clock]
    exact ⟨rfl, h.gone he⟩
  | some e =>
    have hexpiry : e.expiresAtMono ≤ clock := (h.held e he).2.1 ▸ hclock
    rw [SecretStore.view, he]
    dsimp only
    rw [if_pos hexpiry]
    exact ⟨rfl, h.revoke_self⟩

theorem mem_keys_of_lookup {l : List (String × α)} {a : String} {v : α} (h : l.lookup a = some v) :
    (a, v) ∈ l := by
  obtain ⟨l₁, l₂, rfl, -⟩ := lookup_eq_some_iff.1 h
  exact mem_append_right _ mem_cons_self

theorem Kept.expire_late (h : Kept leaseId buffer expiry st) (hclock : expiry ≤ clock) :
    Gone leaseId buffer (st.expire clock) := by
  cases he : st.entry leaseId with
  | none => exact (h.gone he).revokeAll _
  | some e =>
    refine Kept.revokeAll_mem ?_ h
    have hexpiry : e.expiresAtMono ≤ clock := (h.held e he).2.1 ▸ hclock
    exact List.mem_map.2
      ⟨(leaseId, e), mem_filter.2 ⟨mem_keys_of_lookup he, by simpa using hexpiry⟩, rfl⟩

end

/-! ## Runs of the session -/

section

variable {leaseId : String} {buffer : ℕ} {expiry : Time}

theorem Kept.handleAll (items : List Revocation) :
    ∀ {w : Watched}, Kept leaseId buffer expiry w.store →
      Kept leaseId buffer expiry (items.foldl Watched.handle w).store := by
  induction items with
  | nil => exact fun h ↦ h
  | cons item _ ih => exact fun h ↦ ih (w := Watched.handle _ item) (h.revoke item.leaseId)

variable {w : Watched}

theorem Kept.step (h : Kept leaseId buffer expiry w.store) (op : Watched.Op) :
    Kept leaseId buffer expiry (w.step op).store := by
  cases op with
  | attach id injector => exact h.attach id injector
  | view id clock => exact h.view id clock
  | handle revocation => exact h.revoke revocation.leaseId
  | pollOnce items => exact (h.handleAll items).revokeAll _
  | expire => exact h.revokeAll _
  | wipeAll => exact h.revokeAll _

theorem Kept.run (ops : List Watched.Op) : ∀ {w : Watched}, Kept leaseId buffer expiry w.store →
      Kept leaseId buffer expiry (w.run ops).store := by
  induction ops with
  | nil => exact fun h ↦ h
  | cons op _ ih => exact fun h ↦ ih (h.step op)

theorem Gone.handleAll (items : List Revocation) : ∀ {w : Watched}, Gone leaseId buffer w.store →
      Gone leaseId buffer (items.foldl Watched.handle w).store := by
  induction items with
  | nil => exact fun h ↦ h
  | cons item _ ih => exact fun h ↦ ih (w := Watched.handle _ item) (h.revoke item.leaseId)

theorem Gone.step (h : Gone leaseId buffer w.store) (op : Watched.Op) :
    Gone leaseId buffer (w.step op).store := by
  have hkept : Kept leaseId buffer 0 w.store := h.kept
  cases op with
  | attach id injector =>
    refine (hkept.attach id injector).gone ?_
    cases he : w.store.entry id with
    | none =>
      rw [SecretStore.attach, he]
      exact h.noEntry
    | some => rw [entry_attach id injector he, h.noEntry, map_none]
  | view id clock =>
    refine (hkept.view id clock).gone ?_
    unfold SecretStore.view
    split
    · exact h.noEntry
    · split_ifs
      · exact (h.revoke id).noEntry
      · exact h.noEntry
  | handle revocation => exact h.revoke revocation.leaseId
  | pollOnce items => exact (h.handleAll items).revokeAll _
  | expire => exact h.revokeAll _
  | wipeAll => exact h.revokeAll _

theorem Gone.run (ops : List Watched.Op) :
    ∀ {w : Watched}, Gone leaseId buffer w.store → Gone leaseId buffer (w.run ops).store := by
  induction ops with
  | nil => exact fun h ↦ h
  | cons op _ ih => exact fun h ↦ ih (h.step op)

end

/-! ## The session honours its lease -/

/-- What the sidecar owes to a lease once its value is in the store, which is where `w` is: the
value is there under the lease's own identity and not beyond its expiry, and it goes with the first
revocation that names the lease and with the expiry, whatever else happens and in whatever order.
The readings of the store's clock are monotonic, and `boot` makes wall clock readings of them. -/
structure Honours (w : Watched) (boot : Time) (lease : LeaseRow) (value : Bytes) : Prop where
  stored : ∃ e, w.store.entry lease.leaseId.value = some e ∧ e.buffer = valueBuffer ∧
    w.store.buffers valueBuffer = value ∧ boot + e.expiresAtMono ≤ lease.expiresAt
  revoked : ∀ before (revocation : Revocation) after, revocation.leaseId = lease.leaseId.value →
    let w' := w.run (before ++ .handle revocation :: after)
    (∀ clock, (w'.store.view lease.leaseId.value clock).1 = .error "LEASE_UNKNOWN") ∧
      Gone lease.leaseId.value valueBuffer w'.store
  expired : ∀ ops clock, lease.expiresAt ≤ boot + clock → let store := (w.run ops).store
    (store.view lease.leaseId.value clock).1 = .error "LEASE_UNKNOWN" ∧
      Gone lease.leaseId.value valueBuffer (store.view lease.leaseId.value clock).2 ∧
      Gone lease.leaseId.value valueBuffer (store.expire clock)

/-- The expiry that a session stores when the API does not tell it one, as a wall clock reading. -/
def Readings.storedExpiry (r : Readings) : Time :=
  r.boot + (r.put + max (r.answered + defaultTtl - r.session) 0)

theorem entry_stored (lease : ResolvedLease) (r : Readings) (id : String) :
    (lease.stored r).entry id = if id = lease.leaseId then
      some ⟨lease.handle, valueBuffer, r.put + max (lease.expiresAt - r.session) 0, []⟩
    else none := by
  by_cases h : id = lease.leaseId
  · subst h
    simp [ResolvedLease.stored, SecretStore.put, SecretStore.entry, SecretStore.empty]
  · simp [ResolvedLease.stored, SecretStore.put, SecretStore.entry, SecretStore.empty, h]

theorem kept_stored (lease : ResolvedLease) (r : Readings) :
    Kept lease.leaseId valueBuffer (r.put + max (lease.expiresAt - r.session) 0)
      (lease.stored r) := by
  have hentry := entry_stored lease r lease.leaseId
  rw [if_pos rfl] at hentry
  constructor
  · intro e he
    obtain rfl := some.inj (hentry.symm.trans he)
    refine ⟨rfl, rfl, fun injector hattached ↦ ?_⟩
    simp [ResolvedLease.stored, SecretStore.put, SecretStore.entry, SecretStore.empty]
      at hattached
  · intro hnone
    rw [hentry] at hnone
    cases hnone

theorem buffers_stored (lease : ResolvedLease) (r : Readings) :
    (lease.stored r).buffers valueBuffer = lease.value := by
  simp [ResolvedLease.stored, SecretStore.put, SecretStore.entry, SecretStore.empty]

variable {value : Bytes}

theorem Honours.of_kept {w : Watched} {boot expiry : Time} {lease : LeaseRow} (hstored : ∃ e,
    w.store.entry lease.leaseId.value = some e ∧ e.buffer = valueBuffer ∧ w.store.buffers
    valueBuffer = value ∧ boot + e.expiresAtMono ≤ lease.expiresAt)
    (hkept : Kept lease.leaseId.value valueBuffer expiry w.store)
    (hexpiry : boot + expiry ≤ lease.expiresAt) : Honours w boot lease value := by
  refine ⟨hstored, fun before revocation after hnames ↦ ?_, fun ops clock hclock ↦ ?_⟩
  · have hgone : Gone lease.leaseId.value valueBuffer
        (w.run (before ++ .handle revocation :: after)).store := by
      rw [Watched.run_append]
      refine Gone.run after (w := (w.run before).handle revocation) ?_
      rw [Watched.handle, hnames]
      exact (hkept.run before).revoke_self
    exact ⟨fun clock ↦ by rw [hgone.view clock], hgone⟩
  · have hlate : expiry ≤ clock := Int.le_of_add_le_add_left (Int.le_trans hexpiry hclock)
    have h := hkept.run ops
    exact ⟨(h.view_late hlate).1, (h.view_late hlate).2, h.expire_late hlate⟩

theorem openSession_ok {s : Server} {i : SessionInput} (key : String) {agentId : String}
    {lease : LeaseRow}
    (hheader : (i.transport i.request).headers.lookup "Idempotency-Key" = some key)
    (hkey : key ≠ "") (hmay : i.principal.mayLease = true)
    (hagent : i.principal.agentId = some agentId) (hchecks : checks s.tables i.principal.workspaceId
    (i.transport i.request).body.handle ((i.transport i.request).body.context agentId)
    i.readings.server (i.transport i.request).body.purpose = .ok lease)
    (hread : i.readSecretBytes lease.secretRef = .ok value) :
    openSession s i = (.ok ⟨ResolvedLease.stored ⟨answeredId s lease i.readings.server, i.handle,
        i.readings.answered + defaultTtl, value⟩ i.readings, 0, []⟩,
        s.granted lease i.readings.server) := by
  have hresolve : resolve i.readSecretBytes s i.principal.workspaceId
      (i.transport i.request).body.handle ((i.transport i.request).body.context agentId)
      i.readings.server
      (i.transport i.request).body.purpose = (.ok value, s.granted lease i.readings.server) := by
    rw [resolve, hchecks]
    dsimp only
    rw [hread]
  have hsecret : resolveSecret i.readSecretBytes s i.principal (i.transport i.request).body
      i.readings.server = (.ok (answeredId s lease i.readings.server, b64encode value),
        s.granted lease i.readings.server) := by
    rw [resolveSecret, if_neg (by rw [hmay]; decide), hagent]
    dsimp only
    rw [hresolve, answeredId, (handleHash_of_checks hchecks).1]
  rw [openSession, resolveEndpoint, hheader]
  dsimp only
  rw [if_neg hkey, hsecret]
  rfl

/-- For every lease that a session resolves through the API, the session honours the lease exactly
when the handle is still registered when the resolve returns, and the default expiry is not later
than the lease's. -/
theorem session_honours_iff {s s' : Server} {i : SessionInput} {w : Watched}
    (hopen : openSession s i = (.ok w, s')) : ∃ lease ∈ s.tables.leases, ∃ value,
      Resolves i.readSecretBytes s i.principal (i.transport i.request).body i.readings.server
        lease value ∧ (Honours w i.readings.boot lease value ↔
        Registered s lease ∧ i.readings.storedExpiry ≤ lease.expiresAt) := by
  unfold openSession at hopen
  split at hopen
  rename_i answer s₁ hanswer
  obtain ⟨hw, -⟩ := Prod.mk.inj hopen
  cases answer with
  | error => cases hw
  | ok =>
    obtain ⟨lease, value, hres, rfl, rfl, rfl, -⟩ := resolveEndpoint_ok hanswer
    obtain ⟨agentId, hagent, hchecks, hread⟩ := hres
    refine ⟨lease, (handleHash_of_checks hchecks).2.1, value, ⟨agentId, hagent, hchecks, hread⟩, ?_⟩
    set resolved : ResolvedLease := ⟨answeredId s lease i.readings.server, i.handle,
      i.readings.answered + defaultTtl, value⟩ with hresolved
    obtain rfl : ⟨resolved.stored i.readings, 0, []⟩ = w := Except.ok.inj hw
    rw [← answeredId_eq_iff s lease i.readings.server]
    constructor
    · intro h
      obtain ⟨e, he, -, -, hexpiry⟩ := h.stored
      dsimp only at he
      rw [entry_stored] at he
      split_ifs at he with hid
      obtain rfl := some.inj he
      exact ⟨hid.symm, hexpiry⟩
    · rintro ⟨hid, hexpiry⟩
      have hkept := kept_stored resolved i.readings
      have hentry := entry_stored resolved i.readings resolved.leaseId
      rw [if_pos rfl] at hentry
      have hown : resolved.leaseId = lease.leaseId.value := hid
      rw [hown] at hkept hentry
      exact .of_kept ⟨_, hentry, rfl, buffers_stored _ _, hexpiry⟩ hkept hexpiry

/-! ## Two sessions -/

namespace Sample

def handle : String := "sh-0123456789abcdef0123456789abcdef"

def grant : GrantRow :=
  { grantId := "grant-1", workspaceId := "ws", secretRef := "sec-1", agentId := "agent-1",
    taskId := none, action := none, ttlSeconds := 3600, singleUse := true,
    exposureAllowed := false, exposureApprovalId := none, expiresAt := 86400000000,
    revokedAt := none }

def lease (singleUse : Bool) : LeaseRow :=
  { leaseId := ⟨"5f0c"⟩, workspaceId := "ws", grantId := "grant-1", secretRef := "sec-1",
    handleHash := handleHash handle, agentId := "agent-1", taskId := none, action := none,
    workItemId := none, sidecarInstanceId := none, singleUse := singleUse, issuedAt := 0,
    expiresAt := 3600000000, usedAt := none, useCount := 0, revokedAt := none }

def server (singleUse : Bool) : Server where
  tables := { leases := [lease singleUse], grants := [grant], approvals := [] }
  live := ⟨[(handleHash handle, ⟨"5f0c"⟩)]⟩

/-- The transport adds the header that the API requires of every write. -/
def input : SessionInput where
  readSecretBytes := fun _ ↦ .ok [7, 8, 9]
  principal := { workspaceId := "ws", agentId := some "agent-1", mayLease := true }
  config := { instanceId := "sc-1", token := some "token" }
  transport := fun request ↦
    { request with headers := ("Idempotency-Key", "key") :: request.headers }
  handle := handle
  workItem := none
  readings := { server := 1000, answered := 2000, session := 3000, put := 4000, boot := 0 }

def watched (singleUse : Bool) : Watched :=
  ⟨ResolvedLease.stored ⟨answeredId (server singleUse) (lease singleUse) 1000, handle, 300002000,
    [7, 8, 9]⟩ input.readings, 0, []⟩

theorem checks_ok (singleUse : Bool) :
    checks (server singleUse).tables "ws" handle (input.request.body.context "agent-1") 1000
      "adapter" = .ok (lease singleUse) := by
  cases singleUse <;> decide +kernel

theorem opens (singleUse : Bool) : openSession (server singleUse) input =
      (.ok (watched singleUse), (server singleUse).granted (lease singleUse) 1000) :=
  openSession_ok "key" rfl (by decide) rfl rfl (checks_ok singleUse) rfl

end Sample

open Sample

/-- A lease for an hour that may be used more than once. -/
theorem session_honours_shared : ∃ lease ∈ (server false).tables.leases, ∃ value,
      Resolves input.readSecretBytes (server false) input.principal
        (input.transport input.request).body input.readings.server
        lease value ∧
      (Honours (watched false) input.readings.boot lease value ↔ Registered (server false) lease ∧
          input.readings.storedExpiry ≤ lease.expiresAt) :=
  session_honours_iff (opens false)

/-- A lease is answered under the name `"lease"`: after a revocation that names it, the value is
still in the store. -/
theorem single_use_outlives_revocation : openSession (server true) input =
      (.ok (watched true), (server true).granted (Sample.lease true) 1000) ∧
    ¬Honours (watched true) input.readings.boot (Sample.lease true) [7, 8, 9] ∧ (((watched true).run
      [.handle ⟨1, (Sample.lease true).leaseId.value, "TASK_ENDED", "task"⟩]).store.view
        "lease" 5000).1 = .ok [7, 8, 9] := by
  have hid : answeredId (server true) (Sample.lease true) 1000 = "lease" := by decide +kernel
  refine ⟨opens true, fun h ↦ ?_, ?_⟩
  · obtain ⟨e, he, -⟩ := h.stored
    rw [watched, entry_stored, hid, if_neg (Sample.lease true).leaseId.value_ne_lease] at he
    cases he
  · rw [watched, hid]
    decide

end AgentColab.Secrets
