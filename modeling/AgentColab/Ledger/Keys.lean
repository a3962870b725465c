import AgentColab.Ledger.Tombstones

/-!
# Data keys and their destruction

A data key encrypts the sensitive content of one target. It is stored wrapped by the master key;
destroying it removes the wrapped key and appends a tombstone. A restored backup may have wrapped
keys that were destroyed since, so the exported ledger is imported into it, and every key that it
names is destroyed again.

AES-GCM is a parameter, and random bytes are arguments.
-/

namespace AgentColab.Ledger

open AgentColab List

abbrev Bytes := List UInt8

/-- `AESGCM(key).encrypt(nonce, data, aad)` and `decrypt`, which fails on an invalid tag. -/
structure Aead where
  encrypt : Bytes → Bytes → Bytes → Bytes → Bytes
  decrypt : Bytes → Bytes → Bytes → Bytes → Option Bytes

/-! ## Tables -/

inductive KeyStatus where
  | active
  | destroyed
deriving DecidableEq

/-- A row of `sensitive_keys`. -/
structure KeyRow where
  keyRef : String
  workspaceId : Uuid
  targetType : String
  targetId : String
  wrappedDek : Option Bytes
  masterKeyId : String
  status : KeyStatus
  destroyedAt : Option Time := none
  check : status = .destroyed ↔ wrappedDek = none

/-- A row of `secret_versions`, without its ciphertext. -/
structure SecretVersion where
  dekId : String
  wrappedDek : Option Bytes
  status : KeyStatus
  destroyedAt : Option Time := none
  check : status = .destroyed ↔ wrappedDek = none

structure KeyDb where
  workspaces : List Uuid := []
  accounts : List Uuid := []
  keys : List KeyRow := []
  tombstones : List Entry := []
  versions : List SecretVersion := []
  keyRefs : (keys.map (·.keyRef)).Nodup := by exact List.nodup_nil
  keyWorkspaces : ∀ k ∈ keys, k.workspaceId ∈ workspaces := by exact nofun
  tombstoneRefs : (tombstones.map (·.fields.keyRef)).Nodup := by exact List.nodup_nil
  requesters : ∀ e ∈ tombstones, e.fields.requestedBy ∈ accounts := by exact nofun

inductive KeyError where
  /-- A `CryptoError`. -/
  | crypto (code detail : String)
  | ledger (e : LedgerError)
  /-- The tag of a ciphertext does not fit. -/
  | invalidTag
  | value
  | canonical
  | integrity (constraint : String)

def KeyDb.key? (db : KeyDb) (keyRef : String) : Option KeyRow := db.keys.find? (·.keyRef = keyRef)

/-! ## Statements -/

def KeyRow.shred (r : KeyRow) (destroyedAt : Time) : KeyRow :=
  { r with
    wrappedDek := none
    status := .destroyed
    destroyedAt := some destroyedAt
    check := ⟨fun _ ↦ rfl, fun _ ↦ rfl⟩ }

def SecretVersion.shred (v : SecretVersion) (destroyedAt : Time) : SecretVersion :=
  { v with
    wrappedDek := none
    status := .destroyed
    destroyedAt := some destroyedAt
    check := ⟨fun _ ↦ rfl, fun _ ↦ rfl⟩ }

def shredRow (keyRef : String) (destroyedAt : KeyRow → Time) (r : KeyRow) : KeyRow :=
  if r.keyRef = keyRef then r.shred (destroyedAt r) else r

@[simp] theorem shredRow_keyRef (keyRef : String) (destroyedAt : KeyRow → Time) (r : KeyRow) :
    (shredRow keyRef destroyedAt r).keyRef = r.keyRef := by
  rw [shredRow]
  split <;> rfl

@[simp] theorem shredRow_workspaceId (keyRef : String) (destroyedAt : KeyRow → Time) (r : KeyRow) :
    (shredRow keyRef destroyedAt r).workspaceId = r.workspaceId := by
  rw [shredRow]
  split <;> rfl

namespace KeyDb

def insertKey (db : KeyDb) (row : KeyRow) : Except KeyError KeyDb :=
  if href : row.keyRef ∈ db.keys.map (·.keyRef) then .error (.integrity "sensitive_keys_pkey")
  else if hws : row.workspaceId ∈ db.workspaces then
    .ok { db with
      keys := db.keys ++ [row]
      keyRefs := by
        rw [map_append, map_singleton, nodup_append_comm]
        exact nodup_cons.2 ⟨href, db.keyRefs⟩
      keyWorkspaces := forall_mem_append.2 ⟨db.keyWorkspaces, forall_mem_singleton.2 hws⟩ }
  else .error (.integrity "sensitive_keys_workspace_id_fkey")

def shred (db : KeyDb) (keyRef : String) (destroyedAt : KeyRow → Time) : KeyDb :=
  { db with
    keys := db.keys.map (shredRow keyRef destroyedAt)
    keyRefs := by
      have hrefs : (fun r : KeyRow ↦ r.keyRef) ∘ shredRow keyRef destroyedAt = (·.keyRef) :=
        funext fun r ↦ shredRow_keyRef ..
      rw [List.map_map, hrefs]
      exact db.keyRefs
    keyWorkspaces := List.forall_mem_map.2 fun r hr ↦ by
      rw [shredRow_workspaceId]
      exact db.keyWorkspaces r hr }

def insertTombstone (db : KeyDb) (e : Entry) : Except KeyError KeyDb :=
  if href : e.fields.keyRef ∈ db.tombstones.map (·.fields.keyRef) then
    .error (.integrity "key_tombstones_key_ref_key")
  else if hby : e.fields.requestedBy ∈ db.accounts then
    .ok { db with
      tombstones := db.tombstones ++ [e]
      tombstoneRefs := by
        rw [map_append, map_singleton, nodup_append_comm]
        exact nodup_cons.2 ⟨href, db.tombstoneRefs⟩
      requesters := forall_mem_append.2 ⟨db.requesters, forall_mem_singleton.2 hby⟩ }
  else .error (.integrity "key_tombstones_requested_by_fkey")

end KeyDb

/-! ## `EnvelopeCrypto` -/

structure MasterKey where
  keyId : String
  key : Bytes

/-- The random bytes of a call: a new key, and the nonces of the wrapping and of the payload. -/
structure Random where
  dek : Bytes
  wrapNonce : Bytes
  nonce : Bytes

structure Target where
  workspaceId : String
  targetType : String
  targetId : String

/-- `key_ref_for` -/
def Target.keyRef (t : Target) : String :=
  "dek://" ++ t.workspaceId ++ "/" ++ t.targetType ++ "/" ++ t.targetId

def utf8 (s : String) : Bytes := s.toUTF8.data.toList

section Envelope

variable (A : Aead) (master : MasterKey)

/-- `_wrap` -/
def wrap (nonce dek : Bytes) (keyRef : String) : Bytes :=
  nonce ++ A.encrypt master.key nonce dek (utf8 keyRef)

/-- `_unwrap` -/
def unwrap (wrapped : Bytes) (keyRef : String) : Except KeyError Bytes :=
  match A.decrypt master.key (wrapped.take 12) (wrapped.drop 12) (utf8 keyRef) with
  | some dek => .ok dek
  | none => .error .invalidTag

/-- `ensure_dek` -/
def ensureDek (rnd : Random) (t : Target) (db : KeyDb) : Except KeyError (Bytes × KeyDb) :=
  match db.key? t.keyRef with
  | some row =>
    match row.wrappedDek with
    | none => .error (.crypto "KEY_DESTROYED" t.keyRef)
    | some wrapped => do
      let dek ← unwrap A master wrapped t.keyRef
      return (dek, db)
  | none =>
    match parseUuid t.workspaceId with
    | none => .error .value
    | some workspaceId => do
      let db ← db.insertKey {
        keyRef := t.keyRef
        workspaceId := workspaceId
        targetType := t.targetType
        targetId := t.targetId
        wrappedDek := some (wrap A master rnd.wrapNonce rnd.dek t.keyRef)
        masterKeyId := master.keyId
        status := .active
        check := ⟨nofun, nofun⟩ }
      return (rnd.dek, db)

/-- `encrypt` -/
def encrypt (rnd : Random) (t : Target) (plaintext : Json) (db : KeyDb) :
    Except KeyError (Bytes × KeyDb) := do
  let (dek, db) ← ensureDek A master rnd t db
  match canonicalJson plaintext with
  | .error _ => .error .canonical
  | .ok bytes => return (rnd.nonce ++ A.encrypt dek rnd.nonce bytes (utf8 t.keyRef), db)

/-- `decrypt`, up to the bytes that `json.loads` reads. -/
def decrypt (keyRef : String) (ciphertext : Bytes) (db : KeyDb) : Except KeyError Bytes :=
  match db.key? keyRef with
  | none => .error (.crypto "KEY_UNKNOWN" keyRef)
  | some row =>
    match row.wrappedDek with
    | none => .error (.crypto "KEY_DESTROYED" keyRef)
    | some wrapped => do
      let dek ← unwrap A master wrapped keyRef
      match A.decrypt dek (ciphertext.take 12) (ciphertext.drop 12) (utf8 keyRef) with
      | some plain => .ok plain
      | none => .error .invalidTag

end Envelope

section Destruction

variable (H : Hashes)

/-- `_insert_tombstone` -/
def insertTombstone (fields : TombstoneFields) (signature ledgerKeyId : Option String)
    (db : KeyDb) : Except KeyError KeyDb :=
  match chainHash H fields (lastHash db.tombstones) with
  | .error e => .error (.ledger e)
  | .ok contentHash =>
    db.insertTombstone ⟨fields, lastHash db.tombstones, contentHash, signature, ledgerKeyId⟩

/-- The clocks of a call: of the database, and of the service. -/
structure Clocks where
  now : Time
  clock : DateTime

/-- `EnvelopeCrypto.destroy`, which does not sign. -/
def destroy (keyRef requestedBy reason : String) (auditEventId : Option String) (t : Clocks)
    (db : KeyDb) : Except KeyError KeyDb :=
  match db.key? keyRef with
  | none => .error (.crypto "KEY_UNKNOWN" keyRef)
  | some row =>
    if row.status = .destroyed then .error (.crypto "KEY_ALREADY_DESTROYED" keyRef)
    else
      match parseUuid requestedBy with
      | none => .error .value
      | some by' =>
        insertTombstone H
          ⟨keyRef, row.workspaceId, row.targetType, row.targetId, reason, by', auditEventId,
            t.clock⟩
          none none (db.shred keyRef fun _ ↦ t.now)

/-- `shred_key`: the target of the key, or nothing if it is destroyed already. -/
def shredKey (keyRef : String) (now : Time) (db : KeyDb) :
    Except KeyError (Option KeyRow × KeyDb) :=
  match db.key? keyRef with
  | none => .error (.crypto "KEY_UNKNOWN" keyRef)
  | some row =>
    if row.status = .destroyed then .ok (none, db)
    else .ok (some row, db.shred keyRef fun _ ↦ now)

/-- `Ledger.record_tombstone`: of the signed ledger if there is a key, else of the local one. -/
def Book.recordTombstone (book : Option LedgerKey) (fields : TombstoneFields) (db : KeyDb) :
    Except KeyError KeyDb :=
  match book with
  | none => insertTombstone H fields none none db
  | some key =>
    if isDestroyed db.tombstones fields.keyRef then
      .error (.ledger (.secret "SECRET_HANDLE_REVOKED" (fields.keyRef ++ " already tombstoned")))
    else
      match chainHash H fields (lastHash db.tombstones) with
      | .error e => .error (.ledger e)
      | .ok contentHash => db.insertTombstone ⟨fields, lastHash db.tombstones, contentHash,
          some (signEntry H key contentHash), some key.keyId⟩

/-- The tombstone of a key that was shredded just now. -/
def bury (book : Option LedgerKey) (reason : String) (requestedBy : Uuid) (t : Clocks)
    (target : Option KeyRow) (db : KeyDb) : Except KeyError KeyDb :=
  match target with
  | none => .ok db
  | some row => Book.recordTombstone H book
      ⟨row.keyRef, row.workspaceId, row.targetType, row.targetId, reason, requestedBy, none,
        t.clock⟩
      db

/-- The loop of `_destroy_keys`. -/
def destroyKeys (book : Option LedgerKey) (reason : String) (requestedBy : Uuid) (t : Clocks) :
    List String → KeyDb → Except KeyError KeyDb
  | [], db => .ok db
  | keyRef :: keyRefs, db => do
    let (target, db) ← shredKey keyRef t.now db
    let db ← bury H book reason requestedBy t target db
    destroyKeys book reason requestedBy t keyRefs db

end Destruction

end AgentColab.Ledger
