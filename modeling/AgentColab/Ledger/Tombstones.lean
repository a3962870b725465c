import AgentColab.Events.AuditChain

/-!
# The signed ledger of key tombstones

Every data key that is destroyed leaves a tombstone. The tombstones are a hash chain, and an entry
that is recorded with a ledger key also carries its id and the MAC of the hash.

Verification recomputes every hash, and checks a signature only where the entry names the key that
it was given. SHA-256 and HMAC are parameters. `str.encode` is UTF-8, and `hmac.compare_digest`
takes ASCII texts only.
-/

namespace AgentColab.Ledger

open AgentColab List Option

deriving instance DecidableEq for DateTime

/-! ## Entries -/

structure TombstoneFields where
  keyRef : String
  workspaceId : Uuid
  targetType : String
  targetId : String
  reason : String
  requestedBy : Uuid
  auditEventId : Option String := none
  destroyedAt : DateTime

def TombstoneFields.hashedRowFields (f : TombstoneFields) : List (String × Json) :=
  [("key_ref", .str f.keyRef), ("workspace_id", .str f.workspaceId.text),
    ("target_type", .str f.targetType), ("target_id", .str f.targetId), ("reason", .str f.reason),
    ("requested_by", .str f.requestedBy.text), ("audit_event_id", .ofOption f.auditEventId),
    ("destroyed_at", .str f.destroyedAt.isoformat)]

/-- `TOMBSTONE_CHAIN` -/
def tombstoneChain : ChainSpec TombstoneFields where
  table := "key_tombstones"
  hashedFields := ["key_ref", "workspace_id", "target_type", "target_id", "reason", "requested_by",
    "audit_event_id", "destroyed_at"]
  chainName := "key_tombstones"
  hashedRowFields := TombstoneFields.hashedRowFields
  Written := fun _ ↦ True
  stored := id
  keys := fun _ ↦ rfl
  nodup := by decide

/-- A row of `key_tombstones`. The table is the list of its rows in the order of their ids, which
nothing else reads. -/
structure Entry where
  fields : TombstoneFields
  previousHash : Option String
  contentHash : String
  signature : Option String := none
  ledgerKeyId : Option String := none

def Entry.row (e : Entry) : ChainRow TombstoneFields := ⟨0, e.fields, e.previousHash, e.contentHash⟩

/-- `LedgerKey` -/
structure LedgerKey where
  keyId : String
  key : List UInt8

structure Hashes where
  sha256 : Digest
  hmac : List UInt8 → Digest

inductive LedgerError where
  /-- A `SecretError`. -/
  | secret (code detail : String)
  | canonical
  /-- `hmac.compare_digest` of a text that is not ASCII. -/
  | type
deriving DecidableEq

variable (H : Hashes)

/-- `sign_entry` -/
def signEntry (key : LedgerKey) (contentHash : String) : String :=
  H.hmac key.key contentHash.toUTF8.data.toList

/-- `chain_hash` of a tombstone. -/
def chainHash (fields : TombstoneFields) (previous : Option String) : Except LedgerError String :=
  (tombstoneChain.chainHash H.sha256 fields previous).mapError fun _ ↦ .canonical

/-- `last_hash` -/
def lastHash (ledger : List Entry) : Option String := ledger.getLast?.map (·.contentHash)

/-- Whether the ledger has a tombstone of the key, `is_destroyed`. -/
def isDestroyed (ledger : List Entry) (dekId : String) : Bool :=
  ledger.any (·.fields.keyRef = dekId)

/-- `record_tombstone` -/
def recordTombstone (key : LedgerKey) (ledger : List Entry) (fields : TombstoneFields) :
    Except LedgerError (List Entry) :=
  if isDestroyed ledger fields.keyRef then
    .error (.secret "SECRET_HANDLE_REVOKED" (fields.keyRef ++ " already tombstoned"))
  else do
    let contentHash ← chainHash H fields (lastHash ledger)
    return ledger ++ [⟨fields, lastHash ledger, contentHash, some (signEntry H key contentHash),
      some key.keyId⟩]

/-! ## Verification -/

/-- `hmac.compare_digest` of two texts. -/
def compareDigest (a b : String) : Except LedgerError Bool :=
  if a.toList.all (·.toNat < 128) && b.toList.all (·.toNat < 128) then .ok (a = b)
  else .error .type

def signatureProblems (key : Option LedgerKey) (e : Entry) : Except LedgerError (List String) :=
  match key with
  | none => .ok []
  | some key =>
    if e.ledgerKeyId = some key.keyId then
      match e.signature.filter (· ≠ "") with
      | none => .ok [e.fields.keyRef ++ ": signature invalid"]
      | some signature => do
        let same ← compareDigest signature (signEntry H key e.contentHash)
        return if same then [] else [e.fields.keyRef ++ ": signature invalid"]
    else .ok []

/-- The loop of `verify_chain`. -/
def verifyChainFrom (key : Option LedgerKey) (previous : Option String) :
    List Entry → Except LedgerError (List String)
  | [] => .ok []
  | e :: es => do
    let expected ← chainHash H e.fields previous
    let signature ← signatureProblems H key e
    let rest ← verifyChainFrom key (some e.contentHash) es
    return (if e.previousHash = previous then [] else [e.fields.keyRef ++ ": broken link"]) ++
      (if e.contentHash = expected then [] else [e.fields.keyRef ++ ": hash mismatch"]) ++
      signature ++ rest

/-- `verify_chain` -/
def verifyChain (key : Option LedgerKey) (ledger : List Entry) : Except LedgerError (List String) :=
  verifyChainFrom H key none ledger

/-! ## What verification decides -/

variable {H}

theorem exists_chainHash (fields : TombstoneFields) (previous : Option String) :
    ∃ hash, tombstoneChain.chainHash H.sha256 fields previous = .ok hash := by
  have hfinite : (Json.obj (tombstoneChain.hashedRowFields fields ++
      [("previous_hash", .ofOption previous)])).isFinite = true := by
    simp [tombstoneChain, TombstoneFields.hashedRowFields, Json.isFinite, Json.All, allMembers]
  rw [ChainSpec.chainHash, canonicalJson, if_pos hfinite]
  exact ⟨_, rfl⟩

variable {previous : Option String} {key : Option LedgerKey}

theorem chainHash_eq_ok {fields : TombstoneFields} {hash : String} :
    chainHash H fields previous = .ok hash ↔
      tombstoneChain.chainHash H.sha256 fields previous = .ok hash := by
  obtain ⟨hash', hhash⟩ := exists_chainHash (H := H) fields previous
  rw [chainHash, hhash]
  simp [Except.mapError]

def Entry.Signed (H : Hashes) (key : LedgerKey) (e : Entry) : Prop :=
  e.signature = some (signEntry H key e.contentHash)

theorem signatureProblems_eq_nil {key : LedgerKey} {e : Entry}
    (h : signatureProblems H (some key) e = .ok []) (hkey : e.ledgerKeyId = some key.keyId) :
    e.Signed H key := by
  simp only [signatureProblems, if_pos hkey] at h
  cases hsig : e.signature.filter (· ≠ "") with
  | none =>
    rw [hsig] at h
    cases h
  | some signature =>
    rw [hsig] at h
    dsimp only [compareDigest] at h
    split at h
    · by_cases hsame : signature = signEntry H key e.contentHash
      · rw [Entry.Signed, ← hsame]
        exact (filter_eq_some_iff.1 hsig).1
      · simp [hsame, bind, Except.bind, pure, Except.pure] at h
    · cases h

theorem verifyChainFrom_eq_nil {es : List Entry} : verifyChainFrom H key previous es = .ok [] ↔
      Chained H.sha256 tombstoneChain previous (es.map Entry.row) ∧
        ∀ e ∈ es, signatureProblems H key e = .ok [] := by
  induction es generalizing previous with
  | nil => simp [verifyChainFrom, Chained]
  | cons e es ih =>
    obtain ⟨expected, hexpected⟩ := exists_chainHash (H := H) e.fields previous
    have hhash : tombstoneChain.chainHash H.sha256 e.row.fields previous = .ok expected := hexpected
    rw [verifyChainFrom, chainHash_eq_ok.2 hexpected, map_cons, Chained, hhash, forall_mem_cons]
    cases hsig : signatureProblems H key e with
    | error => simp [bind, Except.bind]
    | ok =>
      cases hrest : verifyChainFrom H key (some e.contentHash) es with
      | error =>
        have hnot : ¬(Chained H.sha256 tombstoneChain (some e.contentHash) (es.map Entry.row) ∧
            ∀ e ∈ es, signatureProblems H key e = .ok []) := fun h ↦ by
          rw [ih.2 h] at hrest
          cases hrest
        simp only [bind, Except.bind, reduceCtorEq, false_iff]
        exact fun h ↦ hnot ⟨h.1.2.2, h.2.2⟩
      | ok rest =>
        have hrest' : rest = [] ↔
            Chained H.sha256 tombstoneChain (some e.contentHash) (es.map Entry.row) ∧
              ∀ e ∈ es, signatureProblems H key e = .ok [] := by
          rw [← ih, hrest, Except.ok.injEq]
        simp only [bind, Except.bind, pure, Except.pure, Except.ok.injEq, append_eq_nil_iff,
          ite_eq_left_iff, cons_ne_nil, imp_false, not_not, hrest', Entry.row]
        tauto

theorem verifyChain_eq_nil {ledger : List Entry} : verifyChain H key ledger = .ok [] ↔
      Chained H.sha256 tombstoneChain none (ledger.map Entry.row) ∧
        ∀ e ∈ ledger, signatureProblems H key e = .ok [] := verifyChainFrom_eq_nil

theorem TombstoneFields.eq_of_agree {f g : TombstoneFields} (h : tombstoneChain.Agree f g) :
    f = g := by
  simp only [ChainSpec.Agree, tombstoneChain, hashedRowFields, canonMembers, List.cons.injEq,
    Prod.mk.injEq, Json.canon, Canon.str.injEq, canon_ofOption_inj, true_and, and_true] at h
  obtain ⟨h₁, h₂, h₃, h₄, h₅, h₆, h₇, h₈⟩ := h
  have hws := some.inj (map_text_inj (congrArg some h₂))
  have hby := some.inj (map_text_inj (congrArg some h₆))
  cases f
  cases g
  simp only at h₁ hws h₃ h₄ h₅ hby h₇ h₈
  rw [h₁, hws, h₃, h₄, h₅, hby, h₇, DateTime.isoformat_inj h₈]

end AgentColab.Ledger
