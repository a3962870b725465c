import AgentColab.Ledger.Keys

/-!
# Reconciling a restored database

An exported ledger is the list of its entries. Importing appends the entries that are missing, with
the prefix `RECONCILED:` on the reason and so with a new hash, but with the signature that they had;
then every listed key is shredded. The signed ledger shreds once more whatever its tombstones name.
-/

namespace AgentColab.Ledger

open AgentColab

variable (H : Hashes)

/-- What `import_and_apply` reports. -/
structure ImportReport where
  imported : List String := []
  shredded : List String := []
  alreadyDestroyed : List String := []
  unknown : List String := []

/-- What the tombstone of a missing entry is made of. -/
def TombstoneFields.reconciled (f : TombstoneFields) : TombstoneFields :=
  { f with reason := "RECONCILED:" ++ f.reason }

/-- The tombstone of an entry, unless there is one of its key. -/
def importEntry (e : Entry) (report : ImportReport) (db : KeyDb) :
    Except KeyError (ImportReport × KeyDb) :=
  if isDestroyed db.tombstones e.fields.keyRef then .ok (report, db)
  else do
    let db ← insertTombstone H e.fields.reconciled e.signature e.ledgerKeyId db
    return ({ report with imported := report.imported ++ [e.fields.keyRef] }, db)

/-- The key of an entry ends destroyed, if it is there. -/
def applyEntry (keyRef : String) (now : Time) (report : ImportReport) (db : KeyDb) :
    ImportReport × KeyDb :=
  match db.key? keyRef with
  | none => ({ report with unknown := report.unknown ++ [keyRef] }, db)
  | some row =>
    if row.status = .destroyed then
      ({ report with alreadyDestroyed := report.alreadyDestroyed ++ [keyRef] }, db)
    else
      ({ report with shredded := report.shredded ++ [keyRef] },
        db.shred keyRef fun r ↦ r.destroyedAt.getD now)

/-- The loop of `import_and_apply`. -/
def importAndApply (now : Time) :
    List Entry → ImportReport → KeyDb → Except KeyError (ImportReport × KeyDb)
  | [], report, db => .ok (report, db)
  | e :: es, report, db => do
    let (report, db) ← importEntry H e report db
    let (report, db) := applyEntry e.fields.keyRef now report db
    importAndApply now es report db

/-! ## `reconcile_tombstones` of the signed ledger -/

/-- `ReconcileReport` -/
structure ReconcileReport where
  tombstones : ℕ
  secretVersionsDestroyed : ℕ
  sensitiveKeysDestroyed : ℕ
  problems : List String

def reconcileRow (keyRef : String) (now : Time) (r : KeyRow) : KeyRow :=
  if r.keyRef = keyRef ∧ r.status ≠ .destroyed then r.shred (r.destroyedAt.getD now) else r

@[simp] theorem reconcileRow_keyRef (keyRef : String) (now : Time) (r : KeyRow) :
    (reconcileRow keyRef now r).keyRef = r.keyRef := by
  rw [reconcileRow]
  split <;> rfl

@[simp] theorem reconcileRow_workspaceId (keyRef : String) (now : Time) (r : KeyRow) :
    (reconcileRow keyRef now r).workspaceId = r.workspaceId := by
  rw [reconcileRow]
  split <;> rfl

def reconcileVersion (dekId : String) (now : Time) (v : SecretVersion) : SecretVersion :=
  if v.dekId = dekId ∧ v.status ≠ .destroyed then v.shred (v.destroyedAt.getD now) else v

/-- The two updates for a tombstone. -/
def KeyDb.reconcile (db : KeyDb) (dekId : String) (now : Time) : KeyDb :=
  { db with
    keys := db.keys.map (reconcileRow dekId now)
    versions := db.versions.map (reconcileVersion dekId now)
    keyRefs := by
      have hrefs : (fun r : KeyRow ↦ r.keyRef) ∘ reconcileRow dekId now = (·.keyRef) :=
        funext fun r ↦ reconcileRow_keyRef ..
      rw [List.map_map, hrefs]
      exact db.keyRefs
    keyWorkspaces := List.forall_mem_map.2 fun r hr ↦ by
      rw [reconcileRow_workspaceId]
      exact db.keyWorkspaces r hr }

/-- The counts of the two updates. -/
def KeyDb.live (db : KeyDb) (dekId : String) : ℕ × ℕ :=
  (db.versions.countP fun v ↦ v.dekId = dekId ∧ v.status ≠ .destroyed,
    db.keys.countP fun r ↦ r.keyRef = dekId ∧ r.status ≠ .destroyed)

def reconcileEach (now : Time) : List String → ℕ × ℕ → KeyDb → (ℕ × ℕ) × KeyDb
  | [], counts, db => (counts, db)
  | dekId :: dekIds, counts, db =>
    reconcileEach now dekIds (counts + db.live dekId) (db.reconcile dekId now)

/-- `reconcile_tombstones` -/
def reconcileTombstones (key : Option LedgerKey) (now : Time) (db : KeyDb) :
    Except KeyError (ReconcileReport × KeyDb) :=
  match verifyChain H key db.tombstones with
  | .error e => .error (.ledger e)
  | .ok problems =>
    let (counts, db') := reconcileEach now (db.tombstones.map (·.fields.keyRef)) (0, 0) db
    .ok (⟨db'.tombstones.length, counts.1, counts.2, problems⟩, db')

/-- `Ledger.reconcile_tombstones`: the signed ledger if there is a key, else the local one. -/
def Book.reconcile (book : Option LedgerKey) (entries : List Entry) (now : Time) (db : KeyDb) :
    Except KeyError ((ImportReport × Option ReconcileReport) × KeyDb) := do
  let (report, db) ← importAndApply H now entries {} db
  match book with
  | none => return ((report, none), db)
  | some key =>
    let (signed, db) ← reconcileTombstones H (some key) now db
    return ((report, some signed), db)

/-- `export_ledger` -/
def exportLedger (db : KeyDb) : List Entry := db.tombstones

end AgentColab.Ledger
