import AgentColab.Ledger.Forgery
import AgentColab.Ledger.Reconcile

/-!
# Destroyed keys and their targets

Keys are made on the first use, destroyed one by one, and come back with a restored backup; the
ledger can be imported into any database. A key whose row is there and whose tombstone is in the
ledger is destroyed in every state.

But `ensure_dek` does not look at the ledger: where the tombstone is there and the row is not, it
makes a new key.
-/

namespace AgentColab.Ledger

open AgentColab List
open Except (ok)

/-! ## Histories -/

/-- The database and the backups that were taken of it. -/
structure KeyWorld where
  db : KeyDb
  backups : List KeyDb := []

inductive KeyOp where
  | ensureDek (rnd : Random) (t : Target)
  | encrypt (rnd : Random) (t : Target) (plaintext : Json)
  | destroy (keyRef requestedBy reason : String) (auditEventId : Option String) (t : Clocks)
  /-- `_destroy_keys` of a hard delete. -/
  | hardDelete (book : Option LedgerKey) (reason : String) (requestedBy : Uuid) (t : Clocks)
      (keyRefs : List String)
  | workspace (id : Uuid)
  | account (id : Uuid)
  | version (v : SecretVersion)
  | backup
  | restore (n : ℕ)
  /-- An exported ledger is imported and applied. -/
  | reconcile (book : Option LedgerKey) (entries : List Entry) (now : Time)
  | reconcileTombstones (key : Option LedgerKey) (now : Time)

def KeyDb.addWorkspace (db : KeyDb) (id : Uuid) : KeyDb :=
  { db with
    workspaces := db.workspaces ++ [id]
    keyWorkspaces := fun k hk ↦ mem_append_left _ (db.keyWorkspaces k hk) }

def KeyDb.addAccount (db : KeyDb) (id : Uuid) : KeyDb :=
  { db with
    accounts := db.accounts ++ [id]
    requesters := fun e he ↦ mem_append_left _ (db.requesters e he) }

/-- A transaction that fails is rolled back. -/
def KeyWorld.commit {α : Type} (w : KeyWorld) (x : Except KeyError α) (db : α → KeyDb) : KeyWorld :=
  match x with
  | .ok a => { w with db := db a }
  | .error _ => w

variable (H : Hashes) (A : Aead) (master : MasterKey)

def KeyWorld.step (w : KeyWorld) : KeyOp → KeyWorld
  | .ensureDek rnd t => w.commit (Ledger.ensureDek A master rnd t w.db) Prod.snd
  | .encrypt rnd t plaintext => w.commit (Ledger.encrypt A master rnd t plaintext w.db) Prod.snd
  | .destroy keyRef requestedBy reason auditEventId t =>
    w.commit (Ledger.destroy H keyRef requestedBy reason auditEventId t w.db) id
  | .hardDelete book reason requestedBy t keyRefs =>
    w.commit (destroyKeys H book reason requestedBy t keyRefs w.db) id
  | .workspace id => { w with db := w.db.addWorkspace id }
  | .account id => { w with db := w.db.addAccount id }
  | .version v => { w with db := { w.db with versions := w.db.versions ++ [v] } }
  | .backup => { w with backups := w.backups ++ [w.db] }
  | .restore n => { w with db := (w.backups[n]?).getD w.db }
  | .reconcile book entries now => w.commit (Book.reconcile H book entries now w.db) Prod.snd
  | .reconcileTombstones key now =>
    w.commit (Ledger.reconcileTombstones H key now w.db) Prod.snd

/-- The worlds that are reached from a world by steps that satisfy `C`. -/
inductive Reached (C : KeyWorld → KeyOp → Prop) (w₀ : KeyWorld) : KeyWorld → Prop
  | refl : Reached C w₀ w₀
  | step {w : KeyWorld} (op : KeyOp) (hw : Reached C w₀ w) (hop : C w op) :
      Reached C w₀ (w.step H A master op)

variable {H A master}

/-! ## The rows of tombstoned keys -/

/-- Every row whose key has a tombstone is destroyed. -/
def KeyDb.Dead (db : KeyDb) : Prop :=
  ∀ row ∈ db.keys, isDestroyed db.tombstones row.keyRef = true → row.status = .destroyed

def KeyDb.Shredded (db : KeyDb) (keyRef : String) : Prop :=
  ∀ row ∈ db.keys, row.keyRef = keyRef → row.status = .destroyed

variable {e : Entry} {keyRef reason : String} {db db' : KeyDb} {r row : KeyRow}
    {fields : TombstoneFields} {now : Time} {book : Option LedgerKey} {t : Target}
    {report : ImportReport} {p : ImportReport × KeyDb} {es : List Entry} {w : KeyWorld}

theorem isDestroyed_append {ledger : List Entry} : isDestroyed (ledger ++ [e]) keyRef = true ↔
      isDestroyed ledger keyRef = true ∨ e.fields.keyRef = keyRef := by
  simp [isDestroyed]

theorem mem_of_key? (h : db.key? keyRef = some row) : row ∈ db.keys ∧ row.keyRef = keyRef := by
  have hfind : db.keys.find? (·.keyRef = keyRef) = some row := h
  exact ⟨mem_of_find?_eq_some hfind, by simpa using List.find?_some hfind⟩

theorem eq_of_key? (h : db.key? keyRef = some row) (hr : r ∈ db.keys) (href : r.keyRef = keyRef) :
    r = row := by
  obtain ⟨hrow, hkey⟩ := mem_of_key? h
  exact inj_on_of_nodup_map db.keyRefs hr hrow (href.trans hkey.symm)

theorem key?_eq_none : db.key? keyRef = none ↔ ∀ row ∈ db.keys, row.keyRef ≠ keyRef := by
  simp [KeyDb.key?]

theorem insertKey_eq_ok (h : db.insertKey row = .ok db') :
    db'.keys = db.keys ++ [row] ∧ db'.tombstones = db.tombstones := by
  rw [KeyDb.insertKey] at h
  split at h
  · cases h
  · split at h
    · obtain rfl := ok.inj h
      exact ⟨rfl, rfl⟩
    · cases h

theorem KeyDb.insertTombstone_eq_ok (h : db.insertTombstone e = .ok db') :
    db'.tombstones = db.tombstones ++ [e] ∧
      db'.keys = db.keys ∧ db'.versions = db.versions ∧ db'.accounts = db.accounts := by
  rw [KeyDb.insertTombstone] at h
  split at h
  · cases h
  · split at h
    · obtain rfl := ok.inj h
      exact ⟨rfl, rfl, rfl, rfl⟩
    · cases h

theorem insertTombstone_eq_ok {signature ledgerKeyId : Option String}
    (h : insertTombstone H fields signature ledgerKeyId db = .ok db') :
    ∃ hash, tombstoneChain.chainHash H.sha256 fields (lastHash db.tombstones) = .ok hash ∧
      db'.tombstones =
        db.tombstones ++ [⟨fields, lastHash db.tombstones, hash, signature, ledgerKeyId⟩] ∧
      db'.keys = db.keys ∧ db'.versions = db.versions ∧ db'.accounts = db.accounts := by
  obtain ⟨hash, hhash⟩ := exists_chainHash (H := H) fields (lastHash db.tombstones)
  rw [insertTombstone, chainHash_eq_ok.2 hhash] at h
  exact ⟨hash, hhash, KeyDb.insertTombstone_eq_ok h⟩

theorem shred_shredded (db : KeyDb) (keyRef : String) (t : KeyRow → Time) :
    (db.shred keyRef t).Shredded keyRef := by
  refine List.forall_mem_map.2 fun r _ href ↦ ?_
  rw [shredRow_keyRef] at href
  rw [shredRow, if_pos href]
  rfl

theorem shredRow_status {t : KeyRow → Time} (h : r.status = .destroyed) :
    (shredRow keyRef t r).status = .destroyed := by
  rw [shredRow]
  split
  · rfl
  · exact h

theorem reconcileRow_status (h : r.status = .destroyed) :
    (reconcileRow keyRef now r).status = .destroyed := by
  rw [reconcileRow]
  split
  · rfl
  · exact h

theorem KeyDb.Dead.shred (h : db.Dead) (keyRef : String) (t : KeyRow → Time) :
    (db.shred keyRef t).Dead :=
  List.forall_mem_map.2 fun r hr hdead ↦
    shredRow_status (h r hr (by rwa [shredRow_keyRef] at hdead))

theorem KeyDb.Dead.bury (h : db.Dead) (hshredded : db.Shredded e.fields.keyRef)
    (hkeys : db'.keys = db.keys) (htombstones : db'.tombstones = db.tombstones ++ [e]) :
    db'.Dead := by
  intro row hrow hdead
  rw [hkeys] at hrow
  rw [htombstones, isDestroyed_append] at hdead
  rcases hdead with hdead | href
  · exact h row hrow hdead
  · exact hshredded row hrow href.symm

theorem recordTombstone_dead (h : Book.recordTombstone H book fields db = .ok db') (hdead : db.Dead)
    (hshredded : db.Shredded fields.keyRef) : db'.Dead := by
  cases book with
  | none =>
    obtain ⟨hash, -, htombstones, hkeys, -⟩ := insertTombstone_eq_ok h
    exact hdead.bury hshredded hkeys htombstones
  | some =>
    obtain ⟨hash, hhash⟩ := exists_chainHash (H := H) fields (lastHash db.tombstones)
    rw [Book.recordTombstone] at h
    split at h
    · cases h
    · rw [chainHash_eq_ok.2 hhash] at h
      obtain ⟨htombstones, hkeys, -⟩ := KeyDb.insertTombstone_eq_ok h
      exact hdead.bury hshredded hkeys htombstones

/-! ## Each function -/

theorem ensureDek_dead {rnd : Random} {dek : Bytes}
    (h : ensureDek A master rnd t db = .ok (dek, db')) (hdead : db.Dead)
    (hnew : ¬(isDestroyed db.tombstones t.keyRef = true ∧ db.key? t.keyRef = none)) : db'.Dead := by
  rw [ensureDek] at h
  split at h
  · split at h
    · cases h
    · rename_i wrapped _
      cases hunwrap : unwrap A master wrapped t.keyRef with
      | error =>
        rw [hunwrap] at h
        cases h
      | ok =>
        rw [hunwrap] at h
        obtain ⟨-, rfl⟩ := Prod.mk.inj (ok.inj h)
        exact hdead
  · rename_i hnone
    split at h
    · cases h
    · rename_i workspaceId _
      generalize hrow : KeyRow.mk _ _ _ _ _ _ _ _ _ = row at h
      cases hins : db.insertKey row with
      | error =>
        rw [hins] at h
        cases h
      | ok =>
        rw [hins] at h
        obtain ⟨-, rfl⟩ := Prod.mk.inj (ok.inj h)
        obtain ⟨hkeys, htombstones⟩ := insertKey_eq_ok hins
        intro r hr hdestroyed
        rw [hkeys, mem_append, mem_singleton] at hr
        rw [htombstones] at hdestroyed
        rcases hr with hr | rfl
        · exact hdead r hr hdestroyed
        · rw [← hrow] at hdestroyed
          exact absurd ⟨hdestroyed, hnone⟩ hnew

theorem ensureDek_of_tombstone {rnd : Random} (hdead : db.Dead)
    (htombstone : isDestroyed db.tombstones t.keyRef = true)
    (hnew : ¬(isDestroyed db.tombstones t.keyRef = true ∧ db.key? t.keyRef = none)) :
    ensureDek A master rnd t db = .error (.crypto "KEY_DESTROYED" t.keyRef) := by
  cases hrow : db.key? t.keyRef with
  | none => exact absurd ⟨htombstone, hrow⟩ hnew
  | some row =>
    obtain ⟨hmem, href⟩ := mem_of_key? hrow
    have hnone := row.check.1 (hdead row hmem (href ▸ htombstone))
    simp only [ensureDek, hrow, hnone]

theorem encrypt_of_ensureDek {rnd : Random} {e : KeyError} (plaintext : Json)
    (h : ensureDek A master rnd t db = .error e) :
    encrypt A master rnd t plaintext db = .error e := by
  rw [encrypt, h]
  rfl

theorem encrypt_dead {rnd : Random} {plaintext : Json} {ciphertext : Bytes}
    (h : encrypt A master rnd t plaintext db = .ok (ciphertext, db')) (hdead : db.Dead)
    (hnew : ¬(isDestroyed db.tombstones t.keyRef = true ∧ db.key? t.keyRef = none)) : db'.Dead := by
  cases hensure : ensureDek A master rnd t db with
  | error =>
    rw [encrypt_of_ensureDek plaintext hensure] at h
    cases h
  | ok =>
    simp only [encrypt, hensure, bind, Except.bind] at h
    split at h
    · cases h
    · obtain ⟨-, rfl⟩ := Prod.mk.inj (ok.inj h)
      exact ensureDek_dead hensure hdead hnew

theorem destroy_dead {requestedBy : String} {auditEventId : Option String} {t : Clocks}
    (h : destroy H keyRef requestedBy reason auditEventId t db = .ok db') (hdead : db.Dead) :
    db'.Dead := by
  rw [destroy] at h
  split at h
  · cases h
  · split at h
    · cases h
    · split at h
      · cases h
      · obtain ⟨hash, -, htombstones, hkeys, -⟩ := insertTombstone_eq_ok h
        exact (hdead.shred keyRef _).bury (shred_shredded db keyRef _) hkeys htombstones

theorem destroyKeys_dead {requestedBy : Uuid} {t : Clocks} {keyRefs : List String}
    (h : destroyKeys H book reason requestedBy t keyRefs db = .ok db') (hdead : db.Dead) :
    db'.Dead := by
  induction keyRefs generalizing db with
  | nil =>
    obtain rfl := ok.inj h
    exact hdead
  | cons keyRef _ ih =>
    rw [destroyKeys, shredKey] at h
    cases hrow : db.key? keyRef with
    | none =>
      rw [hrow] at h
      cases h
    | some row =>
      rw [hrow] at h
      dsimp only at h
      split at h
      · exact ih h hdead
      · cases hbury : bury H book reason requestedBy t (some row)
          (db.shred keyRef fun _ ↦ t.now) with
        | error e =>
          simp only [bind, Except.bind, hbury] at h
          cases h
        | ok db₁ =>
          simp only [bind, Except.bind, hbury] at h
          refine ih h (recordTombstone_dead hbury (hdead.shred keyRef _) ?_)
          rw [show (_ : TombstoneFields).keyRef = row.keyRef from rfl, (mem_of_key? hrow).2]
          exact shred_shredded db keyRef _

theorem importEntry_eq_ok (h : importEntry H e report db = .ok p) :
    p.2.keys = db.keys ∧ isDestroyed p.2.tombstones e.fields.keyRef = true ∧
      ∀ keyRef, isDestroyed p.2.tombstones keyRef = true →
        isDestroyed db.tombstones keyRef = true ∨ keyRef = e.fields.keyRef := by
  rw [importEntry] at h
  split at h
  · rename_i htombstone
    obtain rfl := ok.inj h
    exact ⟨rfl, htombstone, fun _ ↦ .inl⟩
  · cases hins : insertTombstone H e.fields.reconciled e.signature e.ledgerKeyId db with
    | error =>
      rw [hins] at h
      cases h
    | ok =>
      rw [hins] at h
      obtain rfl := ok.inj h
      obtain ⟨hash, -, htombstones, hkeys, -⟩ := insertTombstone_eq_ok hins
      refine ⟨hkeys, ?_, fun keyRef hdestroyed ↦ ?_⟩
      · rw [htombstones, isDestroyed_append]
        exact .inr rfl
      · rw [htombstones, isDestroyed_append] at hdestroyed
        exact hdestroyed.imp_right Eq.symm

theorem applyEntry_tombstones (keyRef : String) (now : Time) (report : ImportReport) (db : KeyDb) :
    (applyEntry keyRef now report db).2.tombstones = db.tombstones := by
  rw [applyEntry]
  split
  · rfl
  · split <;> rfl

theorem applyEntry_keys (keyRef : String) (now : Time) (report : ImportReport) (db : KeyDb) :
    (applyEntry keyRef now report db).2.Shredded keyRef ∧
      ∀ row ∈ (applyEntry keyRef now report db).2.keys, row.keyRef ≠ keyRef → row ∈ db.keys := by
  rw [applyEntry]
  split
  · rename_i hnone
    exact ⟨fun row hrow href ↦ absurd href (key?_eq_none.1 hnone row hrow), fun _ h _ ↦ h⟩
  · rename_i row hrow
    split
    · rename_i hdestroyed
      exact ⟨fun r hr href ↦ eq_of_key? hrow hr href ▸ hdestroyed, fun _ h _ ↦ h⟩
    · refine ⟨shred_shredded db keyRef _, List.forall_mem_map.2 fun r hr href ↦ ?_⟩
      rw [shredRow_keyRef] at href
      rwa [shredRow, if_neg href]

theorem importAndApply_cons {q : ImportReport × KeyDb} (h : importEntry H e report db = .ok q) :
    importAndApply H now (e :: es) report db =
      importAndApply H now es (applyEntry e.fields.keyRef now q.1 q.2).1
        (applyEntry e.fields.keyRef now q.1 q.2).2 := by
  rw [importAndApply, h]
  rfl

theorem importAndApply_dead (h : importAndApply H now es report db = .ok p) (hdead : db.Dead) :
    p.2.Dead := by
  induction es generalizing report db with
  | nil =>
    obtain rfl := ok.inj h
    exact hdead
  | cons e _ ih =>
    cases himport : importEntry H e report db with
    | error =>
      rw [importAndApply, himport] at h
      cases h
    | ok q =>
      rw [importAndApply_cons himport] at h
      obtain ⟨hkeys, -, htombstones⟩ := importEntry_eq_ok himport
      obtain ⟨hshredded, hrest⟩ := applyEntry_keys e.fields.keyRef now q.1 q.2
      refine ih h fun row hrow hdestroyed ↦ ?_
      by_cases href : row.keyRef = e.fields.keyRef
      · exact hshredded row hrow href
      · rw [applyEntry_tombstones] at hdestroyed
        exact hdead row (hkeys ▸ hrest row hrow href)
          ((htombstones _ hdestroyed).resolve_right href)

theorem reconcileEach_dead {dekIds : List String} {counts : ℕ × ℕ} (hdead : db.Dead) :
    (reconcileEach now dekIds counts db).2.Dead := by
  induction dekIds generalizing counts db with
  | nil => exact hdead
  | cons _ _ ih =>
    exact ih (List.forall_mem_map.2 fun r hr hdestroyed ↦
      reconcileRow_status (hdead r hr (by rwa [reconcileRow_keyRef] at hdestroyed)))

theorem reconcileTombstones_dead {key : Option LedgerKey} {p : ReconcileReport × KeyDb}
    (h : reconcileTombstones H key now db = .ok p) (hdead : db.Dead) : p.2.Dead := by
  rw [reconcileTombstones] at h
  split at h
  · cases h
  · obtain rfl := ok.inj h
    exact reconcileEach_dead hdead

theorem reconcile_dead {entries : List Entry} {p : (ImportReport × Option ReconcileReport) × KeyDb}
    (h : Book.reconcile H book entries now db = .ok p) (hdead : db.Dead) : p.2.Dead := by
  rw [Book.reconcile] at h
  cases himport : importAndApply H now entries {} db with
  | error =>
    rw [himport] at h
    cases h
  | ok q =>
    rw [himport] at h
    have hq := importAndApply_dead himport hdead
    cases book with
    | none =>
      obtain rfl := ok.inj h
      exact hq
    | some key =>
      cases hreconcile : reconcileTombstones H (some key) now q.2 with
      | error =>
        simp only [bind, Except.bind, hreconcile] at h
        cases h
      | ok =>
        simp only [bind, Except.bind, hreconcile] at h
        obtain rfl := ok.inj h
        exact reconcileTombstones_dead hreconcile hq

/-! ## Every history -/

/-- A key is asked for that has a tombstone and no row. -/
def Revives (w : KeyWorld) : KeyOp → Prop
  | .ensureDek _ t => isDestroyed w.db.tombstones t.keyRef = true ∧ w.db.key? t.keyRef = none
  | .encrypt _ t _ => isDestroyed w.db.tombstones t.keyRef = true ∧ w.db.key? t.keyRef = none
  | _ => False

/-- The database and the backups. -/
structure KeyWorld.Dead (w : KeyWorld) : Prop where
  db : w.db.Dead
  backups : ∀ b ∈ w.backups, b.Dead

theorem KeyWorld.Dead.commit {α : Type} (h : w.Dead) {x : Except KeyError α} {db : α → KeyDb}
    (hx : ∀ a, x = .ok a → (db a).Dead) : (w.commit x db).Dead := by
  cases x with
  | error => exact h
  | ok a => exact ⟨hx a rfl, h.backups⟩

theorem KeyWorld.Dead.step (h : w.Dead) {op : KeyOp} (hop : ¬Revives w op) :
    (w.step H A master op).Dead := by
  cases op with
  | ensureDek => exact h.commit fun _ hx ↦ ensureDek_dead hx h.db hop
  | encrypt => exact h.commit fun _ hx ↦ encrypt_dead hx h.db hop
  | destroy => exact h.commit fun _ hx ↦ destroy_dead hx h.db
  | hardDelete => exact h.commit fun _ hx ↦ destroyKeys_dead hx h.db
  | workspace | account | version => exact ⟨h.db, h.backups⟩
  | backup => exact ⟨h.db, forall_mem_append.2 ⟨h.backups, forall_mem_singleton.2 h.db⟩⟩
  | restore n =>
    refine ⟨?_, h.backups⟩
    cases hn : w.backups[n]? with
    | none => simpa [KeyWorld.step, hn] using h.db
    | some b => simpa [KeyWorld.step, hn] using h.backups b (mem_of_getElem? hn)
  | reconcile => exact h.commit fun _ hx ↦ reconcile_dead hx h.db
  | reconcileTombstones => exact h.commit fun _ hx ↦ reconcileTombstones_dead hx h.db

/-- No key was made yet. -/
structure KeyWorld.Fresh (w : KeyWorld) : Prop where
  keys : w.db.keys = []
  backups : w.backups = []

/-- **A destroyed key stays destroyed unless its row is lost.** In any history of which no step
asks for a key that has a tombstone and no row: no row of a tombstoned key is active, and whenever
a tombstoned key is asked for, or a payload is to be encrypted under it, the answer is that it was
destroyed. -/
theorem tombstoned_stays_destroyed {w₀ w : KeyWorld} (h₀ : w₀.Fresh)
    (hw : Reached H A master (fun w op ↦ ¬Revives w op) w₀ w) :
    (∀ row ∈ w.db.keys, isDestroyed w.db.tombstones row.keyRef = true → row.status = .destroyed) ∧
      ∀ rnd t, isDestroyed w.db.tombstones t.keyRef = true → ¬Revives w (.ensureDek rnd t) →
        ensureDek A master rnd t w.db = .error (.crypto "KEY_DESTROYED" t.keyRef) ∧
          ∀ plaintext, encrypt A master rnd t plaintext w.db =
            .error (.crypto "KEY_DESTROYED" t.keyRef) := by
  have hdead : w.Dead := by
    induction hw with
    | refl =>
      refine ⟨fun row hrow ↦ ?_, fun b hb ↦ ?_⟩
      · rw [h₀.keys] at hrow
        exact absurd hrow not_mem_nil
      · rw [h₀.backups] at hb
        exact absurd hb not_mem_nil
    | step _ _ hop ih => exact ih.step hop
  refine ⟨hdead.db, fun rnd t htombstone hnew ↦ ?_⟩
  have hensure : ensureDek A master rnd t w.db = .error (.crypto "KEY_DESTROYED" t.keyRef) :=
    ensureDek_of_tombstone hdead.db htombstone hnew
  exact ⟨hensure, fun plaintext ↦ encrypt_of_ensureDek plaintext hensure⟩

/-! ## A key that comes back -/

section Runs

variable (H A master) (C : KeyWorld → KeyOp → Prop) [∀ w op, Decidable (C w op)]

/-- Take steps as long as each satisfies the condition. -/
def KeyWorld.run (w : KeyWorld) : List KeyOp → Option KeyWorld
  | [] => some w
  | op :: ops => if C w op then (w.step H A master op).run ops else none

variable {H A master C}

theorem Reached.of_run {w₀ w w' : KeyWorld} {ops : List KeyOp} (hw : Reached H A master C w₀ w)
    (h : w.run H A master C ops = some w') : Reached H A master C w₀ w' := by
  induction ops generalizing w with
  | nil =>
    obtain rfl := Option.some.inj h
    exact hw
  | cons op _ ih =>
    rw [KeyWorld.run, Option.ite_none_right_eq_some] at h
    exact ih (.step op hw h.1) h.2

end Runs

instance (w : KeyWorld) : (op : KeyOp) → Decidable (Revives w op)
  | .ensureDek _ t | .encrypt _ t _ => inferInstanceAs
    (Decidable (isDestroyed w.db.tombstones t.keyRef = true ∧ w.db.key? t.keyRef = none))
  | .destroy .. | .hardDelete .. | .workspace _ | .account _ | .version _ | .backup | .restore _
  | .reconcile .. | .reconcileTombstones .. => isFalse id

namespace Sample

def aead : Aead where
  encrypt key nonce data aad := key ++ nonce ++ aad ++ data
  decrypt key nonce data aad :=
    let head := key ++ nonce ++ aad
    if head.isPrefixOf data then some (data.drop head.length) else none

def masterKey : MasterKey := ⟨"mk-1", [7]⟩

def message : Target := ⟨uuid.text, "message", "m1"⟩

def rnd : Random := ⟨[1, 2], List.replicate 12 0, List.replicate 12 0⟩

def clocks : Clocks := ⟨5, ⟨2026, 1, 1, 0, 0, 0, 0⟩⟩

def empty : KeyWorld := ⟨{ workspaces := [uuid], accounts := [uuid] }, []⟩

/-- A backup is taken, then the key is made and destroyed. -/
def deleted : List KeyOp :=
  [.backup, .ensureDek rnd message, .destroy message.keyRef uuid.text "RETENTION" none clocks]

def exported : List Entry :=
  ((empty.run hashes aead masterKey (fun _ _ ↦ True) deleted).map (exportLedger ·.db)).getD []

/-- The backup is restored, the ledger imported, and the key asked for. -/
def revived : List KeyOp :=
  deleted ++ [.restore 0, .reconcile none exported 9, .ensureDek rnd message]

end Sample

open Sample

theorem tombstoned_stays_destroyed_message : ∃ w : KeyWorld,
    isDestroyed w.db.tombstones message.keyRef = true ∧ ensureDek aead masterKey rnd message w.db =
        .error (.crypto "KEY_DESTROYED" message.keyRef) := by
  have hrun : (empty.run hashes aead masterKey (fun w op ↦ ¬Revives w op) deleted).any (fun w ↦
        isDestroyed w.db.tombstones message.keyRef &&
          decide ¬Revives w (.ensureDek rnd message)) = true := by
    decide +kernel
  obtain ⟨w, hw, hfacts⟩ := (Option.any_eq_true _ _).1 hrun
  rw [Bool.and_eq_true, decide_eq_true_eq] at hfacts
  exact ⟨w, hfacts.1, ((tombstoned_stays_destroyed ⟨rfl, rfl⟩ (.of_run .refl hw)).2 _ _ hfacts.1
    hfacts.2).1⟩

/-- **A destroyed key comes back** when a backup from before it was made is restored. -/
theorem destroyed_key_comes_back : ¬∀ w, Reached hashes aead masterKey (fun _ _ ↦ True) empty w →
      ∀ row ∈ w.db.keys, isDestroyed w.db.tombstones row.keyRef = true →
        row.status = .destroyed := by
  have hrun : (empty.run hashes aead masterKey (fun _ _ ↦ True)
      revived).any (fun w ↦ w.db.keys.any fun row ↦
        isDestroyed w.db.tombstones row.keyRef && row.status = .active) = true := by
    decide +kernel
  obtain ⟨w, hw, hany⟩ := (Option.any_eq_true _ _).1 hrun
  obtain ⟨row, hrow, hfacts⟩ := List.any_eq_true.1 hany
  rw [Bool.and_eq_true, decide_eq_true_eq] at hfacts
  intro h
  have hstatus := h w (.of_run .refl hw) row hrow hfacts.1
  rw [hfacts.2] at hstatus
  cases hstatus

end AgentColab.Ledger
