import AgentColab.Domain.Computation
import AgentColab.Ledger.Revival

/-!
# When reconciling converges

The ledger of an older backup is the beginning of the one that was exported later. Importing appends
the missing entries anew. Their hashes are recomputed, since the reason has a prefix now, but the
signatures are those of the old hashes. So the ledger verifies afterwards only if no missing entry
names the key; and the import fails if one was requested by an account that the backup lacks.
-/

namespace AgentColab.Ledger

open AgentColab List
open Except (ok)
open Function (Injective)

variable {H : Hashes} {A : Aead} {master : MasterKey} {key : LedgerKey}

/-! ## Older backups -/

/-- The ledger of a database is the beginning of another's. -/
def KeyDb.Older (db db' : KeyDb) : Prop := db.tombstones <+: db'.tombstones

variable {db db' db'' : KeyDb} {e : Entry} {rnd : Random} {t : Target}
    {dekId k keyRef reason : String} {book : Option LedgerKey} {fields : TombstoneFields}
    {report : ImportReport} {now : Time} {entries es ledger : List Entry}
    {p : (ImportReport × Option ReconcileReport) × KeyDb} {α : Type} {w : KeyWorld}
    {q : ImportReport × KeyDb}

theorem KeyDb.Older.of_eq (h : db'.tombstones = db.tombstones) : db.Older db' := by
  change db.tombstones <+: db'.tombstones
  exact h ▸ prefix_refl _

theorem KeyDb.Older.append (h : db'.tombstones = db.tombstones ++ [e]) : db.Older db' := by
  rw [Older, h]
  exact prefix_append ..

theorem KeyDb.Older.trans (h : db.Older db') (h' : db'.Older db'') :
    db.Older db'' := List.IsPrefix.trans h h'

theorem ensureDek_older {p : Bytes × KeyDb} (h : ensureDek A master rnd t db = .ok p) :
    db.Older p.2 := by
  rw [ensureDek] at h
  split at h
  · split at h
    · cases h
    · rename_i wrapped _
      cases hunwrap : unwrap A master wrapped t.keyRef with
      | error =>
        rw [hunwrap] at h
        cases h
      | ok =>
        rw [hunwrap] at h
        obtain rfl := ok.inj h
        exact .of_eq rfl
  · split at h
    · cases h
    · generalize hrow : KeyRow.mk _ _ _ _ _ _ _ _ _ = row at h
      cases hins : db.insertKey row with
      | error =>
        rw [hins] at h
        cases h
      | ok =>
        rw [hins] at h
        obtain rfl := ok.inj h
        exact .of_eq (insertKey_eq_ok hins).2

theorem encrypt_older {plaintext : Json} {p : Bytes × KeyDb}
    (h : encrypt A master rnd t plaintext db = .ok p) : db.Older p.2 := by
  cases hensure : ensureDek A master rnd t db with
  | error =>
    rw [encrypt_of_ensureDek plaintext hensure] at h
    cases h
  | ok q =>
    simp only [encrypt, hensure, bind, Except.bind] at h
    split at h
    · cases h
    · obtain rfl := ok.inj h
      exact (ensureDek_older hensure : db.Older q.2)

theorem destroy_older {requestedBy : String} {auditEventId : Option String} {t : Clocks}
    (h : destroy H keyRef requestedBy reason auditEventId t db = .ok db') : db.Older db' := by
  rw [destroy] at h
  split at h
  · cases h
  · split at h
    · cases h
    · split at h
      · cases h
      · obtain ⟨hash, -, htombstones, -⟩ := insertTombstone_eq_ok h
        exact .append htombstones

theorem recordTombstone_older (h : Book.recordTombstone H book fields db = .ok db') :
    db.Older db' := by
  cases book with
  | none =>
    obtain ⟨hash, -, htombstones, -⟩ := insertTombstone_eq_ok h
    exact .append htombstones
  | some =>
    obtain ⟨hash, hhash⟩ := exists_chainHash (H := H) fields (lastHash db.tombstones)
    rw [Book.recordTombstone] at h
    split at h
    · cases h
    · rw [chainHash_eq_ok.2 hhash] at h
      exact .append (KeyDb.insertTombstone_eq_ok h).1

theorem destroyKeys_older {requestedBy : Uuid} {t : Clocks} {keyRefs : List String}
    (h : destroyKeys H book reason requestedBy t keyRefs db = .ok db') : db.Older db' := by
  induction keyRefs generalizing db with
  | nil =>
    obtain rfl := ok.inj h
    exact .of_eq rfl
  | cons keyRef _ ih =>
    rw [destroyKeys, shredKey] at h
    cases hrow : db.key? keyRef with
    | none =>
      rw [hrow] at h
      cases h
    | some row =>
      rw [hrow] at h
      dsimp only at h
      split at h
      · exact ih h
      · cases hbury : bury H book reason requestedBy t (some row)
          (db.shred keyRef fun _ ↦ t.now) with
        | error e =>
          simp only [bind, Except.bind, hbury] at h
          cases h
        | ok db₁ =>
          simp only [bind, Except.bind, hbury] at h
          exact (recordTombstone_older hbury).trans (ih h)

theorem recordTombstone_book_of_new {hash : String}
    (hnew : isDestroyed db.tombstones fields.keyRef = false)
    (hhash : tombstoneChain.chainHash H.sha256 fields (lastHash db.tombstones) = .ok hash) :
    Book.recordTombstone H (some key) fields db = db.insertTombstone ⟨fields,
      lastHash db.tombstones, hash, some (signEntry H key hash), some key.keyId⟩ := by
  rw [Book.recordTombstone, hnew, if_neg Bool.false_ne_true, chainHash_eq_ok.2 hhash]

theorem importEntry_older {p : ImportReport × KeyDb} (h : importEntry H e report db = .ok p) :
    db.Older p.2 := by
  rw [importEntry] at h
  split at h
  · obtain rfl := ok.inj h
    exact .of_eq rfl
  · cases hins : insertTombstone H e.fields.reconciled e.signature e.ledgerKeyId db with
    | error =>
      rw [hins] at h
      cases h
    | ok =>
      rw [hins] at h
      obtain rfl := ok.inj h
      obtain ⟨hash, -, htombstones, -⟩ := insertTombstone_eq_ok hins
      exact .append htombstones

theorem importAndApply_older {p : ImportReport × KeyDb}
    (h : importAndApply H now es report db = .ok p) : db.Older p.2 := by
  induction es generalizing report db with
  | nil =>
    obtain rfl := ok.inj h
    exact .of_eq rfl
  | cons e _ ih =>
    cases himport : importEntry H e report db with
    | error =>
      rw [importAndApply, himport] at h
      cases h
    | ok =>
      rw [importAndApply_cons himport] at h
      exact (importEntry_older himport).trans
        ((KeyDb.Older.of_eq (applyEntry_tombstones ..)).trans (ih h))

theorem reconcileEach_tombstones (now : Time) (dekIds : List String) (counts : ℕ × ℕ) (db : KeyDb) :
    (reconcileEach now dekIds counts db).2.tombstones = db.tombstones := by
  induction dekIds generalizing counts db with
  | nil => rfl
  | cons _ _ ih => exact ih ..

theorem reconcileTombstones_eq_ok {key : Option LedgerKey} {p : ReconcileReport × KeyDb}
    (h : reconcileTombstones H key now db = .ok p) :
    p.2 = (reconcileEach now (db.tombstones.map (·.fields.keyRef)) (0, 0) db).2 := by
  rw [reconcileTombstones] at h
  split at h
  · cases h
  · obtain rfl := ok.inj h
    rfl

theorem reconcile_eq_ok (h : Book.reconcile H (some key) entries now db = .ok p) :
    ∃ q r, importAndApply H now entries {} db = .ok q ∧
      reconcileTombstones H (some key) now q.2 = .ok r ∧ p = ((q.1, some r.1), r.2) := by
  rw [Book.reconcile] at h
  cases himport : importAndApply H now entries {} db with
  | error =>
    rw [himport] at h
    cases h
  | ok q =>
    rw [himport] at h
    cases hreconcile : reconcileTombstones H (some key) now q.2 with
    | error =>
      simp only [bind, Except.bind, hreconcile] at h
      cases h
    | ok r =>
      simp only [bind, Except.bind, hreconcile] at h
      exact ⟨q, r, rfl, hreconcile, (ok.inj h).symm⟩

theorem reconcile_older (h : Book.reconcile H book entries now db = .ok p) : db.Older p.2 := by
  cases book with
  | none =>
    rw [Book.reconcile] at h
    cases himport : importAndApply H now entries {} db with
    | error =>
      rw [himport] at h
      cases h
    | ok =>
      rw [himport] at h
      obtain rfl := ok.inj h
      exact importAndApply_older himport
  | some =>
    obtain ⟨q, r, himport, hreconcile, rfl⟩ := reconcile_eq_ok h
    refine (importAndApply_older himport).trans (.of_eq ?_)
    rw [reconcileTombstones_eq_ok hreconcile]
    exact reconcileEach_tombstones ..

/-- A step that restores no backup. -/
def Onward : KeyOp → Prop
  | .restore _ => False
  | _ => True

theorem KeyWorld.older_commit {x : Except KeyError α} {db : α → KeyDb}
    (hx : ∀ a, x = .ok a → w.db.Older (db a)) : w.db.Older (w.commit x db).db := by
  cases x with
  | error => exact .of_eq rfl
  | ok a => exact hx a rfl

theorem KeyWorld.older_step {op : KeyOp} (hop : Onward op) :
    w.db.Older (w.step H A master op).db := by
  cases op with
  | ensureDek => exact older_commit fun _ hx ↦ ensureDek_older hx
  | encrypt => exact older_commit fun _ hx ↦ encrypt_older hx
  | destroy => exact older_commit fun _ hx ↦ destroy_older hx
  | hardDelete => exact older_commit fun _ hx ↦ destroyKeys_older hx
  | reconcile => exact older_commit fun _ hx ↦ reconcile_older hx
  | reconcileTombstones =>
    refine older_commit fun _ hx ↦ .of_eq ?_
    rw [reconcileTombstones_eq_ok hx]
    exact reconcileEach_tombstones ..
  | restore => exact hop.elim
  | _ => exact .of_eq rfl

/-- **Ledgers only grow** until a backup is restored. -/
theorem Reached.older {w' : KeyWorld} (hw : Reached H A master (fun _ op ↦ Onward op) w w') :
    w.db.Older w'.db := by
  induction hw with
  | refl => exact .of_eq rfl
  | step _ _ hop ih => exact ih.trans (KeyWorld.older_step hop)

/-! ## The first import -/

theorem shred_preserves {t : KeyRow → Time} (h : db.Shredded k) : (db.shred keyRef t).Shredded k :=
  List.forall_mem_map.2 fun r hr href ↦ shredRow_status (h r hr (by rwa [shredRow_keyRef] at href))

theorem applyEntry_preserves (h : db.Shredded k) :
    (applyEntry keyRef now report db).2.Shredded k := by
  rw [applyEntry]
  split
  · exact h
  · split
    · exact h
    · exact shred_preserves h

theorem applyEntry_versions (keyRef : String) (now : Time) (report : ImportReport) (db : KeyDb) :
    (applyEntry keyRef now report db).2.versions = db.versions ∧
      (applyEntry keyRef now report db).2.accounts = db.accounts := by
  rw [applyEntry]
  split
  · exact ⟨rfl, rfl⟩
  · split <;> exact ⟨rfl, rfl⟩

/-- The entry that is appended for a missing one. -/
structure Reappended (H : Hashes) (e n : Entry) : Prop where
  fields : n.fields = e.fields.reconciled
  signature : n.signature = e.signature
  ledgerKeyId : n.ledgerKeyId = e.ledgerKeyId
  contentHash : ∃ previous, tombstoneChain.chainHash H.sha256 n.fields previous = .ok n.contentHash

structure Imported (H : Hashes) (es : List Entry) (missing : List Entry) (db db' : KeyDb) :
    Prop where
  tombstones : ∃ new, db'.tombstones = db.tombstones ++ new ∧
    List.Forall₂ (Reappended H) missing new
  chained : Chained H.sha256 tombstoneChain none (db.tombstones.map Entry.row) →
    Chained H.sha256 tombstoneChain none (db'.tombstones.map Entry.row)
  accounts : db'.accounts = db.accounts
  requesters : ∀ e ∈ missing, e.fields.requestedBy ∈ db.accounts
  shredded : ∀ e ∈ es, db'.Shredded e.fields.keyRef
  preserves : ∀ k, db.Shredded k → db'.Shredded k

theorem Imported.refl (db : KeyDb) : Imported H [] [] db db where
  tombstones := ⟨[], (append_nil _).symm, .nil⟩
  chained h := h
  accounts := rfl
  requesters _ h := absurd h not_mem_nil
  shredded _ h := absurd h not_mem_nil
  preserves _ h := h

theorem Imported.trans {es' missing missing' : List Entry} (h : Imported H es missing db db')
    (h' : Imported H es' missing' db' db'') :
    Imported H (es ++ es') (missing ++ missing') db db'' where
  tombstones := by
    obtain ⟨new, hnew, hforall⟩ := h.tombstones
    obtain ⟨new', hnew', hforall'⟩ := h'.tombstones
    exact ⟨new ++ new', by rw [hnew', hnew, append_assoc], rel_append hforall hforall'⟩
  chained hc := h'.chained (h.chained hc)
  accounts := h'.accounts.trans h.accounts
  requesters := forall_mem_append.2 ⟨h.requesters, h.accounts ▸ h'.requesters⟩
  shredded := forall_mem_append.2 ⟨fun e he ↦ h'.preserves _ (h.shredded e he), h'.shredded⟩
  preserves k hk := h'.preserves k (h.preserves k hk)

/-- Whether an entry is missing in a database. -/
def Missing (db : KeyDb) (e : Entry) : Prop := isDestroyed db.tombstones e.fields.keyRef = false

theorem importOne_imported (h : importEntry H e report db = .ok q) :
    Imported H [e] (if isDestroyed db.tombstones e.fields.keyRef then [] else [e]) db
      (applyEntry e.fields.keyRef now q.1 q.2).2 := by
  have hkeys := (applyEntry_keys e.fields.keyRef now q.1 q.2).1
  have hversions := applyEntry_versions e.fields.keyRef now q.1 q.2
  have htombstones := applyEntry_tombstones e.fields.keyRef now q.1 q.2
  have hsame := (importEntry_eq_ok h).1
  have hpreserves : ∀ k, db.Shredded k →
      (applyEntry e.fields.keyRef now q.1 q.2).2.Shredded k := fun k hk ↦
    applyEntry_preserves (fun row hrow ↦ hk row (hsame ▸ hrow))
  rw [importEntry] at h
  split at h
  · rename_i hpresent
    obtain rfl := ok.inj h
    rw [if_pos hpresent]
    exact ⟨⟨[], by rw [htombstones, append_nil], .nil⟩, fun hc ↦ by rwa [htombstones],
      hversions.2, fun _ he ↦ absurd he not_mem_nil, forall_mem_singleton.2 hkeys, hpreserves⟩
  · rename_i hmissing
    rw [if_neg hmissing]
    cases hins : insertTombstone H e.fields.reconciled e.signature e.ledgerKeyId db with
    | error =>
      rw [hins] at h
      cases h
    | ok db' =>
      rw [hins] at h
      obtain rfl := ok.inj h
      obtain ⟨hash, hhash, hnew, -, -, haccounts⟩ := insertTombstone_eq_ok hins
      have hmem : ∀ n ∈ db'.tombstones, n.fields.requestedBy ∈ db.accounts :=
        haccounts ▸ db'.requesters
      refine ⟨⟨_, htombstones.trans hnew, .cons ⟨rfl, rfl, rfl, _, hhash⟩ .nil⟩, fun hc ↦ ?_,
        hversions.2.trans haccounts, forall_mem_singleton.2 ?_,
        forall_mem_singleton.2 hkeys, hpreserves⟩
      · rw [htombstones, hnew]
        exact chained_append.2 ⟨hc, rfl, hhash⟩
      · have hlast : (⟨e.fields.reconciled, lastHash db.tombstones, hash, e.signature,
            e.ledgerKeyId⟩ : Entry) ∈ db'.tombstones := by
          rw [hnew]
          exact mem_append_right _ (mem_singleton.2 rfl)
        have hby := hmem _ hlast
        exact hby

theorem importAndApply_present
    (hpresent : ∀ e ∈ es, isDestroyed db.tombstones e.fields.keyRef = true) :
    ∃ p, importAndApply H now es report db = .ok p ∧ Imported H es [] db p.2 := by
  induction es generalizing report db with
  | nil => exact ⟨_, rfl, .refl db⟩
  | cons e es ih =>
    rw [forall_mem_cons] at hpresent
    have himport : importEntry H e report db = .ok (report, db) := if_pos hpresent.1
    have hone : Imported H [e] _ db (applyEntry e.fields.keyRef now report db).2 :=
      importOne_imported himport
    rw [if_pos hpresent.1] at hone
    have hrest : ∀ x ∈ es, isDestroyed (applyEntry e.fields.keyRef now report db).2.tombstones
        x.fields.keyRef = true := by
      rw [applyEntry_tombstones]
      exact hpresent.2
    obtain ⟨p, hp, hes⟩ := @ih _ (applyEntry e.fields.keyRef now report db).1 hrest
    exact ⟨p, (importAndApply_cons himport).trans hp, hone.trans hes⟩

theorem KeyDb.insertTombstone_of_fresh
    (hfresh : e.fields.keyRef ∉ db.tombstones.map (·.fields.keyRef))
    (hby : e.fields.requestedBy ∈ db.accounts) : ∃ db', db.insertTombstone e = .ok db' := by
  rw [insertTombstone, dif_neg hfresh, dif_pos hby]
  exact ⟨_, rfl⟩

theorem importEntry_missing (h : Missing db e) (hby : e.fields.requestedBy ∈ db.accounts) :
    ∃ q, importEntry H e report db = .ok q := by
  obtain ⟨hash, hhash⟩ := exists_chainHash (H := H) e.fields.reconciled (lastHash db.tombstones)
  have hfresh : e.fields.keyRef ∉ db.tombstones.map (·.fields.keyRef) := by
    rw [Missing, isDestroyed, List.any_eq_false] at h
    rintro hmem
    obtain ⟨x, hx, hkey⟩ := List.mem_map.1 hmem
    exact h x hx (decide_eq_true hkey)
  have hins : ∃ db', insertTombstone H e.fields.reconciled e.signature e.ledgerKeyId db =
      .ok db' := by
    rw [insertTombstone, chainHash_eq_ok.2 hhash]
    exact KeyDb.insertTombstone_of_fresh hfresh hby
  obtain ⟨db', hdb'⟩ := hins
  have hmissing : isDestroyed db.tombstones e.fields.keyRef = false := h
  rw [importEntry, hmissing, if_neg Bool.false_ne_true, hdb']
  exact ⟨_, rfl⟩

theorem missing_after {x : Entry} (h : importEntry H e report db = .ok q) (hx : Missing db x)
    (hne : e.fields.keyRef ≠ x.fields.keyRef) :
    Missing (applyEntry e.fields.keyRef now q.1 q.2).2 x := by
  rw [Missing, applyEntry_tombstones, Bool.eq_false_iff]
  intro hdestroyed
  rcases (importEntry_eq_ok h).2.2 _ hdestroyed with hold | hsame
  · exact Bool.false_ne_true (hx.symm.trans hold)
  · exact hne hsame.symm

theorem importAndApply_missing (hmissing : ∀ e ∈ es, Missing db e)
    (hnodup : (es.map (·.fields.keyRef)).Nodup) :
    (∀ p, importAndApply H now es report db = .ok p → Imported H es es db p.2) ∧
      ((∀ e ∈ es, e.fields.requestedBy ∈ db.accounts) →
        ∃ p, importAndApply H now es report db = .ok p) := by
  induction es generalizing report db with
  | nil =>
    refine ⟨fun p hp ↦ ?_, fun _ ↦ ⟨_, rfl⟩⟩
    obtain rfl := ok.inj hp
    exact .refl db
  | cons e es ih =>
    rw [map_cons, nodup_cons] at hnodup
    rw [forall_mem_cons] at hmissing
    have hrest {q : ImportReport × KeyDb} (himport : importEntry H e report db = .ok q) :
        ∀ x ∈ es, Missing (applyEntry e.fields.keyRef now q.1 q.2).2 x := fun x hx ↦
      missing_after himport (hmissing.2 x hx) fun hsame ↦
        hnodup.1 (hsame ▸ List.mem_map_of_mem hx)
    have hmiss : isDestroyed db.tombstones e.fields.keyRef = false := hmissing.1
    have hone {q : ImportReport × KeyDb} (himport : importEntry H e report db = .ok q) :
        Imported H [e] [e] db (applyEntry e.fields.keyRef now q.1 q.2).2 := by
      have h : Imported H [e] _ db (applyEntry e.fields.keyRef now q.1 q.2).2 :=
        importOne_imported himport
      rwa [hmiss, if_neg Bool.false_ne_true] at h
    refine ⟨fun p hp ↦ ?_, fun hby ↦ ?_⟩
    · cases himport : importEntry H e report db with
      | error =>
        rw [importAndApply, himport] at hp
        cases hp
      | ok =>
        rw [importAndApply_cons himport] at hp
        exact (hone himport).trans ((ih (hrest himport) hnodup.2).1 p hp)
    · rw [forall_mem_cons] at hby
      obtain ⟨q, himport⟩ : ∃ q, importEntry H e report db = .ok q :=
        importEntry_missing hmissing.1 hby.1
      obtain ⟨p, hp⟩ := (@ih _ (applyEntry e.fields.keyRef now q.1 q.2).1
        (hrest himport) hnodup.2).2 fun x hx ↦ by
          rw [(hone himport).accounts]
          exact hby.2 x hx
      exact ⟨p, (importAndApply_cons himport).trans hp⟩

/-! ## The second part -/

theorem reconcile_shredded (h : db.Shredded k) : (db.reconcile dekId now).Shredded k :=
  List.forall_mem_map.2 fun r hr href ↦
    reconcileRow_status (h r hr (by rwa [reconcileRow_keyRef] at href))

/-- The secret versions of the keys are destroyed. -/
def KeyDb.VersionsShredded (db : KeyDb) (dekId : String) : Prop :=
  ∀ v ∈ db.versions, v.dekId = dekId → v.status = .destroyed

theorem reconcileVersion_dekId (dekId : String) (now : Time) (v : SecretVersion) :
    (reconcileVersion dekId now v).dekId = v.dekId := by
  rw [reconcileVersion]
  split <;> rfl

theorem reconcileVersion_status {v : SecretVersion} (h : v.status = .destroyed ∨ v.dekId = dekId) :
    (reconcileVersion dekId now v).status = .destroyed := by
  rw [reconcileVersion]
  split
  · rfl
  · rename_i hskip
    rcases h with h | h
    · exact h
    · by_contra hne
      exact hskip ⟨h, hne⟩

theorem reconcileEach_spec (now : Time) (dekIds : List String) (counts : ℕ × ℕ) (db : KeyDb) :
    (∀ k, db.Shredded k → (reconcileEach now dekIds counts db).2.Shredded k) ∧
      ∀ k, k ∈ dekIds ∨ db.VersionsShredded k →
        (reconcileEach now dekIds counts db).2.VersionsShredded k := by
  induction dekIds generalizing counts db with
  | nil => exact ⟨fun _ h ↦ h, fun k h ↦ h.resolve_left not_mem_nil⟩
  | cons dekId _ ih =>
    obtain ⟨hkeys, hversions⟩ := ih (counts + db.live dekId) (db.reconcile dekId now)
    refine ⟨fun k h ↦ hkeys k (reconcile_shredded h), fun k h ↦ hversions k ?_⟩
    rcases h with h | h
    · rcases mem_cons.1 h with rfl | h
      · refine .inr (List.forall_mem_map.2 fun v _ hv ↦ ?_)
        rw [reconcileVersion_dekId] at hv
        exact reconcileVersion_status (.inr hv)
      · exact .inl h
    · refine .inr (List.forall_mem_map.2 fun v hv hdek ↦ ?_)
      rw [reconcileVersion_dekId] at hdek
      exact reconcileVersion_status (.inl (h v hv hdek))

theorem KeyDb.eq_of (hw : db.workspaces = db'.workspaces) (ha : db.accounts = db'.accounts)
    (hk : db.keys = db'.keys) (ht : db.tombstones = db'.tombstones)
    (hv : db.versions = db'.versions) : db = db' := by
  cases db
  cases db'
  simp only at hw ha hk ht hv
  subst hw ha hk ht hv
  rfl

theorem map_eq_self {f : α → α} {xs : List α} (h : ∀ x ∈ xs, f x = x) :
    xs.map f = xs := (map_congr_left h).trans (List.map_id' xs)

theorem reconcileEach_eq_self {dekIds : List String} {counts : ℕ × ℕ}
    (h : ∀ k ∈ dekIds, db.Shredded k ∧ db.VersionsShredded k) :
    (reconcileEach now dekIds counts db).2 = db := by
  induction dekIds generalizing counts with
  | nil => rfl
  | cons dekId _ ih =>
    rw [forall_mem_cons] at h
    have hsame : db.reconcile dekId now = db := by
      refine KeyDb.eq_of rfl rfl (map_eq_self fun r hr ↦ ?_) rfl (map_eq_self fun v hv ↦ ?_)
      · exact if_neg fun hlive ↦ hlive.2 (h.1.1 r hr hlive.1)
      · exact if_neg fun hlive ↦ hlive.2 (h.1.2 v hv hlive.1)
    rw [reconcileEach, hsame]
    exact ih h.2

theorem applyEntry_eq_self (h : db.Shredded keyRef) : (applyEntry keyRef now report db).2 = db := by
  rw [applyEntry]
  split
  · rfl
  · rename_i row hrow
    obtain ⟨hmem, href⟩ := mem_of_key? hrow
    rw [if_pos (h row hmem href)]

theorem importAndApply_eq_self
    (h : ∀ e ∈ es, isDestroyed db.tombstones e.fields.keyRef = true ∧ db.Shredded e.fields.keyRef) :
    ∃ report', importAndApply H now es report db = .ok (report', db) := by
  induction es generalizing report with
  | nil => exact ⟨report, rfl⟩
  | cons e _ ih =>
    rw [forall_mem_cons] at h
    have himport : importEntry H e report db = .ok (report, db) := if_pos h.1.1
    obtain ⟨report', hreport⟩ := @ih (applyEntry e.fields.keyRef now report db).1 h.2
    refine ⟨report', (importAndApply_cons himport).trans ?_⟩
    rw [applyEntry_eq_self h.1.2]
    exact hreport

/-! ## Convergence -/

/-- Every entry is there, no tombstoned key decrypts anything, the ledger verifies, and doing it
again changes nothing and does not fail. -/
structure Converged (H : Hashes) (A : Aead) (master : MasterKey) (key : LedgerKey)
    (entries : List Entry) (db : KeyDb) : Prop where
  present : ∀ e ∈ entries, isDestroyed db.tombstones e.fields.keyRef = true
  dead : ∀ keyRef ciphertext, isDestroyed db.tombstones keyRef = true →
    ∃ e, decrypt A master keyRef ciphertext db = .error e
  versions : ∀ keyRef, isDestroyed db.tombstones keyRef = true → db.VersionsShredded keyRef
  verified : verifyChain H (some key) db.tombstones = .ok []
  again : ∀ now, ∃ report, Book.reconcile H (some key) entries now db = .ok (report, db)

/-- What is missing is not of the key, and the backup knows who asked for it. -/
def Importable (key : LedgerKey) (backup : KeyDb) (entries : List Entry) : Prop :=
  ∀ e ∈ entries, isDestroyed backup.tombstones e.fields.keyRef = false →
    e.ledgerKeyId ≠ some key.keyId ∧ e.fields.requestedBy ∈ backup.accounts

theorem decrypt_of_shredded (h : db.Shredded keyRef) (ciphertext : Bytes) :
    ∃ e, decrypt A master keyRef ciphertext db = .error e := by
  cases hrow : db.key? keyRef with
  | none =>
    simp only [decrypt, hrow]
    exact ⟨_, rfl⟩
  | some row =>
    obtain ⟨hmem, href⟩ := mem_of_key? hrow
    have hnone := row.check.1 (h row hmem href)
    simp only [decrypt, hrow, hnone]
    exact ⟨_, rfl⟩

theorem isDestroyed_iff :
    isDestroyed ledger keyRef = true ↔ ∃ e ∈ ledger, e.fields.keyRef = keyRef := by
  simp [isDestroyed]

theorem exists_previous {previous : Option String}
    (h : Chained H.sha256 tombstoneChain previous (ledger.map Entry.row)) :
    ∀ e ∈ ledger, ∃ p, tombstoneChain.chainHash H.sha256 e.fields p = .ok e.contentHash := by
  induction ledger generalizing previous with
  | nil => exact fun _ he ↦ absurd he not_mem_nil
  | cons x _ ih => exact forall_mem_cons.2 ⟨⟨previous, h.2.1⟩, ih h.2.2⟩

theorem reason_reconciled_ne (f : TombstoneFields) : f.reconciled ≠ f := by
  intro h
  have hlen := congrArg (·.reason.length) h
  simp [TombstoneFields.reconciled, String.length_append] at hlen

theorem not_signed_of_reappended (hinj : Injective H.sha256)
    (hmac : Injective (signEntry H key)) {n : Entry} (h : Reappended H e n)
    (he : e.Signed H key)
    (hhash : ∃ p, tombstoneChain.chainHash H.sha256 e.fields p = .ok e.contentHash) :
    ¬n.Signed H key := by
  intro hn
  obtain ⟨p, hp⟩ := hhash
  obtain ⟨q, hq⟩ := h.contentHash
  have hsame : n.contentHash = e.contentHash := by
    have hsignatures : some (signEntry H key n.contentHash) =
        some (signEntry H key e.contentHash) := hn.symm.trans (h.signature.trans he)
    exact hmac (Option.some.inj hsignatures)
  rw [hsame, h.fields] at hq
  exact reason_reconciled_ne _ (TombstoneFields.eq_of_agree (agree_of_chainHash hinj hq hp).1)

theorem importAndApply_append {xs ys : List Entry} {p : ImportReport × KeyDb}
    (h : importAndApply H now xs report db = .ok p) :
    importAndApply H now (xs ++ ys) report db = importAndApply H now ys p.1 p.2 := by
  induction xs generalizing report db with
  | nil =>
    obtain rfl := ok.inj h
    rfl
  | cons e _ ih =>
    cases himport : importEntry H e report db with
    | error =>
      rw [importAndApply, himport] at h
      cases h
    | ok =>
      rw [importAndApply_cons himport] at h
      exact (importAndApply_cons himport).trans (ih h)

section Main

variable {backup : KeyDb} {entries rest : List Entry} {now : Time}

theorem missing_of_mem_rest (hentries : entries = backup.tombstones ++ rest)
    (hnodup : (entries.map (·.fields.keyRef)).Nodup) : ∀ e ∈ rest, Missing backup e := by
  intro e he
  rw [hentries, map_append, nodup_append] at hnodup
  rw [Missing, Bool.eq_false_iff]
  intro hdestroyed
  obtain ⟨x, hx, hkey⟩ := isDestroyed_iff.1 hdestroyed
  exact hnodup.2.2 _ (List.mem_map_of_mem hx) _ (List.mem_map_of_mem he) hkey

theorem importAndApply_older_backup (hentries : entries = backup.tombstones ++ rest)
    (hnodup : (entries.map (·.fields.keyRef)).Nodup) :
    (∀ p, importAndApply H now entries {} backup = .ok p → Imported H entries rest backup p.2) ∧
      ((∀ e ∈ rest, e.fields.requestedBy ∈ backup.accounts) →
        ∃ p, importAndApply H now entries {} backup = .ok p) := by
  have hmissing := missing_of_mem_rest hentries hnodup
  obtain ⟨p, hp, hfirst⟩ : ∃ p, importAndApply H now backup.tombstones {} backup = .ok p ∧
      Imported H backup.tombstones [] backup p.2 :=
    importAndApply_present fun e he ↦ isDestroyed_iff.2 ⟨e, he, rfl⟩
  have hsame : p.2.tombstones = backup.tombstones := by
    obtain ⟨new, hnew, hforall⟩ := hfirst.tombstones
    rw [hnew, forall₂_nil_left_iff.1 hforall, append_nil]
  have hrest : ∀ e ∈ rest, Missing p.2 e := fun e he ↦ by
    rw [Missing, hsame]
    exact hmissing e he
  have hnodup' : (rest.map (·.fields.keyRef)).Nodup := by
    rw [hentries, map_append] at hnodup
    exact (nodup_append.1 hnodup).2.1
  obtain ⟨hspec, hexists⟩ := importAndApply_missing (H := H) hrest hnodup'
  rw [hentries, importAndApply_append hp]
  refine ⟨fun q hq ↦ hfirst.trans (hspec q hq), fun hby ↦ hexists ?_⟩
  rw [hfirst.accounts]
  exact hby

variable {db : KeyDb}

theorem Imported.isDestroyed_iff (h : Imported H entries rest backup db)
    (hentries : entries = backup.tombstones ++ rest) :
    isDestroyed db.tombstones keyRef = true ↔ ∃ e ∈ entries, e.fields.keyRef = keyRef := by
  obtain ⟨new, hnew, hforall⟩ := h.tombstones
  rw [Ledger.isDestroyed_iff, hnew, hentries]
  constructor
  · rintro ⟨n, hn, hkey⟩
    rcases mem_append.1 hn with hn | hn
    · exact ⟨n, mem_append_left _ hn, hkey⟩
    · obtain ⟨e, he, hre⟩ := exists_of_mem_left hforall.flip n hn
      have hsame : n.fields.keyRef = e.fields.keyRef := by rw [hre.fields]; rfl
      exact ⟨e, mem_append_right _ he, hsame.symm.trans hkey⟩
  · rintro ⟨e, he, hkey⟩
    rcases mem_append.1 he with he | he
    · exact ⟨e, mem_append_left _ he, hkey⟩
    · obtain ⟨n, hn, hre⟩ := exists_of_mem_left hforall e he
      have hsame : n.fields.keyRef = e.fields.keyRef := by rw [hre.fields]; rfl
      exact ⟨n, mem_append_right _ hn, hsame.trans hkey⟩

theorem importable_of_verified (hinj : Injective H.sha256)
    (hmac : Injective (signEntry H key)) (h : Imported H entries rest backup db)
    (hentries : entries = backup.tombstones ++ rest)
    (hvalid : verifyChain H (some key) entries = .ok [])
    (hverified : verifyChain H (some key) db.tombstones = .ok []) :
    Importable key backup entries := by
  intro e he hmissing
  obtain ⟨hchained, hsignatures⟩ := verifyChain_eq_nil.1 hvalid
  have hrest : e ∈ rest := by
    rw [hentries] at he
    refine (mem_append.1 he).resolve_left fun hold ↦ ?_
    exact Bool.false_ne_true (hmissing.symm.trans (Ledger.isDestroyed_iff.2 ⟨e, hold, rfl⟩))
  refine ⟨fun hkey ↦ ?_, h.requesters e hrest⟩
  obtain ⟨new, hnew, hforall⟩ := h.tombstones
  obtain ⟨n, hn, hre⟩ := exists_of_mem_left hforall e hrest
  have hsigned := signatureProblems_eq_nil ((verifyChain_eq_nil.1 hverified).2 n
    (hnew ▸ mem_append_right _ hn)) (hre.ledgerKeyId.trans hkey)
  exact not_signed_of_reappended hinj hmac hre
    (signatureProblems_eq_nil (hsignatures e he) hkey) (exists_previous hchained e he) hsigned

theorem signatureProblems_of_other (h : e.ledgerKeyId ≠ some key.keyId) :
    signatureProblems H (some key) e = .ok [] := if_neg h

theorem verified_of_importable (h : Imported H entries rest backup db)
    (hentries : entries = backup.tombstones ++ rest)
    (hnodup : (entries.map (·.fields.keyRef)).Nodup)
    (hvalid : verifyChain H (some key) entries = .ok [])
    (himportable : Importable key backup entries) :
    verifyChain H (some key) db.tombstones = .ok [] := by
  obtain ⟨hchained, hsignatures⟩ := verifyChain_eq_nil.1 hvalid
  rw [hentries, map_append] at hchained
  refine verifyChain_eq_nil.2 ⟨h.chained (chained_of_append hchained), fun n hn ↦ ?_⟩
  obtain ⟨new, hnew, hforall⟩ := h.tombstones
  rw [hnew] at hn
  rcases mem_append.1 hn with hn | hn
  · exact hsignatures n (hentries ▸ mem_append_left _ hn)
  · obtain ⟨e, he, hre⟩ := exists_of_mem_left hforall.flip n hn
    have hne := (himportable e (hentries ▸ mem_append_right _ he)
      (missing_of_mem_rest hentries hnodup e he)).1
    rw [← hre.ledgerKeyId] at hne
    exact signatureProblems_of_other hne

theorem reconcileTombstones_of_verified (h : verifyChain H (some key) db.tombstones = .ok []) :
    ∃ report, reconcileTombstones H (some key) now db = .ok (report,
      (reconcileEach now (db.tombstones.map (·.fields.keyRef)) (0, 0) db).2) := by
  rw [reconcileTombstones, h]
  exact ⟨_, rfl⟩

theorem reconcile_of_import (himport : importAndApply H now entries {} db = .ok q)
    (hverified : verifyChain H (some key) q.2.tombstones = .ok []) :
    ∃ report, Book.reconcile H (some key) entries now db = .ok (report,
      (reconcileEach now (q.2.tombstones.map (·.fields.keyRef)) (0, 0) q.2).2) := by
  obtain ⟨report, hreport⟩ : ∃ report, reconcileTombstones H (some key) now q.2 = .ok (report, _) :=
    reconcileTombstones_of_verified hverified
  rw [Book.reconcile, himport]
  simp only [bind, Except.bind, hreport]
  exact ⟨_, rfl⟩

theorem converged_of_imported (h : Imported H entries rest backup db)
    (hentries : entries = backup.tombstones ++ rest)
    (hverified : verifyChain H (some key) db.tombstones = .ok []) : Converged H A master key entries
      (reconcileEach now (db.tombstones.map (·.fields.keyRef)) (0, 0) db).2 := by
  have htombstones := reconcileEach_tombstones now (db.tombstones.map (·.fields.keyRef)) (0, 0) db
  have hspec := reconcileEach_spec now (db.tombstones.map (·.fields.keyRef)) (0, 0) db
  generalize (reconcileEach now (db.tombstones.map (·.fields.keyRef)) (0, 0) db).2 = last
    at htombstones hspec ⊢
  have hshredded : ∀ k, isDestroyed last.tombstones k = true → last.Shredded k := by
    intro k hk
    rw [htombstones, h.isDestroyed_iff hentries] at hk
    obtain ⟨e, he, rfl⟩ := hk
    exact hspec.1 _ (h.shredded e he)
  have hversions : ∀ k, isDestroyed last.tombstones k = true → last.VersionsShredded k := by
    intro k hk
    rw [htombstones, Ledger.isDestroyed_iff] at hk
    obtain ⟨e, he, rfl⟩ := hk
    exact hspec.2 _ (.inl (List.mem_map_of_mem he))
  have hpresent : ∀ e ∈ entries, isDestroyed last.tombstones e.fields.keyRef = true := by
    intro e he
    rw [htombstones, h.isDestroyed_iff hentries]
    exact ⟨e, he, rfl⟩
  refine ⟨hpresent, fun k ciphertext hk ↦ decrypt_of_shredded (hshredded k hk) ciphertext,
    hversions, by rwa [htombstones], fun now' ↦ ?_⟩
  obtain ⟨report, himport⟩ : ∃ report, importAndApply H now' entries {} last = .ok (report, last) :=
    importAndApply_eq_self fun e he ↦ ⟨hpresent e he, hshredded _ (hpresent e he)⟩
  have hagain : verifyChain H (some key) last.tombstones = .ok [] := by rwa [htombstones]
  obtain ⟨report', hreport⟩ := reconcile_of_import himport hagain
  refine ⟨report', hreport.trans ?_⟩
  rw [reconcileEach_eq_self fun k hk ↦ ?_]
  obtain ⟨e, he, rfl⟩ := List.mem_map.1 hk
  have hdestroyed := Ledger.isDestroyed_iff.2 ⟨e, he, rfl⟩
  exact ⟨hshredded _ hdestroyed, hversions _ hdestroyed⟩

end Main

/-- **Reconciling an older backup converges exactly where nothing of the key is missing.** A ledger
that verifies with a key is exported, some time after a backup was taken. Importing it into the
restored backup and reconciling succeeds and leaves every tombstoned key dead, a ledger that
verifies with the same key, and nothing that a second run would change, if and only if no entry
that the backup lacks carries the id of the key, and the backup has the accounts that requested
those entries. -/
theorem reconcile_converges_iff (hinj : Injective H.sha256)
    (hmac : Injective (signEntry H key)) {w w' : KeyWorld}
    (hw : Reached H A master (fun _ op ↦ Onward op) w w')
    (hvalid : verifyChain H (some key) (exportLedger w'.db) = .ok []) (now : Time) :
    (∃ report db, Book.reconcile H (some key) (exportLedger w'.db) now w.db = .ok (report, db) ∧
      Converged H A master key (exportLedger w'.db) db) ↔
      Importable key w.db (exportLedger w'.db) := by
  obtain ⟨rest, hrest⟩ := hw.older
  have hentries : exportLedger w'.db = w.db.tombstones ++ rest := hrest.symm
  have hnodup : ((exportLedger w'.db).map (·.fields.keyRef)).Nodup := w'.db.tombstoneRefs
  obtain ⟨hspec, hexists⟩ := @importAndApply_older_backup H _ _ _ now hentries hnodup
  constructor
  · rintro ⟨report, db, hreconcile, hconverged⟩
    obtain ⟨q, r, himport, happly, hp⟩ := reconcile_eq_ok hreconcile
    obtain ⟨-, rfl⟩ := Prod.mk.inj hp
    have hverified := hconverged.verified
    rw [reconcileTombstones_eq_ok happly, reconcileEach_tombstones] at hverified
    exact importable_of_verified hinj hmac (hspec q himport) hentries hvalid hverified
  · intro himportable
    have hmissing := missing_of_mem_rest hentries hnodup
    obtain ⟨q, himport⟩ := hexists fun e he ↦
      (himportable e (hentries ▸ mem_append_right _ he) (hmissing e he)).2
    have hq := hspec q himport
    have hverified := verified_of_importable hq hentries hnodup hvalid himportable
    obtain ⟨report, hreport⟩ := reconcile_of_import himport hverified
    exact ⟨report, _, hreport, converged_of_imported hq hentries hverified⟩

/-! ## A backup from before a hard delete -/

namespace Sample

def row : KeyRow where
  keyRef := "dek://m1"
  workspaceId := uuid
  targetType := "message"
  targetId := "m1"
  wrappedDek := some [1]
  masterKeyId := "mk-1"
  status := .active
  check := ⟨nofun, nofun⟩

def backup : KeyDb where
  workspaces := [uuid]
  accounts := [uuid]
  keys := [row]
  keyRefs := nodup_singleton _
  keyWorkspaces := forall_mem_singleton.2 (mem_singleton.2 rfl)
  requesters := empty.db.requesters

/-- The key is destroyed by a hard delete, with a ledger key. -/
def hardDelete (k : LedgerKey) : KeyOp :=
  .hardDelete (some k) "HARD_DELETE" uuid clocks ["dek://m1"]

theorem exportLedger_hardDelete (k : LedgerKey) : ∃ hash,
    exportLedger (KeyWorld.step hashes aead masterKey ⟨backup, []⟩ (hardDelete k)).db =
        [⟨⟨"dek://m1", uuid, "message", "m1", "HARD_DELETE", uuid, none, clocks.clock⟩, none, hash,
          some (signEntry hashes k hash), some k.keyId⟩] ∧ tombstoneChain.chainHash hashes.sha256
        ⟨"dek://m1", uuid, "message", "m1", "HARD_DELETE", uuid, none, clocks.clock⟩ none =
          .ok hash := by
  obtain ⟨hash, hhash⟩ := exists_chainHash (H := hashes)
    ⟨"dek://m1", uuid, "message", "m1", "HARD_DELETE", uuid, none, clocks.clock⟩ none
  have hshred : shredKey "dek://m1" clocks.now backup =
      .ok (some row, backup.shred "dek://m1" fun _ ↦ clocks.now) := rfl
  obtain ⟨db', hinsert⟩ : ∃ db', (backup.shred "dek://m1" fun _ ↦ clocks.now).insertTombstone
      ⟨⟨"dek://m1", uuid, "message", "m1", "HARD_DELETE", uuid, none, clocks.clock⟩, none, hash,
        some (signEntry hashes k hash), some k.keyId⟩ = .ok db' :=
    KeyDb.insertTombstone_of_fresh not_mem_nil (mem_singleton.2 rfl)
  have hbury : bury hashes (some k) "HARD_DELETE" uuid clocks (some row)
      (backup.shred "dek://m1" fun _ ↦ clocks.now) = .ok db' := by
    exact (recordTombstone_book_of_new rfl hhash).trans hinsert
  have hdestroy : destroyKeys hashes (some k) "HARD_DELETE" uuid clocks ["dek://m1"] backup =
      .ok db' := by
    rw [destroyKeys, hshred]
    simp only [bind, Except.bind, hbury]
    rfl
  refine ⟨hash, ?_, hhash⟩
  rw [hardDelete, KeyWorld.step, hdestroy]
  exact (KeyDb.insertTombstone_eq_ok hinsert).1

end Sample

open Sample

/-- The hard delete was signed with an earlier key. -/
theorem reconcile_converges_iff_earlier : ∃ report db, Book.reconcile hashes (some ledgerKey)
        (exportLedger (KeyWorld.step hashes aead masterKey
          ⟨Sample.backup, []⟩ (hardDelete ⟨"lk-0", [2]⟩)).db) 9 Sample.backup =
      .ok (report, db) := by
  obtain ⟨hash, hexport, hhash⟩ := exportLedger_hardDelete ⟨"lk-0", [2]⟩
  have hother : some "lk-0" ≠ some ledgerKey.keyId := by decide
  have hvalid : verifyChain hashes (some ledgerKey)
      (exportLedger (KeyWorld.step hashes aead masterKey ⟨Sample.backup, []⟩
        (hardDelete ⟨"lk-0", [2]⟩)).db) = .ok [] := by
    rw [hexport]
    exact verifyChain_eq_nil.2 ⟨⟨rfl, hhash, trivial⟩,
      forall_mem_singleton.2 (signatureProblems_of_other hother)⟩
  obtain ⟨report, db, hreconcile, -⟩ := (reconcile_converges_iff AgentColab.Sample.keep_injective
    signEntry_injective (.step (hardDelete ⟨"lk-0", [2]⟩) .refl trivial) hvalid 9).2
    (by
      rw [hexport]
      exact forall_mem_singleton.2 fun _ ↦ ⟨hother, mem_singleton.2 rfl⟩)
  exact ⟨report, db, hreconcile⟩

/-- **The ledger does not verify after the import** of an entry that was signed with the key. -/
theorem reimported_signature_invalid : ¬∀ (H : Hashes) (key : LedgerKey) (w w' : KeyWorld),
      Injective H.sha256 → Injective (signEntry H key) →
      Reached H aead masterKey (fun _ op ↦ Onward op) w w' →
      verifyChain H (some key) (exportLedger w'.db) = .ok [] → ∃ report db,
        Book.reconcile H (some key) (exportLedger w'.db) 9 w.db = .ok (report, db) ∧
          verifyChain H (some key) db.tombstones = .ok [] := by
  intro h
  obtain ⟨hash, hexport, hhash⟩ := exportLedger_hardDelete ledgerKey
  have hvalid : verifyChain hashes (some ledgerKey)
      (exportLedger (KeyWorld.step hashes aead masterKey ⟨Sample.backup, []⟩
        (hardDelete ledgerKey)).db) = .ok [] := by
    rw [hexport]
    exact verifyChain_eq_nil.2 ⟨⟨rfl, hhash, trivial⟩,
      forall_mem_singleton.2 (signatureProblems_signed rfl)⟩
  obtain ⟨report, db, hreconcile, hverified⟩ := h hashes ledgerKey
    ⟨Sample.backup, []⟩ _ AgentColab.Sample.keep_injective signEntry_injective
    (.step (hardDelete ledgerKey) .refl trivial) hvalid
  obtain ⟨q, r, himport, happly, hp⟩ := reconcile_eq_ok hreconcile
  obtain ⟨-, rfl⟩ := Prod.mk.inj hp
  rw [reconcileTombstones_eq_ok happly, reconcileEach_tombstones] at hverified
  rw [hexport] at himport hvalid
  generalize hentry : Entry.mk _ _ _ _ _ = entry at himport hvalid
  have hentries : [entry] = Sample.backup.tombstones ++ [entry] := rfl
  have himported := (importAndApply_older_backup hentries (nodup_singleton _)).1 q himport
  have himportable := importable_of_verified AgentColab.Sample.keep_injective
    signEntry_injective himported hentries hvalid hverified
  exact (himportable entry mem_cons_self rfl).1 (by rw [← hentry])

end AgentColab.Ledger
