import AgentColab.Ledger.Revival
import AgentColab.Retention.Job

/-!
# What a pass does

The rows of a pass are of different messages, so each is treated as the selection found it: it is
left alone, or its message is redacted and its key destroyed. Nothing stops the pass if every key
that it comes to is there and has no tombstone unless it is destroyed.
-/

namespace AgentColab.Retention

open AgentColab Ledger List
open Except (ok)

/-! ## What a row says -/

/-- The selection found the message expired and not held. -/
def Selected.Due (inp : JobInput) (x : Selected) : Prop :=
  x.expiresAt < inp.now ∧ x.channelHold = false ∧ x.message.legalHold = false

def Store.Held (s : Store) (m : Message) : Prop :=
  (s.policyFor m.channelId).legalHold = true ∨ m.legalHold = true

def Store.Expired (s : Store) (now : Time) (m : Message) : Prop :=
  m.receivedAt + days (s.policyFor m.channelId).retentionDays < now

theorem due_join {s : Store} {inp : JobInput} {m : Message} :
    (s.join m).Due inp ↔ s.Expired inp.now m ∧ ¬s.Held m := by
  simp [Selected.Due, Store.Held, Store.Expired, Store.join, Selected.expiresAt]

/-- A key that the account can destroy, or that is destroyed already. -/
def Destroyable (actor : String) (db : KeyDb) (keyRef : String) : Prop :=
  ∃ row, db.key? keyRef = some row ∧ (row.status = .destroyed ∨
    isDestroyed db.tombstones keyRef = false ∧ ∃ a ∈ db.accounts, parseUuid actor = some a)

/-- Nothing keeps the pass from destroying the message. -/
structure CanDestroy (inp : JobInput) (s : Store) (x : Selected) : Prop where
  key : ∀ keyRef, x.message.bodyKeyRef.filter (· ≠ "") = some keyRef →
    Destroyable inp.actorAccountId s.keys keyRef
  tombstone : x.message.messageId ∉ s.tombstones.map (·.fields.messageId)

section Keys

variable {H : Hashes} {inp : JobInput} {clocks : Clocks} {db db' : KeyDb} {keyRef : String}

theorem key?_shred (t : KeyRow → Time) (k : String) :
    (db.shred keyRef t).key? k = (db.key? k).map (shredRow keyRef t) := by
  have hrefs : (fun r : KeyRow ↦ decide (r.keyRef = k)) ∘ shredRow keyRef t =
      fun r ↦ decide (r.keyRef = k) := funext fun r ↦ by
    rw [Function.comp_apply, shredRow_keyRef]
  rw [KeyDb.key?, KeyDb.shred, List.find?_map, hrefs]
  rfl

variable {k reason : String} {key : Option String}

theorem destroy_eq_ok {requestedBy : String} {auditEventId : Option String}
    (h : destroy H keyRef requestedBy reason auditEventId clocks db = .ok db') :
    (∃ e, e.fields.keyRef = keyRef ∧ db'.tombstones = db.tombstones ++ [e]) ∧
      db'.accounts = db.accounts ∧ db'.keys = (db.shred keyRef fun _ ↦ clocks.now).keys := by
  rw [destroy] at h
  cases hrow : db.key? keyRef with
  | none =>
    rw [hrow] at h
    cases h
  | some =>
    simp only [hrow] at h
    split at h
    · cases h
    · split at h
      · cases h
      · obtain ⟨hash, -, htombstones, hkeys, -, haccounts⟩ := insertTombstone_eq_ok h
        exact ⟨⟨_, rfl, htombstones⟩, haccounts, hkeys⟩

theorem exists_insertTombstone (db : KeyDb) {fields : TombstoneFields}
    (hnew : fields.keyRef ∉ db.tombstones.map (·.fields.keyRef))
    (hby : fields.requestedBy ∈ db.accounts) :
    ∃ db', insertTombstone H fields none none db = .ok db' := by
  obtain ⟨hash, hhash⟩ := exists_chainHash (H := H) fields (Ledger.lastHash db.tombstones)
  simp only [insertTombstone, chainHash_eq_ok.2 hhash, KeyDb.insertTombstone, dif_neg hnew,
    dif_pos hby]
  exact ⟨_, rfl⟩

theorem exists_destroy (clocks : Clocks) (reason : String)
    (h : Destroyable inp.actorAccountId db keyRef) :
    destroy H keyRef inp.actorAccountId reason none clocks db =
        .error (.crypto "KEY_ALREADY_DESTROYED" keyRef) ∨
      ∃ db', destroy H keyRef inp.actorAccountId reason none clocks db = .ok db' := by
  obtain ⟨row, hrow, hdestroyed | ⟨hnew, a, ha, hparse⟩⟩ := h
  · left
    simp only [destroy, hrow, if_pos hdestroyed]
  · by_cases hdestroyed : row.status = .destroyed
    · left
      simp only [destroy, hrow, if_pos hdestroyed]
    right
    simp only [destroy, hrow, if_neg hdestroyed, hparse]
    refine exists_insertTombstone (db.shred keyRef fun _ ↦ clocks.now) ?_ ha
    change keyRef ∉ db.tombstones.map (·.fields.keyRef)
    simpa [isDestroyed] using hnew

theorem Destroyable.destroy {actor : String} (h : Destroyable actor db k)
    (hdestroy : Ledger.destroy H keyRef inp.actorAccountId reason none clocks db = .ok db') :
    Destroyable actor db' k := by
  obtain ⟨⟨e, he, htombstones⟩, haccounts, hkeys⟩ := destroy_eq_ok hdestroy
  have hkey : db'.key? k = (db.key? k).map (shredRow keyRef fun _ ↦ clocks.now) := by
    rw [← key?_shred, KeyDb.key?, hkeys]
    rfl
  obtain ⟨row, hrow, hstatus⟩ := h
  refine ⟨_, by rw [hkey, hrow]; rfl, ?_⟩
  by_cases hsame : row.keyRef = keyRef
  · left
    rw [shredRow, if_pos hsame]
    rfl
  · rw [shredRow, if_neg hsame]
    refine hstatus.imp_right ?_
    rintro ⟨hnew, a, ha, hparse⟩
    refine ⟨?_, a, haccounts ▸ ha, hparse⟩
    rw [htombstones, ← Bool.not_eq_true, isDestroyed_append, hnew, he]
    rintro (h | h)
    · cases h
    · exact hsame ((mem_of_key? hrow).2.trans h.symm)

theorem exists_destroyBody (clocks : Clocks)
    (h : ∀ keyRef, key.filter (· ≠ "") = some keyRef → Destroyable inp.actorAccountId db keyRef) :
    ∃ db', destroyBody H inp clocks key db = .ok db' := by
  rw [destroyBody]
  cases hkey : key.filter (· ≠ "") with
  | none => exact ⟨_, rfl⟩
  | some keyRef =>
    obtain hdone | ⟨db', hdb'⟩ := exists_destroy (H := H) clocks "RETENTION" (h keyRef hkey)
    · exact ⟨db, by simp only [hdone, if_true]⟩
    · exact ⟨db', by simp only [hdb']⟩

theorem destroyBody_eq_ok (h : destroyBody H inp clocks key db = .ok db') : db' = db ∨ ∃ keyRef,
      Ledger.destroy H keyRef inp.actorAccountId "RETENTION" none clocks db = .ok db' := by
  rw [destroyBody] at h
  split at h
  · exact .inl (ok.inj h).symm
  · rename_i keyRef _
    split at h
    · rename_i hdestroy
      exact .inr ⟨keyRef, hdestroy.trans (congrArg _ (ok.inj h))⟩
    · split at h
      · exact .inl (ok.inj h).symm
      · cases h
    · cases h

theorem Shredded.destroy (h : db.Shredded k)
    (hdestroy : Ledger.destroy H keyRef inp.actorAccountId reason none clocks db = .ok db') :
    db'.Shredded k := by
  rw [KeyDb.Shredded, (destroy_eq_ok hdestroy).2.2]
  refine List.forall_mem_map.2 fun r hr href ↦ shredRow_status (h r hr ?_)
  rwa [shredRow_keyRef] at href

theorem shredded_of_destroyed {detail : String} (h : Ledger.destroy H keyRef inp.actorAccountId
    reason none clocks db = .error (.crypto "KEY_ALREADY_DESTROYED" detail)) :
    db.Shredded keyRef := by
  rw [Ledger.destroy] at h
  split at h
  · injection h with h
    injection h with h
    exact absurd h (by decide)
  rename_i row hrow
  split at h
  · rename_i hstatus
    intro r hr href
    rwa [eq_of_key? hrow hr href]
  split at h
  · cases h
  rw [insertTombstone] at h
  split at h
  · cases h
  rw [KeyDb.insertTombstone] at h
  split at h
  · cases h
  · split at h <;> cases h

theorem destroyBody_shredded (h : destroyBody H inp clocks key db = .ok db')
    (hkey : key.filter (· ≠ "") = some keyRef) : db'.Shredded keyRef := by
  rw [destroyBody, hkey] at h
  simp only at h
  split at h
  · rename_i hdestroy
    obtain rfl := ok.inj h
    rw [KeyDb.Shredded, (destroy_eq_ok hdestroy).2.2]
    exact shred_shredded db keyRef _
  · split at h
    · rename_i code detail hdestroy hcode
      obtain rfl := ok.inj h
      exact shredded_of_destroyed (hcode ▸ hdestroy)
    · cases h
  · cases h

end Keys

/-! ## What the job does -/

section Job

variable {H : Hashes} {inp : JobInput} {clocks : Clocks} {s s' : Store} {x : Selected}
  {report report' : RetentionReport}

theorem exists_hash (fields : MessageTombstone) (previous : Option String) :
    ∃ hash, messageTombstoneChain.chainHash H.sha256 fields previous = .ok hash := by
  have hfinite : (Json.obj (messageTombstoneChain.hashedRowFields fields ++
      [("previous_hash", .ofOption previous)])).isFinite = true := by
    simp [messageTombstoneChain, Json.isFinite, Json.All, allMembers]
  rw [ChainSpec.chainHash, canonicalJson, if_pos hfinite]
  exact ⟨_, rfl⟩

theorem appendTombstone_eq_ok {fields : MessageTombstone} {hash : String}
    (h : appendTombstone H fields s = .ok (hash, s')) :
    s'.messages = s.messages ∧ s'.policies = s.policies ∧ s'.keys = s.keys ∧
      s'.tombstones.map (·.fields.messageId) =
        s.tombstones.map (·.fields.messageId) ++ [fields.messageId] := by
  rw [appendTombstone] at h
  split at h
  · cases h
  · split at h
    · cases h
    · obtain ⟨-, rfl⟩ := Prod.mk.inj (ok.inj h)
      exact ⟨rfl, rfl, rfl, map_append⟩

theorem exists_appendTombstone (s : Store) (fields : MessageTombstone)
    (h : fields.messageId ∉ s.tombstones.map (·.fields.messageId)) :
    ∃ hash s', appendTombstone H fields s = .ok (hash, s') := by
  obtain ⟨hash, hhash⟩ := exists_hash (H := H) fields (s.tombstones.getLast?.map (·.contentHash))
  simp only [appendTombstone, hhash, dif_neg h]
  exact ⟨_, _, rfl⟩

/-- What the job does with a row. -/
structure Retained (inp : JobInput) (x : Selected) (s s' : Store) : Prop where
  policies : s'.policies = s.policies
  kept : ¬x.Due inp → s' = s
  redacted : x.Due inp → ∃ hash,
    s'.messages = s.messages.map (Message.redact x.message.messageId inp.now hash)
  shredded : x.Due inp → ∀ keyRef, x.message.bodyKeyRef.filter (· ≠ "") = some keyRef →
    s'.keys.Shredded keyRef
  still : ∀ keyRef, s.keys.Shredded keyRef → s'.keys.Shredded keyRef
  can : ∀ y : Selected, y.message.messageId ≠ x.message.messageId → CanDestroy inp s y →
    CanDestroy inp s' y

theorem not_due_of_le (h : inp.now ≤ x.expiresAt) : ¬x.Due inp := fun hdue ↦
  absurd hdue.1 (not_lt_of_ge h)

theorem not_due_of_held (h : (x.channelHold || x.message.legalHold) = true) : ¬x.Due inp := by
  rintro ⟨-, hchannel, hmessage⟩
  simp [hchannel, hmessage] at h

theorem Retained.refl (h : ¬x.Due inp) : Retained inp x s s :=
  ⟨rfl, fun _ ↦ rfl, fun hdue ↦ absurd hdue h, fun hdue ↦ absurd hdue h, fun _ h ↦ h,
    fun _ _ hcan ↦ hcan⟩

theorem retainRow_eq_ok (h : retainRow H inp clocks x s report = .ok (s', report')) :
    Retained inp x s s' := by
  rw [retainRow] at h
  split at h
  · rename_i hle
    obtain ⟨rfl, -⟩ := Prod.mk.inj (ok.inj h)
    exact .refl (not_due_of_le hle)
  rename_i hlt
  split at h
  · rename_i hheld
    obtain ⟨rfl, -⟩ := Prod.mk.inj (ok.inj h)
    exact .refl (not_due_of_held hheld)
  rename_i hfree
  have hdue : x.Due inp := by
    simp only [Bool.or_eq_true, not_or, Bool.not_eq_true] at hfree
    exact ⟨lt_of_not_ge hlt, hfree.1, hfree.2⟩
  cases hbody : destroyBody H inp clocks x.message.bodyKeyRef s.keys with
  | error =>
    rw [hbody] at h
    cases h
  | ok keys =>
    rw [hbody] at h
    simp only [bind, Except.bind] at h
    split at h
    · cases h
    · rename_i result happend
      obtain ⟨hash, s₁⟩ := result
      obtain ⟨rfl, -⟩ := Prod.mk.inj (ok.inj h)
      obtain ⟨hmessages, hpolicies, hkeys, htombstones⟩ := appendTombstone_eq_ok happend
      refine ⟨hpolicies, fun hnot ↦ absurd hdue hnot, fun _ ↦ ⟨hash, ?_⟩, fun _ k hk ↦ ?_,
        fun k hk ↦ ?_, fun y hne hcan ↦ ?_⟩
      · exact congrArg (List.map (Message.redact x.message.messageId inp.now hash)) hmessages
      · change s₁.keys.Shredded k
        rw [hkeys]
        exact destroyBody_shredded hbody hk
      · change s₁.keys.Shredded k
        rw [hkeys]
        obtain rfl | ⟨_, hdestroy⟩ := destroyBody_eq_ok hbody
        · exact hk
        · exact Shredded.destroy hk hdestroy
      · refine ⟨fun keyRef hkey ↦ ?_, ?_⟩
        · change Destroyable _ s₁.keys keyRef
          rw [hkeys]
          obtain rfl | ⟨_, hdestroy⟩ := destroyBody_eq_ok hbody
          · exact hcan.key keyRef hkey
          · exact (hcan.key keyRef hkey).destroy hdestroy
        · change _ ∉ s₁.tombstones.map _
          rw [htombstones, mem_append, mem_singleton]
          exact not_or.2 ⟨hcan.tombstone, hne⟩

theorem exists_retainRow (clocks : Clocks) (report : RetentionReport)
    (hcan : x.Due inp → CanDestroy inp s x) :
    ∃ result, retainRow H inp clocks x s report = .ok result := by
  rw [retainRow]
  split
  · exact ⟨_, rfl⟩
  rename_i hlt
  simp only
  split
  · exact ⟨_, rfl⟩
  rename_i hfree
  simp only [Bool.or_eq_true, not_or, Bool.not_eq_true] at hfree
  have h := hcan ⟨lt_of_not_ge hlt, hfree.1, hfree.2⟩
  obtain ⟨keys, hkeys⟩ := exists_destroyBody (H := H) clocks h.key
  obtain ⟨hash, s', happend⟩ := exists_appendTombstone (H := H) { s with keys := keys }
    ⟨x.message.messageId, x.message.channelId, "RETENTION",
      x.message.bodyKeyRef.filter (· ≠ ""), inp.now⟩ h.tombstone
  rw [hkeys]
  simp only [bind, Except.bind, happend]
  exact ⟨_, rfl⟩

/-- What the job does with its rows, of which no two are of one message. -/
structure RetainedAll (inp : JobInput) (rows : List Selected) (s s' : Store) : Prop where
  policies : s'.policies = s.policies
  kept : ∀ m ∈ s.messages, (∀ x ∈ rows, x.Due inp → x.message.messageId ≠ m.messageId) →
    m ∈ s'.messages
  redacted : ∀ m ∈ s.messages, (∃ x ∈ rows, x.Due inp ∧ x.message.messageId = m.messageId) →
    ∃ m' ∈ s'.messages, m'.messageId = m.messageId ∧ m'.deletedAt ≠ none
  shredded : ∀ x ∈ rows, x.Due inp → ∀ keyRef,
    x.message.bodyKeyRef.filter (· ≠ "") = some keyRef → s'.keys.Shredded keyRef
  still : ∀ keyRef, s.keys.Shredded keyRef → s'.keys.Shredded keyRef

theorem Retained.message (h : Retained inp x s s') {m : Message} (hm : m ∈ s.messages) :
    ∃ m' ∈ s'.messages, m'.messageId = m.messageId ∧ (m.deletedAt ≠ none → m'.deletedAt ≠ none) ∧
      (x.Due inp → x.message.messageId = m.messageId → m'.deletedAt ≠ none) ∧
      ((x.Due inp → x.message.messageId ≠ m.messageId) → m' = m) := by
  by_cases hdue : x.Due inp
  · obtain ⟨hash, hmessages⟩ := h.redacted hdue
    refine ⟨m.redact x.message.messageId inp.now hash, ?_, Message.redact_messageId .., ?_, ?_, ?_⟩
    · rw [hmessages]
      exact List.mem_map_of_mem hm
    · intro hdeleted
      rw [Message.redact]
      split
      · exact Option.some_ne_none _
      · exact hdeleted
    · intro _ hid
      rw [Message.redact, if_pos hid.symm]
      exact Option.some_ne_none _
    · intro hne
      rw [Message.redact, if_neg fun hid ↦ hne hdue hid.symm]
  · rw [h.kept hdue]
    exact ⟨m, hm, rfl, id, fun hdue' ↦ absurd hdue' hdue, fun _ ↦ rfl⟩

variable {rows : List Selected}

theorem retainRows_eq_ok (h : retainRows H inp clocks rows s report = .ok (s', report')) :
    RetainedAll inp rows s s' := by
  induction rows generalizing s report with
  | nil =>
    obtain ⟨rfl, -⟩ := Prod.mk.inj (ok.inj h)
    exact ⟨rfl, fun _ hm _ ↦ hm, fun _ _ ⟨x, hx, _⟩ ↦ absurd hx not_mem_nil,
      fun x hx ↦ absurd hx not_mem_nil, fun _ h ↦ h⟩
  | cons x rows ih =>
    rw [retainRows] at h
    cases hrow : retainRow H inp clocks x s report with
    | error =>
      rw [hrow] at h
      cases h
    | ok result =>
      obtain ⟨s₁, report₁⟩ := result
      rw [hrow] at h
      have hfirst := retainRow_eq_ok hrow
      have hrest := ih h
      refine ⟨hrest.policies.trans hfirst.policies, fun m hm hne ↦ ?_, fun m hm hsome ↦ ?_, ?_,
        fun k hk ↦ hrest.still k (hfirst.still k hk)⟩
      · obtain ⟨m₁, hm₁, -, -, -, hsame⟩ := hfirst.message hm
        obtain rfl := hsame (hne x mem_cons_self)
        exact hrest.kept m₁ hm₁ fun y hy ↦ hne y (mem_cons_of_mem _ hy)
      · obtain ⟨m₁, hm₁, hid, hdeleted, hnow, -⟩ := hfirst.message hm
        by_cases hlater : ∃ y ∈ rows, y.Due inp ∧ y.message.messageId = m₁.messageId
        · obtain ⟨m₂, hm₂, hid₂, hdeleted₂⟩ := hrest.redacted m₁ hm₁ hlater
          exact ⟨m₂, hm₂, hid₂.trans hid, hdeleted₂⟩
        · have hkept := hrest.kept m₁ hm₁ fun y hy hdue heq ↦ hlater ⟨y, hy, hdue, heq⟩
          obtain ⟨y, hy, hdue, heq⟩ := hsome
          rcases mem_cons.1 hy with rfl | hy
          · exact ⟨m₁, hkept, hid, hnow hdue heq⟩
          · exact absurd ⟨y, hy, hdue, heq.trans hid.symm⟩ hlater
      · rw [forall_mem_cons]
        exact ⟨fun hdue k hk ↦ hrest.still k (hfirst.shredded hdue k hk), hrest.shredded⟩

theorem exists_retainRows (clocks : Clocks) (report : RetentionReport)
    (hids : (rows.map (·.message.messageId)).Nodup)
    (hcan : ∀ x ∈ rows, x.Due inp → CanDestroy inp s x) :
    ∃ result, retainRows H inp clocks rows s report = .ok result := by
  induction rows generalizing s report with
  | nil => exact ⟨_, rfl⟩
  | cons x _ ih =>
    obtain ⟨hnew, hids⟩ := nodup_cons.1 hids
    rw [forall_mem_cons] at hcan
    obtain ⟨⟨s₁, report₁⟩, hrow⟩ := exists_retainRow (H := H) clocks report hcan.1
    rw [retainRows, hrow]
    refine ih _ hids fun y hy hdue ↦ (retainRow_eq_ok hrow).can y (fun hid ↦ ?_) (hcan.2 y hy hdue)
    exact hnew (List.mem_map.2 ⟨y, hy, hid⟩)

end Job

end AgentColab.Retention
