import AgentColab.Ledger.Tombstones

/-!
# What an edit of the signed ledger cannot hide

Whoever edits the ledger without the key has only the MACs that are in it. If the last entry passes
the check of its signature, it is the hash of an entry that was appended; and a hash in a verified
chain determines the rows up to it.

The id of the key is not covered by the hash, and an entry without it is not checked at all.
-/

namespace AgentColab.Ledger

open AgentColab List Option

variable {H : Hashes} {key : LedgerKey} {original edited : List Entry}

/-! ## Ledgers that were signed -/

/-- The ledgers that appends with one key make. -/
inductive SignedLedger (H : Hashes) (key : LedgerKey) : List Entry → Prop
  | empty : SignedLedger H key []
  | append {ledger ledger' : List Entry} {fields : TombstoneFields} (h : SignedLedger H key ledger)
      (hrecord : recordTombstone H key ledger fields = .ok ledger') : SignedLedger H key ledger'

variable {ledger : List Entry} {fields : TombstoneFields} {e : Entry}

theorem recordTombstone_eq_ok {ledger' : List Entry}
    (h : recordTombstone H key ledger fields = .ok ledger') :
    isDestroyed ledger fields.keyRef = false ∧ ∃ hash,
      tombstoneChain.chainHash H.sha256 fields (lastHash ledger) = .ok hash ∧
        ledger' = ledger ++ [⟨fields, lastHash ledger, hash, some (signEntry H key hash),
          some key.keyId⟩] := by
  rw [recordTombstone] at h
  split at h
  · cases h
  · rename_i hnew
    obtain ⟨hash, hhash⟩ := exists_chainHash (H := H) fields (lastHash ledger)
    rw [chainHash_eq_ok.2 hhash] at h
    exact ⟨Bool.eq_false_iff.2 hnew, hash, hhash, (Except.ok.inj h).symm⟩

theorem headHash_row (ledger : List Entry) :
    headHash none (ledger.map Entry.row) = lastHash ledger := by
  rw [headHash, or_none, List.getLast?_map, Option.map_map]
  rfl

theorem chained_append : Chained H.sha256 tombstoneChain none ((ledger ++ [e]).map Entry.row) ↔
      Chained H.sha256 tombstoneChain none (ledger.map Entry.row) ∧
        e.previousHash = lastHash ledger ∧
          tombstoneChain.chainHash H.sha256 e.fields (lastHash ledger) = .ok e.contentHash := by
  rw [map_append, map_singleton, chained_concat, headHash_row]
  rfl

theorem SignedLedger.sound (h : SignedLedger H key original) :
    Chained H.sha256 tombstoneChain none (original.map Entry.row) ∧
      ∀ e ∈ original, e.Signed H key ∧ e.ledgerKeyId = some key.keyId := by
  induction h with
  | empty => exact ⟨trivial, nofun⟩
  | append _ hrecord ih =>
    obtain ⟨-, hash, hhash, rfl⟩ := recordTombstone_eq_ok hrecord
    refine ⟨chained_append.2 ⟨ih.1, rfl, hhash⟩, fun e he ↦ ?_⟩
    rcases mem_append.1 he with he | he
    · exact ih.2 e he
    · rw [mem_singleton.1 he]
      exact ⟨rfl, rfl⟩

/-! ## Editing without the key -/

/-- Every MAC of the key in the edited ledger is of a hash that was signed. -/
def Unforged (H : Hashes) (key : LedgerKey) (original edited : List Entry) : Prop :=
  ∀ e ∈ edited, ∀ hash, e.signature = some (signEntry H key hash) →
    ∃ o ∈ original, o.contentHash = hash

theorem Entry.eq_of_agrees {o : Entry} (h : e.row.Agrees tombstoneChain o.row)
    (he : e.Signed H key ∧ e.ledgerKeyId = some key.keyId)
    (ho : o.Signed H key ∧ o.ledgerKeyId = some key.keyId) : e = o := by
  have hfields : e.fields = o.fields := TombstoneFields.eq_of_agree h.fields
  have hprevious : e.previousHash = o.previousHash := h.previousHash
  have hhash : e.contentHash = o.contentHash := h.contentHash
  have hsignature : e.signature = o.signature := by rw [he.1, ho.1, hhash]
  have hid : e.ledgerKeyId = o.ledgerKeyId := he.2.trans ho.2.symm
  cases e
  cases o
  simp only at hfields hprevious hhash hsignature hid
  rw [hfields, hprevious, hhash, hsignature, hid]

theorem eq_of_forall₂_agrees {xs ys : List Entry}
    (h : List.Forall₂ (ChainRow.Agrees tombstoneChain) (xs.map Entry.row) (ys.map Entry.row))
    (hx : ∀ e ∈ xs, e.Signed H key ∧ e.ledgerKeyId = some key.keyId)
    (hy : ∀ o ∈ ys, o.Signed H key ∧ o.ledgerKeyId = some key.keyId) : xs = ys := by
  rw [forall₂_map_left_iff, forall₂_map_right_iff] at h
  induction h with
  | nil => rfl
  | cons hrow _ ih =>
    rw [forall_mem_cons] at hx hy
    rw [Entry.eq_of_agrees hrow hx.1 hy.1, ih hx.2 hy.2]

theorem prefix_of_verified (hinj : Function.Injective H.sha256)
    (hsigned : SignedLedger H key original) (hunforged : Unforged H key original edited)
    (hverify : verifyChain H (some key) edited = .ok [])
    (hkeys : ∀ e ∈ edited, e.ledgerKeyId = some key.keyId) : edited <+: original := by
  obtain ⟨hchained, hsignatures⟩ := verifyChain_eq_nil.1 hverify
  obtain ⟨horiginal, hentries⟩ := hsigned.sound
  have hedited : ∀ e ∈ edited, e.Signed H key ∧ e.ledgerKeyId = some key.keyId := fun e he ↦
    ⟨signatureProblems_eq_nil (hsignatures e he) (hkeys e he), hkeys e he⟩
  rcases eq_nil_or_concat' edited with rfl | ⟨before, e, rfl⟩
  · exact nil_prefix
  have hlast := mem_append_right before (mem_singleton.2 (Eq.refl e))
  -- the last hash was signed, so it is the hash of an original entry
  obtain ⟨o, ho, hhash⟩ := hunforged e hlast e.contentHash (hedited e hlast).1
  obtain ⟨head, tail, rfl⟩ := append_of_mem ho
  have hsplit : head ++ o :: tail = head ++ [o] ++ tail := by simp
  rw [hsplit] at horiginal hentries ⊢
  rw [map_append] at horiginal
  have hheads : headHash none ((before ++ [e]).map Entry.row) =
      headHash none ((head ++ [o]).map Entry.row) := by
    rw [headHash_row, headHash_row, lastHash, lastHash]
    simp [hhash]
  have hagrees := chains_agree hinj hchained (chained_of_append horiginal) hheads
  rw [eq_of_forall₂_agrees hagrees hedited fun x hx ↦ hentries x (mem_append_left _ hx)]
  exact prefix_append ..

/-- **The signed ledger is tamper-evident exactly where its entries name the key.** A ledger that
was signed with a key is edited in any way by someone who has no MACs but those in it. If no
problem is reported then what is left is what was appended, entry for entry from the beginning, if
and only if every entry that is left carries the id of the key. -/
theorem tamper_evident_iff (hinj : Function.Injective H.sha256)
    (hsigned : SignedLedger H key original) (hunforged : Unforged H key original edited)
    (hverify : verifyChain H (some key) edited = .ok []) :
    edited <+: original ↔ ∀ e ∈ edited, e.ledgerKeyId = some key.keyId := by
  constructor
  · exact fun hbefore e he ↦ (hsigned.sound.2 e (hbefore.mem he)).2
  · exact prefix_of_verified hinj hsigned hunforged hverify

/-! ## Clearing the id of the key -/

theorem recordTombstone_of_new (key : LedgerKey) (ledger : List Entry) {hash : String}
    (hnew : isDestroyed ledger fields.keyRef = false)
    (hhash : tombstoneChain.chainHash H.sha256 fields (lastHash ledger) = .ok hash) :
    recordTombstone H key ledger fields = .ok (ledger ++ [⟨fields, lastHash ledger, hash,
      some (signEntry H key hash), some key.keyId⟩]) := by
  rw [recordTombstone, hnew, if_neg Bool.false_ne_true, chainHash_eq_ok.2 hhash]
  rfl

theorem signatureProblems_of_signed (h : e.Signed H key)
    (hascii : (signEntry H key e.contentHash).toList.all (·.toNat < 128) = true)
    (hne : signEntry H key e.contentHash ≠ "") : signatureProblems H (some key) e = .ok [] := by
  rw [signatureProblems]
  split
  · rw [h, show (some (signEntry H key e.contentHash)).filter (· ≠ "") = _ from
      filter_some_pos (decide_eq_true hne)]
    dsimp only [compareDigest]
    rw [hascii]
    simp [bind, Except.bind, pure, Except.pure]
  · rfl

/-- **A signed ledger verifies**: what appends with one key make has no problem and no key twice, if
MACs are texts in ASCII that are not empty. -/
theorem signed_verifies (hascii : ∀ hash, (signEntry H key hash).toList.all (·.toNat < 128) = true)
    (hne : ∀ hash, signEntry H key hash ≠ "") (h : SignedLedger H key ledger) :
    verifyChain H (some key) ledger = .ok [] ∧ (ledger.map (·.fields.keyRef)).Nodup := by
  refine ⟨verifyChain_eq_nil.2 ⟨h.sound.1, fun e he ↦
    signatureProblems_of_signed (h.sound.2 e he).1 (hascii _) (hne _)⟩, ?_⟩
  induction h with
  | empty => exact nodup_nil
  | append _ hrecord ih =>
    obtain ⟨hnew, hash, -, rfl⟩ := recordTombstone_eq_ok hrecord
    rw [map_append, map_singleton, nodup_append_comm]
    refine nodup_cons.2 ⟨fun hmem ↦ ?_, ih⟩
    obtain ⟨e, he, hkey⟩ := List.mem_map.1 hmem
    rw [isDestroyed, List.any_eq_false] at hnew
    exact hnew e he (by simpa using hkey)

namespace Sample

def hexBytes : List UInt8 → List Char
  | [] => []
  | b :: bytes => Nat.digitChar (b.toNat / 16) :: Nat.digitChar (b.toNat % 16) :: hexBytes bytes

theorem digitChar_inj : ∀ m < 16, ∀ n < 16, Nat.digitChar m = Nat.digitChar n → m = n := by decide

theorem hexBytes_injective : Function.Injective hexBytes := by
  intro xs
  induction xs with
  | nil =>
    rintro (_ | ⟨c, ys⟩) h
    · rfl
    · cases h
  | cons b xs ih =>
    rintro (_ | ⟨c, ys⟩) h
    · cases h
    obtain ⟨hhigh, hlow, hrest⟩ : Nat.digitChar (b.toNat / 16) = Nat.digitChar (c.toNat / 16) ∧
        Nat.digitChar (b.toNat % 16) = Nat.digitChar (c.toNat % 16) ∧
          hexBytes xs = hexBytes ys := by
      simpa [hexBytes] using h
    have hb := b.toNat_lt
    have hc := c.toNat_lt
    have hdiv := digitChar_inj _ (by omega) _ (by omega) hhigh
    have hmod := digitChar_inj _ (by omega) _ (by omega) hlow
    rw [UInt8.toNat_inj.1 (show b.toNat = c.toNat by omega), ih hrest]

theorem digitChar_ascii : ∀ n < 16, (Nat.digitChar n).toNat < 128 := by decide

theorem hexBytes_ascii (bytes : List UInt8) : (hexBytes bytes).all (·.toNat < 128) = true := by
  induction bytes with
  | nil => rfl
  | cons b _ ih =>
    have hb := b.toNat_lt
    simp only [hexBytes, all_cons, ih, Bool.and_true, Bool.and_eq_true, decide_eq_true_eq]
    exact ⟨digitChar_ascii _ (by omega), digitChar_ascii _ (by omega)⟩

def hashes : Hashes where
  sha256 := AgentColab.Sample.keep
  hmac key message := String.ofList (hexBytes (key ++ message))

def ledgerKey : LedgerKey := ⟨"lk-1", [1]⟩

theorem signEntry_injective : Function.Injective (signEntry hashes ledgerKey) := by
  intro a b h
  have hbytes := append_cancel_left (hexBytes_injective (String.ofList_injective h))
  exact String.toByteArray_inj.1 (ByteArray.ext (Array.toList_inj.1 hbytes))

theorem signatureProblems_signed (h : e.Signed hashes ledgerKey) :
    signatureProblems hashes (some ledgerKey) e = .ok [] := by
  refine signatureProblems_of_signed h ?_ ?_
  · rw [signEntry, hashes, String.toList_ofList]
    exact hexBytes_ascii _
  · intro hempty
    have hnil : (signEntry hashes ledgerKey e.contentHash).toList = [] := by rw [hempty]; rfl
    rw [signEntry, hashes, String.toList_ofList] at hnil
    cases hnil

def uuid : Uuid := ⟨"0a0a0a0a-0000-4000-8000-00000000000a", by decide⟩

def stone (keyRef reason : String) : TombstoneFields where
  keyRef := keyRef
  workspaceId := uuid
  targetType := "message"
  targetId := "m1"
  reason := reason
  requestedBy := uuid
  destroyedAt := ⟨2026, 1, 1, 0, 0, 0, 0⟩

end Sample

open Sample

theorem signed_verifies_first : ∃ e : Entry, verifyChain hashes (some ledgerKey) [e] = .ok [] ∧
    ([e].map (·.fields.keyRef)).Nodup := by
  obtain ⟨hash, hhash⟩ := exists_chainHash (H := hashes) (stone "dek://1" "TASK") none
  refine ⟨_, signed_verifies (fun h ↦ ?_) (fun h hempty ↦ ?_) (SignedLedger.empty.append
    (recordTombstone_of_new ledgerKey [] rfl hhash))⟩
  · rw [signEntry, hashes, String.toList_ofList]
    exact hexBytes_ascii _
  · have hnil := congrArg String.toList hempty
    rw [signEntry, hashes, String.toList_ofList] at hnil
    cases hnil

theorem tamper_evident_iff_truncated : ∃ original edited : List Entry, edited.length = 1 ∧
    original.length = 2 ∧ verifyChain hashes (some ledgerKey) edited = .ok [] ∧
      edited <+: original := by
  obtain ⟨hash, hhash⟩ := exists_chainHash (H := hashes) (stone "dek://1" "TASK") none
  have hfirst := recordTombstone_of_new ledgerKey [] rfl hhash
  obtain ⟨hash', hhash'⟩ := exists_chainHash (H := hashes) (stone "dek://2" "TASK") (some hash)
  have hsigned := (SignedLedger.empty.append hfirst).append
    (recordTombstone_of_new ledgerKey _ rfl hhash')
  let first : Entry := ⟨stone "dek://1" "TASK", none, hash,
    some (signEntry hashes ledgerKey hash), some "lk-1"⟩
  have hsame : ∀ e ∈ [first], e.Signed hashes ledgerKey ∧ e.contentHash = hash ∧
        e.ledgerKeyId = some ledgerKey.keyId :=
    forall_mem_singleton.2 ⟨rfl, rfl, rfl⟩
  have hverify : verifyChain hashes (some ledgerKey) [first] = .ok [] :=
    verifyChain_eq_nil.2 ⟨⟨rfl, hhash, trivial⟩, fun e he ↦ signatureProblems_signed (hsame e he).1⟩
  refine ⟨_, _, rfl, rfl, hverify, (tamper_evident_iff AgentColab.Sample.keep_injective hsigned
    (fun e he text htext ↦ ⟨_, mem_cons_self, ?_⟩) hverify).2 fun e he ↦ (hsame e he).2.2⟩
  have hmac := (hsame e he).1.symm.trans htext
  rw [(hsame e he).2.1] at hmac
  exact signEntry_injective (some.inj hmac)

/-- **Clearing the id of the key is not reported.** The reason of the only entry was edited, its
hash recomputed and its signature dropped. -/
theorem cleared_id_not_reported : ¬∀ (H : Hashes) (key : LedgerKey) (original edited : List Entry),
      Function.Injective H.sha256 → SignedLedger H key original → Unforged H key original edited →
        verifyChain H (some key) edited = .ok [] → edited <+: original := by
  intro h
  obtain ⟨hash, hhash⟩ := exists_chainHash (H := hashes) (stone "dek://1" "TASK") none
  have hsigned := SignedLedger.empty.append (recordTombstone_of_new ledgerKey [] rfl hhash)
  obtain ⟨hash', hhash'⟩ := exists_chainHash (H := hashes) (stone "dek://1" "RETENTION") none
  have hverify : verifyChain hashes (some ledgerKey)
      [⟨stone "dek://1" "RETENTION", none, hash', none, none⟩] = .ok [] :=
    verifyChain_eq_nil.2 ⟨⟨rfl, hhash', trivial⟩, forall_mem_singleton.2 rfl⟩
  have hbefore := h hashes ledgerKey _ _ AgentColab.Sample.keep_injective hsigned
    (forall_mem_singleton.2 fun _ hsome ↦ absurd hsome.symm (some_ne_none _)) hverify
  have heq := mem_singleton.1 (hbefore.mem mem_cons_self)
  have hreason : "RETENTION" = "TASK" := congrArg (·.fields.reason) heq
  exact absurd hreason (by decide)

end AgentColab.Ledger
