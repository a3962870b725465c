import AgentColab.Domain.Uuid
import AgentColab.Events.Chain

/-!
# The audit chain

An audit Event keeps who did what to what, with redacted metadata, at a time with microseconds. A
table of audit Events that verifies has, up to the last anchored row, the rows that were anchored;
their metadata are the same up to the order of members and the type of numbers.
-/

namespace AgentColab

open List

/-- A `datetime` in UTC. -/
structure DateTime where
  year : ℕ
  month : ℕ
  day : ℕ
  hour : ℕ
  minute : ℕ
  second : ℕ
  microsecond : ℕ

/-- `isoformat(timespec="microseconds")` -/
def DateTime.isoformat (t : DateTime) : String :=
  String.ofList <|
    zeroPad 4 t.year ++ '-' :: (zeroPad 2 t.month ++ '-' :: (zeroPad 2 t.day ++ 'T' ::
      (zeroPad 2 t.hour ++ ':' :: (zeroPad 2 t.minute ++ ':' :: (zeroPad 2 t.second ++ '.' ::
        (zeroPad 6 t.microsecond ++ '+' :: "00:00".toList))))))

/-- `str` of a float. -/
def PyFloat.repr : PyFloat → String
  | .nan => "nan"
  | .inf neg => if neg then "-inf" else "inf"
  | .zero neg => if neg then "-0.0" else "0.0"
  | .num d =>
    let sign := if d.neg then ['-'] else []
    let digits := d.digits.map Nat.digitChar
    let k := digits.length
    let n := d.point
    String.ofList <| sign ++
      if k ≤ n ∧ n ≤ 16 then digits ++ List.replicate (n.toNat - k) '0' ++ ['.', '0']
      else if 0 < n ∧ n ≤ 16 then digits.take n.toNat ++ ['.'] ++ digits.drop n.toNat
      else if -4 < n ∧ n ≤ 0 then ['0', '.'] ++ List.replicate (-n).toNat '0' ++ digits
      else
        let e := n - 1
        let mantissa := if k = 1 then digits else digits.take 1 ++ ['.'] ++ digits.drop 1
        mantissa ++ ['e', if 0 ≤ e then '+' else '-'] ++ zeroPad 2 e.natAbs

structure AuditFields where
  auditId : String
  workspaceId : Option Uuid
  actorAccountId : Option Uuid
  actorLabel : String
  action : String
  targetType : String
  targetId : String
  result : String
  errorCode : Option String
  correlationId : String
  redactedMetadata : Json
  occurredAt : DateTime

/-- `_jsonable` of a JSON value. It takes a float for a UUID, since both have a `hex`. -/
def jsonable : Json → Json
  | .float f => .str f.repr
  | v => v

namespace AuditFields

def stored (f : AuditFields) : AuditFields :=
  { f with redactedMetadata := f.redactedMetadata.stored }

def hashedRowFields (f : AuditFields) : List (String × Json) :=
  [("audit_id", .str f.auditId), ("workspace_id", .ofOption (f.workspaceId.map (·.text))),
    ("actor_account_id", .ofOption (f.actorAccountId.map (·.text))),
    ("actor_label", .str f.actorLabel), ("action", .str f.action),
    ("target_type", .str f.targetType), ("target_id", .str f.targetId), ("result", .str f.result),
    ("error_code", .ofOption f.errorCode), ("correlation_id", .str f.correlationId),
    ("redacted_metadata", jsonable f.redactedMetadata),
    ("occurred_at", .str f.occurredAt.isoformat)]

end AuditFields

/-- `AUDIT_CHAIN`. The metadata of an append are a dict. -/
def auditChain : ChainSpec AuditFields where
  table := "audit_events"
  hashedFields := ["audit_id", "workspace_id", "actor_account_id", "actor_label", "action",
    "target_type", "target_id", "result", "error_code", "correlation_id", "redacted_metadata",
    "occurred_at"]
  chainName := "audit"
  hashedRowFields := AuditFields.hashedRowFields
  Written := fun f ↦ ∃ metadata : PyDict, f.redactedMetadata = metadata.json
  stored := AuditFields.stored
  keys := fun _ ↦ rfl
  nodup := by decide

/-! ## Texts that determine their values -/

variable {n width : ℕ} {c : Char} {a b : AuditFields}

theorem isDigit_of_mem_zeroPad (h : c ∈ zeroPad width n) : c.isDigit = true := by
  rcases mem_append.1 h with h | h
  · rw [(mem_replicate.1 h).2]
    rfl
  · exact Nat.isDigit_of_mem_toDigits (by decide) (by decide) h

theorem ofDigitChars_zeroPad (width n : ℕ) : Nat.ofDigitChars 10 (zeroPad width n) 0 = n := by
  rw [zeroPad, Nat.ofDigitChars_append, Nat.ofDigitChars_replicate_zero, Nat.mul_zero,
    Nat.ofDigitChars_ten_toDigits]

theorem zeroPad_append_inj {m : ℕ} {l l' : List Char} (hc : c.isDigit = false)
    (h : zeroPad width m ++ c :: l = zeroPad width n ++ c :: l') : m = n ∧ l = l' := by
  have hhead : ∀ l : List Char, ∀ x ∈ (c :: l).head?, x.isDigit = false := by
    intro l x hx
    obtain rfl : c = x := by simpa using hx
    exact hc
  obtain ⟨hpad, hrest⟩ := append_inj_of_all (fun _ ↦ isDigit_of_mem_zeroPad)
    (fun _ ↦ isDigit_of_mem_zeroPad) (hhead l) (hhead l') h
  refine ⟨?_, (List.cons.inj hrest).2⟩
  rw [← ofDigitChars_zeroPad width m, hpad, ofDigitChars_zeroPad]

theorem DateTime.isoformat_inj {s t : DateTime} (h : s.isoformat = t.isoformat) : s = t := by
  obtain ⟨hyear, h⟩ := zeroPad_append_inj (by decide) (String.ofList_injective h)
  obtain ⟨hmonth, h⟩ := zeroPad_append_inj (by decide) h
  obtain ⟨hday, h⟩ := zeroPad_append_inj (by decide) h
  obtain ⟨hhour, h⟩ := zeroPad_append_inj (by decide) h
  obtain ⟨hminute, h⟩ := zeroPad_append_inj (by decide) h
  obtain ⟨hsecond, h⟩ := zeroPad_append_inj (by decide) h
  obtain ⟨hmicrosecond, -⟩ := zeroPad_append_inj (by decide) h
  cases s
  cases t
  simp_all

theorem map_text_inj {a b : Option Uuid} (h : a.map (·.text) = b.map (·.text)) : a = b := by
  refine Option.map_injective (fun x y hxy ↦ ?_) h
  cases x
  cases y
  simpa using hxy

theorem canon_of_jsonable {v : Json} {d : PyDict} (h : (jsonable v).canon = d.json.canon) :
    v.canon = d.json.canon := by
  cases v with
  | float =>
    rw [jsonable, PyDict.json, Json.canon, Json.canon] at h
    cases h
  | _ => exact h

/-! ## Audit Events that agree -/

/-- The fields are the same, the metadata up to the order of members and the type of numbers. -/
structure AuditFields.Agrees (a b : AuditFields) : Prop where
  auditId : a.auditId = b.auditId
  workspaceId : a.workspaceId = b.workspaceId
  actorAccountId : a.actorAccountId = b.actorAccountId
  actorLabel : a.actorLabel = b.actorLabel
  action : a.action = b.action
  targetType : a.targetType = b.targetType
  targetId : a.targetId = b.targetId
  result : a.result = b.result
  errorCode : a.errorCode = b.errorCode
  correlationId : a.correlationId = b.correlationId
  redactedMetadata : a.redactedMetadata.canon = b.redactedMetadata.canon
  occurredAt : a.occurredAt = b.occurredAt

theorem AuditFields.agrees_of_agree (hb : auditChain.Written b) (h : auditChain.Agree a b) :
    a.Agrees b := by
  obtain ⟨metadata, hmetadata⟩ := hb
  simp only [ChainSpec.Agree, auditChain, hashedRowFields, canonMembers, List.cons.injEq,
    Prod.mk.injEq, Json.canon, Canon.str.injEq, canon_ofOption_inj, true_and, and_true] at h
  obtain ⟨h₁, h₂, h₃, h₄, h₅, h₆, h₇, h₈, h₉, h₁₀, h₁₁, h₁₂⟩ := h
  refine ⟨h₁, map_text_inj h₂, map_text_inj h₃, h₄, h₅, h₆, h₇, h₈, h₉, h₁₀, ?_,
    DateTime.isoformat_inj h₁₂⟩
  rw [hmetadata] at h₁₁ ⊢
  exact canon_of_jsonable h₁₁

/-- The column gives back metadata that agree with those written, if their floats are below
`10 ^ 21`. -/
theorem AuditFields.Agrees.stored (h : a.Agrees b) (hb : auditChain.Written b)
    (hsmall : b.redactedMetadata.isSmall = true) : a.Agrees b.stored := by
  obtain ⟨metadata, hmetadata⟩ := hb
  have htext : b.redactedMetadata.stored.text = b.redactedMetadata.text :=
    text_stored _ hsmall (by rw [hmetadata]; exact metadata.nodup)
  exact { h with redactedMetadata := h.redactedMetadata.trans (canon_of_text htext).symm }

/-- What an edit leaves of an anchored row. -/
structure SameAuditRow (row original : ChainRow AuditFields) : Prop where
  hashed : row.fields.Agrees original.fields
  stored : original.fields.redactedMetadata.isSmall = true →
    row.fields.Agrees original.fields.stored
  previousHash : row.previousHash = original.previousHash
  contentHash : row.contentHash = original.contentHash

/-- **The anchored audit chain is tamper-evident**: a table without problems has the rows that were
there when an anchor was recorded. -/
theorem anchored_rows_agree {sha256 : Digest} (hinj : Function.Injective sha256)
    {log : ChainLog AuditFields} (hlog : log.Built sha256 auditChain)
    {table : ChainTable AuditFields} (hchain : auditChain.verifyChain sha256 table = .ok [])
    (hanchors : auditChain.verifyAnchors sha256 table log.anchors = .ok []) {a : Anchor}
    {rows : List (ChainRow AuditFields)} (ha : (a, rows) ∈ log.anchored)
    (hname : a.chain = auditChain.chainName) :
    List.Forall₂ SameAuditRow (table.upTo a.lastRowId) rows := by
  refine (agrees_of_verified hinj hlog hchain hanchors ha hname).imp ?_
  rintro row original ⟨hagrees, hwritten⟩
  have hfields := AuditFields.agrees_of_agree hwritten hagrees.fields
  exact ⟨hfields, fun hsmall ↦ hfields.stored hwritten hsmall, hagrees.previousHash,
    hagrees.contentHash⟩

/-- **An audit chain that nobody has edited verifies**, whatever was appended and anchored, if the
floats of its metadata are below `10 ^ 21`. -/
theorem built_verifies {sha256 : Digest} {log : ChainLog AuditFields}
    (hlog : log.Built sha256 auditChain)
    (hsmall : ∀ row ∈ log.appended.rows, row.fields.redactedMetadata.isSmall = true) :
    auditChain.verifyChain sha256 (log.appended.read auditChain) = .ok [] ∧
      auditChain.verifyAnchors sha256 (log.appended.read auditChain) log.anchors = .ok [] := by
  refine hlog.verified fun row hrow p h hhash ↦ ?_
  obtain ⟨metadata, hmetadata⟩ := hlog.wf.appended.written row hrow
  have htext := text_stored _ (hsmall row hrow) (by rw [hmetadata]; exact metadata.nodup)
  have hfinite := isFinite_stored row.fields.redactedMetadata
  have hsame : jsonable row.fields.redactedMetadata.stored =
      row.fields.redactedMetadata.stored := by
    rw [hmetadata]
    rfl
  have hplain : jsonable row.fields.redactedMetadata = row.fields.redactedMetadata := by
    rw [hmetadata]
    rfl
  rw [ChainSpec.chainHash, canonicalJson] at hhash ⊢
  split at hhash
  next hf =>
    rw [if_pos, ← hhash]
    · simp only [auditChain, AuditFields.hashedRowFields, AuditFields.stored, cons_append,
        nil_append, Json.text, memberTexts, hsame, hplain, htext]
    · simp only [auditChain, AuditFields.hashedRowFields, AuditFields.stored, cons_append,
        nil_append, Json.isFinite, Json.All, allMembers, hsame, hplain, all_ofOption] at hf hfinite ⊢
      simpa using hfinite (by simpa using hf)
  next => cases hhash

namespace Sample

def audited (metadata : Json) : AuditFields where
  auditId := "aud-1"
  workspaceId := none
  actorAccountId := none
  actorLabel := "operator"
  action := "policy.deny"
  targetType := "task"
  targetId := "task-1"
  result := "DENY"
  errorCode := none
  correlationId := "c-1"
  redactedMetadata := metadata
  occurredAt := ⟨2026, 1, 1, 0, 0, 0, 0⟩

/-- The JSON that the hash of the first audit Event covers. -/
def auditBody (metadata : Json) : Json :=
  .obj (auditChain.hashedRowFields (audited metadata) ++ [("previous_hash", .ofOption none)])

def auditHash (metadata : Json) : String :=
  keep ((auditBody metadata).text.flatMap String.utf8EncodeChar)

theorem chainHash_audited {metadata : Json} (h : (jsonable metadata).isFinite = true) :
    auditChain.chainHash keep (audited metadata) none = .ok (auditHash metadata) := by
  have hfinite : (auditBody metadata).isFinite = true := by
    simpa [auditBody, auditChain, AuditFields.hashedRowFields, audited, Json.isFinite, Json.All,
      allMembers] using h
  rw [ChainSpec.chainHash, canonicalJson]
  exact congrArg (Except.map keep) (if_pos hfinite)

theorem auditHash_rounded : auditHash exact = auditHash rounded := by
  have htext : exact.text = rounded.text := by decide
  have hbody : (auditBody exact).text = (auditBody rounded).text := by
    have hexact : jsonable exact = exact := rfl
    have hrounded : jsonable rounded = rounded := rfl
    simp only [auditBody, auditChain, AuditFields.hashedRowFields, audited, Json.text,
      cons_append, nil_append, memberTexts, hexact, hrounded, htext]
  rw [auditHash, hbody, auditHash]

def auditRow (metadata : Json) : ChainRow AuditFields :=
  ⟨1, audited metadata, none, auditHash metadata⟩

def auditTable (metadata : Json) : ChainTable AuditFields :=
  ⟨[auditRow metadata], pairwise_singleton _ _⟩

def auditAnchor : Anchor where
  chain := "audit"
  anchorDate := ⟨2026, 1, 1⟩
  lastRowId := 1
  lastHash := auditHash exact
  anchorHash := keep ((anchorBody "audit" ⟨2026, 1, 1⟩ 1 (auditHash exact)).text.flatMap
    String.utf8EncodeChar)

def auditLog : ChainLog AuditFields where
  appended := auditTable exact
  anchored := [(auditAnchor, [auditRow exact])]

theorem built_auditLog : auditLog.Built keep auditChain := by
  have hrow : auditChain.appendRow keep ⟨[], .nil⟩ 1 (audited exact) = .ok (auditRow exact) := by
    have hhash : auditChain.chainHash keep (audited exact)
        (ChainSpec.lastHash (⟨[], .nil⟩ : ChainTable AuditFields)) = .ok (auditHash exact) :=
      chainHash_audited (by decide)
    rw [ChainSpec.appendRow, hhash]
    rfl
  have hanchor : auditChain.recordAnchor keep (auditTable exact) ⟨2026, 1, 1⟩ =
      .ok (some auditAnchor) := rfl
  have hwritten : auditChain.Written (audited exact) :=
    ⟨⟨[("n", .int 123456789012345700)], by decide⟩, rfl⟩
  exact .anchor (.append .empty hwritten hrow (by simp)) hanchor

theorem verified_rounded : auditChain.verifyChain keep (auditTable rounded) = .ok [] := by
  exact verifyChain_eq_nil_iff.2 ⟨rfl, chainHash_audited (by decide), trivial⟩

theorem verified_anchor :
    auditChain.verifyAnchors keep (auditTable rounded) auditLog.anchors = .ok [] := by
  have hof : auditChain.anchorsOf auditLog.anchors = [auditAnchor] := rfl
  have hhashes : auditChain.recomputed keep none (auditTable rounded).rows =
      .ok [(1, auditHash rounded)] := by
    change (auditChain.chainHash keep (audited rounded) none >>= fun _ ↦ _) = _
    rw [chainHash_audited (by decide)]
    rfl
  have hproblems : auditChain.anchorProblems keep (auditTable rounded) [(1, auditHash rounded)]
      auditAnchor = .ok [] := by
    have hstored : ((auditTable rounded).rows.find? (·.id = auditAnchor.lastRowId)).map
        (·.contentHash) = some auditAnchor.lastHash := congrArg some auditHash_rounded.symm
    have hlookup : [(1, auditHash rounded)].lookup auditAnchor.lastRowId =
        some auditAnchor.lastHash := congrArg some auditHash_rounded.symm
    have hbody : canonicalJson (anchorBody auditChain.chainName auditAnchor.anchorDate
        auditAnchor.lastRowId auditAnchor.lastHash) =
        .ok ((anchorBody "audit" ⟨2026, 1, 1⟩ 1 (auditHash exact)).text.flatMap
          String.utf8EncodeChar) := rfl
    rw [ChainSpec.anchorProblems, hbody]
    dsimp only [bind, Except.bind]
    have hanchor : keep ((anchorBody "audit" ⟨2026, 1, 1⟩ 1 (auditHash exact)).text.flatMap
        String.utf8EncodeChar) = auditAnchor.anchorHash := rfl
    rw [if_pos hstored, if_pos hlookup, if_pos hanchor]
    rfl
  have hloop : [auditAnchor].mapM (auditChain.anchorProblems keep (auditTable rounded)
      [(1, auditHash rounded)]) = .ok [[]] := by
    rw [mapM_cons, hproblems]
    rfl
  rw [ChainSpec.verifyAnchors, hof, isEmpty_cons, if_neg Bool.false_ne_true, hhashes]
  dsimp only [bind, Except.bind]
  rw [hloop]
  rfl

end Sample

open Sample

/-- An integer of the metadata was replaced by a float. -/
theorem anchored_rows_agree_rounded : List.Forall₂ SameAuditRow ((auditTable rounded).upTo 1)
      [auditRow exact] :=
  anchored_rows_agree keep_injective built_auditLog verified_rounded
    verified_anchor (a := auditAnchor) mem_cons_self rfl

/-- The appended table passes, and so does its anchor. -/
theorem built_verifies_exact :
    auditChain.verifyChain keep (auditLog.appended.read auditChain) = .ok [] ∧
      auditChain.verifyAnchors keep (auditLog.appended.read auditChain) auditLog.anchors = .ok [] :=
  built_verifies built_auditLog fun row hrow ↦ by
    obtain rfl := mem_singleton.1 hrow
    decide

/-- The metadata of an anchored row were edited, and nothing is reported. -/
theorem edit_not_reported : ¬∀ (sha256 : Digest) (log : ChainLog AuditFields)
    (table : ChainTable AuditFields) (a : Anchor) (rows : List (ChainRow AuditFields)),
    Function.Injective sha256 → log.Built sha256 auditChain →
    auditChain.verifyChain sha256 table = .ok [] →
    auditChain.verifyAnchors sha256 table log.anchors = .ok [] → (a, rows) ∈ log.anchored →
    a.chain = auditChain.chainName →
    (table.upTo a.lastRowId).map (·.fields) = rows.map fun row ↦ row.fields.stored := by
  intro h
  have hsame := h keep auditLog (auditTable rounded) auditAnchor
    [auditRow exact] keep_injective built_auditLog
    verified_rounded verified_anchor mem_cons_self rfl
  have hedited : rounded = exact.stored :=
    congrArg AuditFields.redactedMetadata (List.cons.inj hsame).1
  rw [exact, rounded] at hedited
  simp [Json.stored, storedMembers] at hedited

end AgentColab
