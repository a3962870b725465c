import AgentColab.Domain.Clock
import AgentColab.Events.TamperEvidence

/-!
# Append-only hash chains with daily anchors

A chain is a table whose rows carry `previous_hash` and `content_hash`, the SHA-256 of the canonical
JSON of the immutable fields of the row and `previous_hash`. An anchor records the last row and the
last hash for a day. Verification recomputes every hash and compares with the anchors.
-/

namespace AgentColab

open List
open Except (ok)

/-- How to read a chained table: the names, the JSON values of the hashed fields, which fields the
code appends, and what the columns give back of them. -/
structure ChainSpec (Fields : Type) where
  table : String
  hashedFields : List String
  chainName : String
  hashedRowFields : Fields → List (String × Json)
  Written : Fields → Prop
  stored : Fields → Fields
  keys : ∀ fields, (hashedRowFields fields).map Prod.fst = hashedFields
  nodup : (hashedFields ++ ["previous_hash"]).Nodup

structure ChainRow (Fields : Type) where
  id : ℤ
  fields : Fields
  previousHash : Option String
  contentHash : String

/-- The rows of a chained table in the order of the primary key. -/
structure ChainTable (Fields : Type) where
  rows : List (ChainRow Fields)
  sorted : rows.Pairwise fun a b ↦ a.id < b.id

/-- A row of `audit_hash_anchors`. -/
structure Anchor where
  chain : String
  anchorDate : Calendar.Date
  lastRowId : ℤ
  lastHash : String
  anchorHash : String

variable {Fields : Type} (sha256 : Digest) (spec : ChainSpec Fields)

namespace ChainSpec

/-! ## Rows -/

def chainHash (fields : Fields) (previousHash : Option String) :
    Except CanonicalizationError String :=
  (canonicalJson (.obj (spec.hashedRowFields fields ++
    [("previous_hash", .ofOption previousHash)]))).map sha256

/-- The `content_hash` of the row with the largest id. -/
def lastHash (table : ChainTable Fields) : Option String :=
  table.rows.getLast?.map (·.contentHash)

/-- The row that an append inserts under the id that it draws. -/
def appendRow (table : ChainTable Fields) (id : ℤ) (fields : Fields) :
    Except CanonicalizationError (ChainRow Fields) := do
  let contentHash ← spec.chainHash sha256 fields (lastHash table)
  return ⟨id, fields, lastHash table, contentHash⟩

/-- The problems of one row, given the hash of the row before it and the recomputed one. -/
def rowProblems (previous : Option String) (row : ChainRow Fields) (expected : String) :
    List String :=
  (if row.previousHash = previous then []
    else [s!"{spec.table}#{row.id}: previous_hash does not match the preceding row"]) ++
  (if row.contentHash = expected then []
    else [s!"{spec.table}#{row.id}: content_hash mismatch (tampered)"])

/-- The loop of `verify_chain`, from the hash that the next row has to be linked to. -/
def verifyChainFrom (previous : Option String) :
    List (ChainRow Fields) → Except CanonicalizationError (List String)
  | [] => .ok []
  | row :: rows => do
    let expected ← spec.chainHash sha256 row.fields previous
    let rest ← verifyChainFrom (some row.contentHash) rows
    return spec.rowProblems previous row expected ++ rest

/-- **Recompute every hash in order**; return the problems. -/
def verifyChain (table : ChainTable Fields) : Except CanonicalizationError (List String) :=
  spec.verifyChainFrom sha256 none table.rows

/-! ## Anchors -/

end ChainSpec

def isoformatDate (d : Calendar.Date) : String :=
  String.ofList <| zeroPad 4 d.year.toNat ++ ['-'] ++ zeroPad 2 d.month ++ ['-'] ++ zeroPad 2 d.day

def anchorBody (chain : String) (anchorDate : Calendar.Date) (lastRowId : ℤ) (lastHash : String) :
    Json :=
  .obj [("chain", .str chain), ("anchor_date", .str (isoformatDate anchorDate)),
    ("last_row_id", .int lastRowId), ("last_hash", .str lastHash)]

namespace ChainSpec

/-- The anchor of the current head of the chain, if there is one. -/
def recordAnchor (table : ChainTable Fields) (anchorDate : Calendar.Date) :
    Except CanonicalizationError (Option Anchor) :=
  match table.rows.getLast? with
  | none => .ok none
  | some row => do
    let bytes ← canonicalJson (anchorBody spec.chainName anchorDate row.id row.contentHash)
    return some ⟨spec.chainName, anchorDate, row.id, row.contentHash, sha256 bytes⟩

/-- The hashes recomputed from the fields alone, by row id. -/
def recomputed (previous : Option String) :
    List (ChainRow Fields) → Except CanonicalizationError (List (ℤ × String))
  | [] => .ok []
  | row :: rows => do
    let hash ← spec.chainHash sha256 row.fields previous
    let rest ← recomputed (some hash) rows
    return (row.id, hash) :: rest

def anchorProblems (table : ChainTable Fields) (hashes : List (ℤ × String)) (a : Anchor) :
    Except CanonicalizationError (List String) := do
  let day := isoformatDate a.anchorDate
  let stored := (table.rows.find? (·.id = a.lastRowId)).map (·.contentHash)
  let bytes ← canonicalJson (anchorBody spec.chainName a.anchorDate a.lastRowId a.lastHash)
  return (if stored = some a.lastHash then []
      else [s!"anchor {day}: stored hash at row {a.lastRowId} differs"]) ++
    (if hashes.lookup a.lastRowId = some a.lastHash then []
      else [s!"anchor {day}: recomputed chain differs at row {a.lastRowId}"]) ++
    (if sha256 bytes = a.anchorHash then [] else [s!"anchor {day}: anchor_hash mismatch"])

def anchorsOf (anchors : List Anchor) : List Anchor :=
  (anchors.filter (·.chain = spec.chainName)).insertionSort
    fun a b ↦ a.anchorDate.toDays ≤ b.anchorDate.toDays

/-- **Every anchor must match the hash stored at its row, and the recomputed one.** -/
def verifyAnchors (table : ChainTable Fields) (anchors : List Anchor) :
    Except CanonicalizationError (List String) :=
  if (spec.anchorsOf anchors).isEmpty then .ok []
  else do
    let hashes ← spec.recomputed sha256 none table.rows
    let problems ← (spec.anchorsOf anchors).mapM (spec.anchorProblems sha256 table hashes)
    return problems.flatten

end ChainSpec

/-! ## Tables that were built by the code -/

namespace ChainTable

/-- The table after the insertion of a row with an id that is larger than the others. -/
def concat (table : ChainTable Fields) (row : ChainRow Fields)
    (h : ∀ r ∈ table.rows, r.id < row.id) : ChainTable Fields where
  rows := table.rows ++ [row]
  sorted := pairwise_append.2 ⟨table.sorted, pairwise_singleton _ _, by simpa using h⟩

def upTo (table : ChainTable Fields) (id : ℤ) : List (ChainRow Fields) :=
  table.rows.filter (·.id ≤ id)

end ChainTable

/-- The rows with the values that they were hashed with, and the anchors, each with the rows that
were there when it was recorded. -/
structure ChainLog (Fields : Type) where
  appended : ChainTable Fields
  anchored : List (Anchor × List (ChainRow Fields))

/-- Runs of appends and anchorings. An append draws its id under the lock of the chain, so it is
larger than those there. -/
inductive ChainLog.Built : ChainLog Fields → Prop
  | empty : Built ⟨⟨[], .nil⟩, []⟩
  | append {log : ChainLog Fields} {id : ℤ} {fields : Fields} {row : ChainRow Fields}
      (hlog : Built log) (hfields : spec.Written fields)
      (hrow : spec.appendRow sha256 log.appended id fields = .ok row)
      (hid : ∀ r ∈ log.appended.rows, r.id < row.id) :
      Built { log with appended := log.appended.concat row hid }
  | anchor {log : ChainLog Fields} {anchorDate : Calendar.Date} {a : Anchor} (hlog : Built log)
      (ha : spec.recordAnchor sha256 log.appended anchorDate = .ok (some a)) :
      Built { log with anchored := log.anchored ++ [(a, log.appended.rows)] }
  | other {log : ChainLog Fields} {a : Anchor} (hlog : Built log) (ha : a.chain ≠ spec.chainName) :
      Built { log with anchored := log.anchored ++ [(a, log.appended.rows)] }

/-- `audit_hash_anchors` -/
def ChainLog.anchors (log : ChainLog Fields) : List Anchor := log.anchored.map Prod.fst

/-! ## Chains -/

/-- A list of rows that continues a chain. -/
def Chained : Option String → List (ChainRow Fields) → Prop
  | _, [] => True
  | previous, row :: rows =>
    row.previousHash = previous ∧ spec.chainHash sha256 row.fields previous = .ok row.contentHash ∧
      Chained (some row.contentHash) rows

def headHash (previous : Option String) (rows : List (ChainRow Fields)) : Option String :=
  (rows.getLast?.map (·.contentHash)).or previous

variable {sha256 spec}

variable {previous : Option String} {row : ChainRow Fields} {rows : List (ChainRow Fields)}
    {table : ChainTable Fields} {a : Anchor} {log : ChainLog Fields}

theorem headHash_cons : headHash previous (row :: rows) = headHash (some row.contentHash) rows := by
  rw [headHash, headHash, List.getLast?_cons]
  cases rows.getLast? <;> rfl

theorem chained_concat :
    Chained sha256 spec previous (rows ++ [row]) ↔ Chained sha256 spec previous rows ∧
      row.previousHash = headHash previous rows ∧
      spec.chainHash sha256 row.fields (headHash previous rows) = .ok row.contentHash := by
  induction rows generalizing previous with
  | nil => simp [Chained, headHash]
  | cons r _ ih => rw [cons_append, Chained, Chained, ih, headHash_cons]; tauto

theorem chained_of_append {rest : List (ChainRow Fields)}
    (h : Chained sha256 spec previous (rows ++ rest)) : Chained sha256 spec previous rows := by
  induction rows generalizing previous with
  | nil => trivial
  | cons r _ ih => exact ⟨h.1, h.2.1, ih h.2.2⟩

def ChainSpec.Agree (spec : ChainSpec Fields) (f g : Fields) : Prop :=
  canonMembers (spec.hashedRowFields f) = canonMembers (spec.hashedRowFields g)

structure ChainRow.Agrees (spec : ChainSpec Fields) (a b : ChainRow Fields) : Prop where
  fields : spec.Agree a.fields b.fields
  previousHash : a.previousHash = b.previousHash
  contentHash : a.contentHash = b.contentHash

theorem agree_of_chainHash (hinj : Function.Injective sha256) {f g : Fields} {p q : Option String}
    {h : String} (hf : spec.chainHash sha256 f p = .ok h) (hg : spec.chainHash sha256 g q = .ok h) :
    spec.Agree f g ∧ p = q := by
  have hbytes : ∀ {fields : Fields} {previous : Option String},
      spec.chainHash sha256 fields previous = .ok h → ∃ bytes,
        canonicalJson (.obj (spec.hashedRowFields fields ++
          [("previous_hash", .ofOption previous)])) = .ok bytes ∧ sha256 bytes = h := by
    intro fields previous hhash
    rw [ChainSpec.chainHash] at hhash
    cases hc : canonicalJson (.obj (spec.hashedRowFields fields ++
      [("previous_hash", .ofOption previous)])) with
    | error x =>
      rw [hc] at hhash
      cases hhash
    | ok bytes =>
      rw [hc] at hhash
      exact ⟨bytes, rfl, ok.inj hhash⟩
  obtain ⟨x, hx, hxh⟩ := hbytes hf
  obtain ⟨y, hy, hyh⟩ := hbytes hg
  obtain rfl : x = y := hinj (hxh.trans hyh.symm)
  have hcanon := canon_of_canonicalJson hx hy
  rw [Json.canon, Json.canon, Canon.obj.injEq] at hcanon
  have hkeys : ∀ (fields : Fields) (previous : Option String),
      (canonMembers (spec.hashedRowFields fields ++
        [("previous_hash", .ofOption previous)])).map Prod.fst =
      spec.hashedFields ++ ["previous_hash"] := by
    intro fields previous
    rw [canonMembers_eq_map, List.map_map, map_append, ← spec.keys fields]
    rfl
  have hmembers := eq_of_sortKeys ((hkeys f p).trans (hkeys g q).symm)
    (by rw [hkeys]; exact spec.nodup) hcanon
  rw [canonMembers_eq_map, canonMembers_eq_map, map_append, map_append] at hmembers
  obtain ⟨hfields, hlink⟩ := append_inj' hmembers rfl
  rw [← canonMembers_eq_map, ← canonMembers_eq_map] at hfields
  exact ⟨hfields, canon_ofOption_inj.1 (Prod.mk.inj (List.cons.inj hlink).1).2⟩

/-- **Two chains with the same last hash agree**, from the last row backwards. -/
theorem chains_agree (hinj : Function.Injective sha256) {xs ys : List (ChainRow Fields)}
    (hx : Chained sha256 spec none xs) (hy : Chained sha256 spec none ys)
    (hlast : headHash none xs = headHash none ys) : List.Forall₂ (ChainRow.Agrees spec) xs ys := by
  induction xs using List.reverseRecOn generalizing ys with
  | nil =>
    rcases eq_nil_or_concat' ys with rfl | ⟨ys, y, rfl⟩
    · exact .nil
    · simp [headHash] at hlast
  | append_singleton _ x ih =>
    rcases eq_nil_or_concat' ys with rfl | ⟨ys, y, rfl⟩
    · simp [headHash] at hlast
    · obtain ⟨hxs, hpx, hhx⟩ := chained_concat.1 hx
      obtain ⟨hys, hpy, hhy⟩ := chained_concat.1 hy
      have hhash : x.contentHash = y.contentHash := by simpa [headHash] using hlast
      rw [hhash] at hhx
      obtain ⟨hfields, hlink⟩ := agree_of_chainHash hinj hhx hhy
      have hrow : x.Agrees spec y := ⟨hfields, by rw [hpx, hpy, hlink], hhash⟩
      exact rel_append (ih hxs hys hlink) (.cons hrow .nil)

/-! ## What verification decides -/

theorem rowProblems_eq_nil {expected : String} : spec.rowProblems previous row expected = [] ↔
      row.previousHash = previous ∧ row.contentHash = expected := by
  rw [ChainSpec.rowProblems, append_eq_nil_iff]
  constructor
  · rintro ⟨hlink, hhash⟩
    exact ⟨by by_contra hne; simp [hne] at hlink, by by_contra hne; simp [hne] at hhash⟩
  · rintro ⟨hlink, hhash⟩
    exact ⟨if_pos hlink, if_pos hhash⟩

theorem verifyChainFrom_eq_nil_iff :
    spec.verifyChainFrom sha256 previous rows = .ok [] ↔ Chained sha256 spec previous rows := by
  induction rows generalizing previous with
  | nil => simp [ChainSpec.verifyChainFrom, Chained]
  | cons row rows ih =>
    rw [ChainSpec.verifyChainFrom, Chained, ← ih]
    cases hhash : spec.chainHash sha256 row.fields previous with
    | error => simp [bind, Except.bind]
    | ok =>
      cases hrest : spec.verifyChainFrom sha256 (some row.contentHash) rows with
      | error => simp [bind, Except.bind]
      | ok =>
        simp only [bind, Except.bind, pure, Except.pure, ok.injEq, append_eq_nil_iff,
          rowProblems_eq_nil]
        tauto

theorem verifyChain_eq_nil_iff :
    spec.verifyChain sha256 table = .ok [] ↔ Chained sha256 spec none table.rows :=
  verifyChainFrom_eq_nil_iff

theorem mem_anchorsOf {anchors : List Anchor} :
    a ∈ spec.anchorsOf anchors ↔ a ∈ anchors ∧ a.chain = spec.chainName := by
  rw [ChainSpec.anchorsOf, (perm_insertionSort _ _).mem_iff, mem_filter, decide_eq_true_iff]

theorem exists_row_of_anchorProblems {hashes : List (ℤ × String)}
    (h : spec.anchorProblems sha256 table hashes a = .ok []) :
    ∃ row ∈ table.rows, row.id = a.lastRowId ∧ row.contentHash = a.lastHash := by
  rw [ChainSpec.anchorProblems] at h
  cases hb : canonicalJson (anchorBody spec.chainName a.anchorDate a.lastRowId a.lastHash) with
  | error =>
    rw [hb] at h
    cases h
  | ok =>
    rw [hb] at h
    have hproblems := append_eq_nil_iff.1 (append_eq_nil_iff.1 (ok.inj h)).1
    have hstored : (table.rows.find? (·.id = a.lastRowId)).map (·.contentHash) =
        some a.lastHash := by
      by_contra hne
      simp [hne] at hproblems
    obtain ⟨row, hrow, hhash⟩ := Option.map_eq_some_iff.1 hstored
    exact ⟨row, mem_of_find?_eq_some hrow, by simpa using List.find?_some hrow, hhash⟩

theorem eq_nil_of_mapM {α ε β : Type} {f : α → Except ε (List β)} {xs : List α}
    {problems : List (List β)} (h : xs.mapM f = .ok problems) (hnil : problems.flatten = []) :
    ∀ x ∈ xs, f x = .ok [] := by
  induction xs generalizing problems with
  | nil => simp
  | cons x xs ih =>
    rw [mapM_cons] at h
    cases hx : f x with
    | error =>
      rw [hx] at h
      cases h
    | ok here =>
      cases hxs : xs.mapM f with
      | error =>
        rw [hx, hxs] at h
        cases h
      | ok rest =>
        rw [hx, hxs] at h
        obtain rfl : here :: rest = problems := ok.inj h
        obtain ⟨rfl, hrest⟩ := append_eq_nil_iff.1 hnil
        intro y hy
        rcases mem_cons.1 hy with rfl | hy
        · exact hx
        · exact ih hxs hrest y hy

theorem anchorProblems_of_verifyAnchors {anchors : List Anchor}
    (h : spec.verifyAnchors sha256 table anchors = .ok []) (ha : a ∈ anchors)
    (hchain : a.chain = spec.chainName) :
    ∃ hashes, spec.anchorProblems sha256 table hashes a = .ok [] := by
  have hmem : a ∈ spec.anchorsOf anchors := mem_anchorsOf.2 ⟨ha, hchain⟩
  rw [ChainSpec.verifyAnchors, if_neg (by simpa using ne_nil_of_mem hmem)] at h
  cases hhashes : spec.recomputed sha256 none table.rows with
  | error =>
    rw [hhashes] at h
    cases h
  | ok hashes =>
    cases hproblems : (spec.anchorsOf anchors).mapM (spec.anchorProblems sha256 table hashes) with
    | error =>
      simp only [hhashes, hproblems, bind, Except.bind] at h
      cases h
    | ok =>
      simp only [hhashes, hproblems, bind, Except.bind, pure, Except.pure] at h
      exact ⟨hashes, eq_nil_of_mapM hproblems (ok.inj h) a hmem⟩

/-! ## Anchored rows -/

theorem exists_upTo_eq (h : row ∈ table.rows) :
    ∃ before after, table.rows = before ++ [row] ++ after ∧ table.upTo row.id = before ++ [row] := by
  obtain ⟨before, after, hrows⟩ := append_of_mem h
  have hsorted := table.sorted
  rw [hrows, pairwise_append, pairwise_cons] at hsorted
  obtain ⟨-, ⟨hafter, -⟩, hbefore⟩ := hsorted
  refine ⟨before, after, by simpa using hrows, ?_⟩
  have hkeep : before.filter (·.id ≤ row.id) = before := by
    refine filter_eq_self.2 fun r hr ↦ decide_eq_true ?_
    exact (hbefore r hr row mem_cons_self).le
  have hdrop : after.filter (·.id ≤ row.id) = [] := by
    refine filter_eq_nil_iff.2 fun r hr ↦ ?_
    simpa using hafter r hr
  rw [ChainTable.upTo, hrows, filter_append, filter_cons_of_pos (by simp), hkeep, hdrop]

/-- Rows that were appended one after the other. -/
structure Appended (sha256 : Digest) (spec : ChainSpec Fields) (rows : List (ChainRow Fields)) :
    Prop where
  chained : Chained sha256 spec none rows
  written : ∀ row ∈ rows, spec.Written row.fields

/-- What the log keeps: an anchor has the last hash of the rows that were there. -/
structure ChainLog.Wf (sha256 : Digest) (spec : ChainSpec Fields) (log : ChainLog Fields) :
    Prop where
  appended : Appended sha256 spec log.appended.rows
  anchored : ∀ p ∈ log.anchored, p.1.chain = spec.chainName →
    Appended sha256 spec p.2 ∧ headHash none p.2 = some p.1.lastHash

theorem ChainLog.Built.wf (h : log.Built sha256 spec) : log.Wf sha256 spec := by
  induction h with
  | empty => exact ⟨⟨trivial, by simp⟩, by simp⟩
  | @append log _ fields _ _ hfields hrow _ ih =>
    have hhead : headHash none log.appended.rows = ChainSpec.lastHash log.appended := by
      rw [headHash, ChainSpec.lastHash, Option.or_none]
    rw [ChainSpec.appendRow] at hrow
    cases hhash : spec.chainHash sha256 fields (ChainSpec.lastHash log.appended) with
    | error =>
      rw [hhash] at hrow
      cases hrow
    | ok =>
      rw [hhash] at hrow
      obtain rfl := ok.inj hrow
      refine ⟨⟨chained_concat.2 ⟨ih.appended.chained, hhead.symm, by rw [hhead]; exact hhash⟩,
        fun r hr ↦ ?_⟩, ih.anchored⟩
      rcases mem_append.1 hr with hr | hr
      · exact ih.appended.written r hr
      · rw [mem_singleton.1 hr]
        exact hfields
  | @anchor log anchorDate a _ ha ih =>
    refine ⟨ih.appended, fun p hp hchain ↦ ?_⟩
    rcases mem_append.1 hp with hp | hp
    · exact ih.anchored p hp hchain
    · obtain rfl := mem_singleton.1 hp
      refine ⟨ih.appended, ?_⟩
      rw [ChainSpec.recordAnchor] at ha
      cases hlast : log.appended.rows.getLast? with
      | none => simp [hlast] at ha
      | some row =>
        simp only [hlast] at ha
        cases hb : canonicalJson (anchorBody spec.chainName anchorDate row.id row.contentHash) with
        | error =>
          rw [hb] at ha
          cases ha
        | ok =>
          rw [hb] at ha
          obtain rfl := Option.some.inj (ok.inj ha)
          rw [headHash, hlast]
          rfl
  | other _ ha ih =>
    refine ⟨ih.appended, fun p hp hchain ↦ ?_⟩
    rcases mem_append.1 hp with hp | hp
    · exact ih.anchored p hp hchain
    · obtain rfl := mem_singleton.1 hp
      exact absurd hchain ha

/-- **A table that verifies has the rows that were anchored**, in their order, whatever was done to
it. -/
theorem agrees_of_verified (hinj : Function.Injective sha256) (hlog : log.Built sha256 spec)
    (hchain : spec.verifyChain sha256 table = .ok [])
    (hanchors : spec.verifyAnchors sha256 table log.anchors = .ok [])
    (ha : (a, rows) ∈ log.anchored) (hname : a.chain = spec.chainName) :
    List.Forall₂ (fun row original ↦ row.Agrees spec original ∧ spec.Written original.fields)
      (table.upTo a.lastRowId) rows := by
  obtain ⟨hashes, hnone⟩ := anchorProblems_of_verifyAnchors hanchors (List.mem_map_of_mem ha) hname
  obtain ⟨row, hrow, hid, hhash⟩ := exists_row_of_anchorProblems hnone
  obtain ⟨before, after, hrows, hupTo⟩ := exists_upTo_eq hrow
  obtain ⟨happended, hhead⟩ := hlog.wf.anchored _ ha hname
  have hprefix : Chained sha256 spec none (before ++ [row]) := by
    have hall := verifyChain_eq_nil_iff.1 hchain
    rw [hrows] at hall
    exact chained_of_append hall
  have hlast : headHash none (before ++ [row]) = headHash none rows := by
    rw [hhead, ← hhash]
    simp [headHash]
  have hagrees := chains_agree hinj hprefix happended.chained hlast
  rw [← hid, hupTo, forall₂_iff_get]
  rw [forall₂_iff_get] at hagrees
  exact ⟨hagrees.1, fun i hx hy ↦ ⟨hagrees.2 i hx hy, happended.written _ (List.get_mem _ _)⟩⟩

/-! ## Tables that nobody has edited -/

/-- The table as its columns give it back. -/
def ChainTable.read (spec : ChainSpec Fields) (table : ChainTable Fields) : ChainTable Fields where
  rows := table.rows.map fun row ↦ { row with fields := spec.stored row.fields }
  sorted := pairwise_map.2 table.sorted

/-- The columns of the rows give back what has the same hash. -/
def KeepsHashes (sha256 : Digest) (spec : ChainSpec Fields) (rows : List (ChainRow Fields)) :
    Prop :=
  ∀ row ∈ rows, ∀ p h, spec.chainHash sha256 row.fields p = .ok h →
    spec.chainHash sha256 (spec.stored row.fields) p = .ok h

theorem Chained.read (hc : Chained sha256 spec previous rows) (h : KeepsHashes sha256 spec rows) :
    Chained sha256 spec previous
      (rows.map fun row ↦ { row with fields := spec.stored row.fields }) := by
  induction rows generalizing previous with
  | nil => trivial
  | cons row _ ih =>
    obtain ⟨hlink, hhash, hrest⟩ := hc
    exact ⟨hlink, h row mem_cons_self _ _ hhash,
      ih hrest fun r hr ↦ h r (mem_cons_of_mem row hr)⟩

theorem Chained.recomputed (h : Chained sha256 spec previous rows) :
    spec.recomputed sha256 previous rows = .ok (rows.map fun row ↦ (row.id, row.contentHash)) := by
  induction rows generalizing previous with
  | nil => rfl
  | cons row _ ih =>
    obtain ⟨-, hhash, hrest⟩ := h
    rw [ChainSpec.recomputed, hhash]
    dsimp only [bind, Except.bind]
    rw [ih hrest]
    rfl

/-- The anchor was recorded for a row of the table. -/
def ChainTable.Anchors (sha256 : Digest) (spec : ChainSpec Fields) (table : ChainTable Fields)
    (a : Anchor) : Prop :=
  ∃ row ∈ table.rows, row.id = a.lastRowId ∧ row.contentHash = a.lastHash ∧
    ∃ bytes, canonicalJson (anchorBody spec.chainName a.anchorDate a.lastRowId a.lastHash) =
      .ok bytes ∧ sha256 bytes = a.anchorHash

theorem ChainTable.Anchors.problems (h : table.Anchors sha256 spec a) :
    spec.anchorProblems sha256 table (table.rows.map fun row ↦ (row.id, row.contentHash)) a =
      .ok [] := by
  obtain ⟨row, hrow, hid, hhash, bytes, hbytes, hanchor⟩ := h
  obtain ⟨before, after, hrows, -⟩ := exists_upTo_eq hrow
  have hne : ∀ r ∈ before, r.id ≠ row.id := fun r hr ↦ by
    have hsorted := table.sorted
    rw [hrows, append_assoc] at hsorted
    exact ((pairwise_append.1 hsorted).2.2 r hr row mem_cons_self).ne
  have hstored : (table.rows.find? (·.id = a.lastRowId)).map (·.contentHash) =
      some a.lastHash := by
    rw [hrows, append_assoc, find?_append, ← hid, find?_eq_none.2 (by simpa using hne), ← hhash]
    simp
  have hlookup : (table.rows.map fun row ↦ (row.id, row.contentHash)).lookup a.lastRowId =
      some a.lastHash := by
    have hnone : (before.map fun row ↦ (row.id, row.contentHash)).lookup row.id = none := by
      rw [lookup_eq_none_iff]
      simpa using fun r hr ↦ (hne r hr).symm
    rw [hrows, append_assoc, map_append, lookup_append, ← hid, hnone, ← hhash]
    simp
  rw [ChainSpec.anchorProblems, hbytes]
  dsimp only [bind, Except.bind]
  rw [if_pos hstored, if_pos hlookup, if_pos hanchor]
  rfl

theorem ChainLog.Built.anchors (h : log.Built sha256 spec) : ∀ a ∈ log.anchors,
    a.chain = spec.chainName → log.appended.Anchors sha256 spec a := by
  induction h with
  | empty => simp [ChainLog.anchors]
  | append _ _ _ _ ih =>
    rintro a ha hname
    obtain ⟨row, hrow, h⟩ := ih a ha hname
    exact ⟨row, mem_append_left _ hrow, h⟩
  | @anchor log anchorDate b _ hb ih =>
    intro a ha hname
    rw [ChainLog.anchors, map_append] at ha
    rcases mem_append.1 ha with ha | ha
    · exact ih a ha hname
    · obtain rfl := mem_singleton.1 ha
      rw [ChainSpec.recordAnchor] at hb
      cases hlast : log.appended.rows.getLast? with
      | none => simp [hlast] at hb
      | some row =>
        simp only [hlast] at hb
        cases hbytes : canonicalJson (anchorBody spec.chainName anchorDate row.id
            row.contentHash) with
        | error =>
          rw [hbytes] at hb
          cases hb
        | ok bytes =>
          rw [hbytes] at hb
          obtain rfl := Option.some.inj (ok.inj hb)
          exact ⟨row, mem_of_getLast? hlast, rfl, rfl, bytes, hbytes, rfl⟩
  | @other log b _ hb ih =>
    intro a ha hname
    rw [ChainLog.anchors, map_append] at ha
    rcases mem_append.1 ha with ha | ha
    · exact ih a ha hname
    · rw [mem_singleton.1 ha] at hname
      exact absurd hname hb

theorem mapM_eq_ok {α ε β : Type} {f : α → Except ε (List β)} {xs : List α}
    (h : ∀ x ∈ xs, f x = .ok []) : xs.mapM f = .ok (xs.map fun _ ↦ []) := by
  induction xs with
  | nil => rfl
  | cons x xs ih =>
    rw [mapM_cons, h x mem_cons_self, ih fun y hy ↦ h y (mem_cons_of_mem x hy)]
    rfl

/-- **A table that nobody has edited verifies**, and so do its anchors, as long as the columns keep
the hashes. -/
theorem ChainLog.Built.verified (hlog : log.Built sha256 spec)
    (h : KeepsHashes sha256 spec log.appended.rows) :
    spec.verifyChain sha256 (log.appended.read spec) = .ok [] ∧
      spec.verifyAnchors sha256 (log.appended.read spec) log.anchors = .ok [] := by
  have hchained := hlog.wf.appended.chained.read h
  refine ⟨verifyChain_eq_nil_iff.2 hchained, ?_⟩
  rw [ChainSpec.verifyAnchors]
  split
  · rfl
  have hrecomputed : spec.recomputed sha256 none (log.appended.read spec).rows =
      .ok ((log.appended.read spec).rows.map fun row ↦ (row.id, row.contentHash)) :=
    hchained.recomputed
  have hproblems := mapM_eq_ok fun a (ha : a ∈ spec.anchorsOf log.anchors) ↦ by
    obtain ⟨hmem, hname⟩ := mem_anchorsOf.1 ha
    obtain ⟨row, hrow, ha⟩ := hlog.anchors a hmem hname
    have hread : (log.appended.read spec).Anchors sha256 spec a := ⟨_, mem_map_of_mem hrow, ha⟩
    exact hread.problems
  rw [hrecomputed]
  dsimp only [bind, Except.bind]
  rw [hproblems]
  simp [pure, Except.pure]

end AgentColab
