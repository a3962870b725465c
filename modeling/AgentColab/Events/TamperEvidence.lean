import AgentColab.Events.Decoding
import AgentColab.Events.Hashing

/-!
# Two streams with the same last hash

The hash of an Event covers the hash of the one before it, so the last hash of a verified stream
fixes the whole stream, as far as an injective hash function and canonical JSON can: the payloads
are the same up to the order of members and the type of numbers.
-/

namespace AgentColab

open List

structure Event.Agrees (a b : Event) : Prop where
  eventId : a.eventId = b.eventId
  schemaVersion : a.schemaVersion = b.schemaVersion
  workspaceId : a.workspaceId = b.workspaceId
  aggregateType : a.aggregateType = b.aggregateType
  aggregateId : a.aggregateId = b.aggregateId
  aggregateSeq : a.aggregateSeq = b.aggregateSeq
  channelId : a.channelId = b.channelId
  taskId : a.taskId = b.taskId
  type : a.type = b.type
  actorAccountId : a.actorAccountId = b.actorAccountId
  causedBy : a.causedBy = b.causedBy
  correlationId : a.correlationId = b.correlationId
  idempotencyScope : a.idempotencyScope = b.idempotencyScope
  idempotencyKey : a.idempotencyKey = b.idempotencyKey
  policyVersion : a.policyVersion = b.policyVersion
  occurredAt : a.occurredAt = b.occurredAt
  sensitivePayloadKeyRef : a.sensitivePayloadKeyRef = b.sensitivePayloadKeyRef
  payload : a.payload.canon = b.payload.canon
  ciphertext : a.sensitivePayloadCiphertext = b.sensitivePayloadCiphertext
  previousHash : a.previousHash = b.previousHash
  contentHash : a.contentHash = b.contentHash

/-! ## One Event -/

@[simp] theorem canon_ofOption_inj {a b : Option String} :
    (Json.ofOption a).canon = (Json.ofOption b).canon ↔ a = b := by
  cases a <;> cases b <;> simp [Json.ofOption, Json.canon]

variable {sha256 : Digest}

theorem ciphertextDigest_inj (hinj : Function.Injective sha256) {a b : Option Base64}
    (h : ciphertextDigest sha256 a = ciphertextDigest sha256 b) : a = b := by
  refine Option.map_injective (fun x y hxy ↦ ?_) h
  cases x
  cases y
  exact congrArg Base64.mk (hinj hxy)

theorem agrees_of_hashed (hinj : Function.Injective sha256) {a b : Event} (ha : a.Hashed sha256)
    (hb : b.Hashed sha256) (h : a.contentHash = b.contentHash) : a.Agrees b := by
  have hbytes : ∀ {e : Event}, e.Hashed sha256 →
      ∃ bytes, canonicalJson (hashBody sha256 e) = .ok bytes ∧ sha256 bytes = e.contentHash := by
    intro e he
    rw [Event.Hashed, computeContentHash] at he
    cases hc : canonicalJson (hashBody sha256 e) with
    | error =>
      rw [hc] at he
      cases he
    | ok bytes =>
      rw [hc] at he
      exact ⟨bytes, rfl, Except.ok.inj he⟩
  obtain ⟨x, hx, hxa⟩ := hbytes ha
  obtain ⟨y, hy, hyb⟩ := hbytes hb
  obtain rfl : x = y := hinj (hxa.trans (h.trans hyb.symm))
  have hcanon := canon_of_canonicalJson hx hy
  rw [hashBody, hashBody, Json.canon, Json.canon, Canon.obj.injEq] at hcanon
  have hmembers := eq_of_sortKeys (by simp only [canonMembers, map_cons, map_nil])
    (by simp only [canonMembers, map_cons, map_nil]; decide) hcanon
  simp only [canonMembers, List.cons.injEq, Prod.mk.injEq, Json.canon, Canon.str.injEq,
    Canon.num.injEq, canon_ofOption_inj, intText_eq_iff, Int.natCast_inj, true_and, and_true] at hmembers
  obtain ⟨h₁, h₂, h₃, h₄, h₅, h₆, h₇, h₈, h₉, h₁₀, h₁₁, h₁₂, h₁₃, h₁₄, h₁₅, h₁₆, h₁₇, h₁₈, h₁₉,
    h₂₀⟩ := hmembers
  exact ⟨h₁, h₂, h₃, h₄, h₅, h₆, h₇, h₈, h₉, h₁₀, h₁₁, h₁₂, h₁₃, h₁₄, h₁₅, h₁₆, h₁₇, h₁₈,
    ciphertextDigest_inj hinj h₁₉, h₂₀, h⟩

theorem hashed_withHash {event : Event} {h : String} :
    (event.withHash h).Hashed sha256 ↔ computeContentHash sha256 event = .ok h := Iff.rfl

/-! ## Streams -/

/-- The hash that the next Event is linked to. -/
def lastHash (previous : Option String) (events : List Event) : Option String :=
  (events.getLast?.map (·.contentHash)).or previous

theorem linked_concat {n : ℕ} {previous : Option String} {events : List Event} {e : Event} :
    Linked n previous (events ++ [e]) ↔
      Linked n previous events ∧ e.aggregateSeq = n + events.length ∧
        e.previousHash = lastHash previous events := by
  induction events generalizing n previous with
  | nil => simp [Linked, lastHash]
  | cons x events ih =>
    have hlast : lastHash (some x.contentHash) events = lastHash previous (x :: events) := by
      rw [lastHash, lastHash, List.getLast?_cons]
      cases events.getLast? <;> rfl
    rw [cons_append, Linked, Linked, ih, hlast, length_cons]
    constructor
    · rintro ⟨hseq, hprev, hlinked, hnum, hlink⟩
      exact ⟨⟨hseq, hprev, hlinked⟩, by omega, hlink⟩
    · rintro ⟨⟨hseq, hprev, hlinked⟩, hnum, hlink⟩
      exact ⟨hseq, hprev, hlinked, by omega, hlink⟩

/-- **A verified stream is fixed by its length and its last hash**, up to the order of members and
the type of numbers in the payloads. -/
theorem streams_agree (hinj : Function.Injective sha256) {xs ys : List Event}
    (hlength : xs.length = ys.length) (hx : verifyChain sha256 xs = .ok [])
    (hy : verifyChain sha256 ys = .ok [])
    (hlast : xs.getLast?.map (·.contentHash) = ys.getLast?.map (·.contentHash)) :
    List.Forall₂ Event.Agrees xs ys := by
  obtain ⟨hlx, hhx⟩ := (verifyChain_eq_nil sha256).1 hx
  obtain ⟨hly, hhy⟩ := (verifyChain_eq_nil sha256).1 hy
  clear hx hy
  -- from the last Event backwards
  induction xs using List.reverseRecOn generalizing ys with
  | nil =>
    obtain rfl := length_eq_zero_iff.1 hlength.symm
    exact .nil
  | append_singleton xs x ih =>
    obtain ⟨ys, y, rfl⟩ : ∃ ys' y, ys = ys' ++ [y] := by
      refine ⟨ys.dropLast, ys.getLast ?_, (dropLast_append_getLast _).symm⟩
      rintro rfl
      simp at hlength
    obtain ⟨hlx', -, hpx⟩ := linked_concat.1 hlx
    obtain ⟨hly', -, hpy⟩ := linked_concat.1 hly
    have hhash : x.contentHash = y.contentHash := by simpa using hlast
    have hagrees : x.Agrees y := agrees_of_hashed hinj (hhx x (by simp)) (hhy y (by simp)) hhash
    have hprevious : xs.getLast?.map (·.contentHash) = ys.getLast?.map (·.contentHash) := by
      have hlink : lastHash none xs = lastHash none ys := by rw [← hpx, ← hpy, hagrees.previousHash]
      simpa [lastHash] using hlink
    refine rel_append (ih (by simpa using hlength) hprevious hlx' ?_ hly' ?_) (.cons hagrees .nil)
    · exact fun e he ↦ hhx e (mem_append_left _ he)
    · exact fun e he ↦ hhy e (mem_append_left _ he)

namespace Sample

/-- A hash function that keeps every byte. -/
def keep : Digest := fun bytes ↦ String.ofList (bytes.map fun b ↦ Char.ofNat b.toNat)

theorem keep_injective : Function.Injective keep := by
  intro a b h
  refine map_injective_iff.2 (fun x y hxy ↦ ?_) (String.ofList_injective h)
  have hbyte : ∀ n < 256, (Char.ofNat n).toNat = n := by decide +kernel
  have hvalid : ∀ z : UInt8, (Char.ofNat z.toNat).toNat = z.toNat := fun z ↦
    hbyte z.toNat z.toNat_lt
  have hnat := congrArg Char.toNat hxy
  rw [hvalid, hvalid] at hnat
  exact UInt8.toNat_inj.1 hnat

/-- The first Event of a stream, before it is hashed. -/
def draft (payload : Json) : Event where
  eventId := "evt-1"
  schemaVersion := 1
  workspaceId := "ws-1"
  aggregateType := "task"
  aggregateId := "task-1"
  aggregateSeq := 1
  channelId := none
  taskId := some "task-1"
  type := "TASK_CREATED"
  actorAccountId := "agent-1"
  causedBy := none
  correlationId := "c-1"
  idempotencyScope := "task:create"
  idempotencyKey := "k-1"
  policyVersion := "1"
  payload := payload
  sensitivePayloadCiphertext := none
  sensitivePayloadKeyRef := none
  previousHash := none
  occurredAt := "2026-01-01T00:00:00.000Z"
  contentHash := ""

def first (payload : Json) : Event :=
  (draft payload).withHash ((computeContentHash keep (draft payload)).toOption.getD "")

/-- An integer that is not a float. -/
def exact : Json := .obj [("n", .int 123456789012345700)]

/-- `1.234567890123457e+17`, whose value is 4 less. -/
def rounded : Json :=
  .obj [("n", .float (.num ⟨false, [1, 2, 3, 4, 5, 6, 7, 8, 9, 0, 1, 2, 3, 4, 5, 7], 18, by decide,
    by decide, by decide, by decide⟩))]

variable {payload : Json}

theorem computeContentHash_draft (h : payload.isFinite = true) :
    computeContentHash keep (draft payload) =
      .ok (keep ((hashBody keep (draft payload)).text.flatMap String.utf8EncodeChar)) := by
  have hfinite : (hashBody keep (draft payload)).isFinite = true := by
    rw [isFinite_hashBody]
    exact h
  rw [computeContentHash, canonicalJson, if_pos hfinite]
  rfl

theorem verified_first (h : payload.isFinite = true) :
    verifyChain keep [first payload] = .ok [] := by
  have hhashed : (first payload).Hashed keep := by
    rw [first, hashed_withHash, computeContentHash_draft h]
    rfl
  exact (verifyChain_eq_nil keep).2 ⟨⟨rfl, rfl, trivial⟩, by simpa using hhashed⟩

theorem contentHash_rounded : (first exact).contentHash = (first rounded).contentHash := by
  have htext : exact.text = rounded.text := by decide
  have hbody : (hashBody keep (draft exact)).text = (hashBody keep (draft rounded)).text := by
    simp only [hashBody, draft, Json.text, memberTexts, htext]
  rw [first, first, computeContentHash_draft (by decide), computeContentHash_draft (by decide),
    hbody]
  rfl

end Sample

open Sample

theorem streams_agree_rounded : List.Forall₂ Event.Agrees [first exact] [first rounded] :=
  streams_agree keep_injective rfl (verified_first (by decide))
    (verified_first (by decide)) (congrArg some contentHash_rounded)

theorem payload_not_determined : ¬∀ (sha256 : Digest) (xs ys : List Event),
    Function.Injective sha256 → xs.length = ys.length → verifyChain sha256 xs = .ok [] →
    verifyChain sha256 ys = .ok [] →
    xs.getLast?.map (·.contentHash) = ys.getLast?.map (·.contentHash) →
    List.Forall₂ (fun a b ↦ a.Agrees b ∧ a.payload = b.payload) xs ys := by
  intro h
  have hsame := h keep [first exact] [first rounded] keep_injective rfl (verified_first (by decide))
    (verified_first (by decide)) (congrArg some contentHash_rounded)
  have hpayload : exact = rounded := (forall₂_cons.1 hsame).1.2
  rw [exact, rounded, Json.obj.injEq, List.cons.injEq, Prod.mk.injEq] at hpayload
  cases hpayload.1.2

end AgentColab
