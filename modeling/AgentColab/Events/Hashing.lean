import AgentColab.Events.Canonical

/-!
# Event content hashing and the hash chain of an aggregate

`content_hash` is the SHA-256 of the canonical JSON of the hash body: the immutable envelope
metadata, the payload, the SHA-256 of the sensitive ciphertext and `previous_hash`. The hash
function is a parameter.

Base64 text is kept as the bytes it decodes to.
-/

namespace AgentColab

/-- The base64 text of these bytes. -/
structure Base64 where
  bytes : List UInt8

/-- A hash function, with its digest in hexadecimal. -/
abbrev Digest := List UInt8 → String

/-- An Event as the API hands it out. -/
structure Event where
  eventId : String
  schemaVersion : ℤ
  workspaceId : String
  aggregateType : String
  aggregateId : String
  aggregateSeq : ℕ
  channelId : Option String
  taskId : Option String
  type : String
  actorAccountId : String
  causedBy : Option String
  correlationId : String
  idempotencyScope : String
  idempotencyKey : String
  policyVersion : String
  payload : Json
  sensitivePayloadCiphertext : Option Base64
  sensitivePayloadKeyRef : Option String
  previousHash : Option String
  occurredAt : String
  contentHash : String

/-- `event["content_hash"] = h` -/
def Event.withHash (event : Event) (h : String) : Event := { event with contentHash := h }

/-- A string or `None`. -/
def Json.ofOption : Option String → Json
  | none => .null
  | some s => .str s

variable (sha256 : Digest)

def ciphertextDigest (ciphertext : Option Base64) : Option String :=
  ciphertext.map fun c ↦ sha256 c.bytes

/-- What the hash covers. `recordedAt` and `contentHash` itself are left out. -/
def hashBody (event : Event) : Json :=
  .obj [("event_id", .str event.eventId), ("schema_version", .int event.schemaVersion),
    ("workspace_id", .str event.workspaceId), ("aggregate_type", .str event.aggregateType),
    ("aggregate_id", .str event.aggregateId), ("aggregate_seq", .int event.aggregateSeq),
    ("channel_id", .ofOption event.channelId), ("task_id", .ofOption event.taskId),
    ("type", .str event.type), ("actor_account_id", .str event.actorAccountId),
    ("caused_by", .ofOption event.causedBy), ("correlation_id", .str event.correlationId),
    ("idempotency_scope", .str event.idempotencyScope),
    ("idempotency_key", .str event.idempotencyKey), ("policy_version", .str event.policyVersion),
    ("occurred_at", .str event.occurredAt),
    ("sensitive_payload_key_ref", .ofOption event.sensitivePayloadKeyRef),
    ("payload", event.payload),
    ("sensitive_payload_sha256", .ofOption (ciphertextDigest sha256 event.sensitivePayloadCiphertext)),
    ("previous_hash", .ofOption event.previousHash)]

def computeContentHash (event : Event) : Except CanonicalizationError String :=
  (canonicalJson (hashBody sha256 event)).map sha256

def verifyContentHash (event : Event) : Except CanonicalizationError Bool :=
  (computeContentHash sha256 event).map fun h ↦ event.contentHash == h

/-- The problems of one Event, given the number and the link expected of it and whether its stored
hash is right. -/
def eventProblems (expectedSeq : ℕ) (previous : Option String) (ev : Event) (hashOk : Bool) :
    List String :=
  (if ev.aggregateSeq = expectedSeq then []
    else [s!"{ev.eventId}: aggregate_seq {ev.aggregateSeq} != {expectedSeq}"]) ++
  (if ev.previousHash = previous then []
    else [s!"{ev.eventId}: previous_hash does not match the preceding content_hash"]) ++
  (if hashOk then [] else [s!"{ev.eventId}: content_hash mismatch"])

/-- The loop of `verify_chain`, from the sequence number and the hash expected next. -/
def verifyChainFrom (expectedSeq : ℕ) (previous : Option String) :
    List Event → Except CanonicalizationError (List String)
  | [] => .ok []
  | ev :: events => do
    let hashOk ← verifyContentHash sha256 ev
    let rest ← verifyChainFrom (expectedSeq + 1) (some ev.contentHash) events
    return eventProblems expectedSeq previous ev hashOk ++ rest

/-- **Verify a single aggregate's stream** ordered by `aggregate_seq`; return the problems. -/
def verifyChain (events : List Event) : Except CanonicalizationError (List String) :=
  verifyChainFrom sha256 1 none events

/-! ## Reading the payload back -/

@[simp] theorem all_ofOption (P : PyFloat → Bool) (O : List String → Bool) (s : Option String) :
    (Json.ofOption s).All P O = true := by
  cases s <;> rfl

theorem isFinite_hashBody (event : Event) :
    (hashBody sha256 event).isFinite = event.payload.isFinite := by
  simp [hashBody, Json.isFinite, Json.All, allMembers]

variable {event : Event} {n : ℕ} {previous : Option String} {events : List Event}

/-- **The hash survives the payload column**, for payloads whose floats are below `10 ^ 21`. -/
theorem computeContentHash_stored {h : String} (hs : event.payload.isSmall = true)
    (hd : event.payload.isDict = true) (hh : computeContentHash sha256 event = .ok h) :
    computeContentHash sha256 { event with payload := event.payload.stored } = .ok h := by
  have htext : (hashBody sha256 { event with payload := event.payload.stored }).text =
      (hashBody sha256 event).text := by
    simp only [hashBody, Json.text, memberTexts, text_stored _ hs hd]
  have hfin : (hashBody sha256 event).isFinite = true →
      (hashBody sha256 { event with payload := event.payload.stored }).isFinite = true := by
    rw [isFinite_hashBody, isFinite_hashBody]
    exact isFinite_stored _
  rw [computeContentHash, canonicalJson] at hh ⊢
  by_cases hf : (hashBody sha256 event).isFinite = true
  · rw [if_pos hf] at hh
    rw [if_pos (hfin hf), htext]
    exact hh
  · rw [if_neg hf] at hh
    cases hh

/-! ## What verification decides -/

/-- The stored hash of an Event is the hash of its content. -/
def Event.Hashed (event : Event) : Prop :=
  computeContentHash sha256 event = .ok event.contentHash

/-- A stream that continues a chain: consecutive numbers from `n`, each Event linked to the one
before it. -/
def Linked (n : ℕ) (previous : Option String) : List Event → Prop
  | [] => True
  | ev :: events =>
    ev.aggregateSeq = n ∧ ev.previousHash = previous ∧ Linked (n + 1) (some ev.contentHash) events

theorem verifyContentHash_eq_true :
    verifyContentHash sha256 event = .ok true ↔ event.Hashed sha256 := by
  rw [verifyContentHash, Event.Hashed]
  cases computeContentHash sha256 event with
  | error => simp [Except.map]
  | ok =>
    simp only [Except.map, Except.ok.injEq, beq_iff_eq]
    exact eq_comm

theorem eventProblems_eq_nil {ev : Event} {hashOk : Bool} :
    eventProblems n previous ev hashOk = [] ↔
      ev.aggregateSeq = n ∧ ev.previousHash = previous ∧ hashOk = true := by
  rw [eventProblems, List.append_eq_nil_iff, List.append_eq_nil_iff, and_assoc]
  refine and_congr ?_ (and_congr ?_ ?_) <;>
  · split
    · simp_all
    · simp_all

theorem verifyChainFrom_eq_nil : verifyChainFrom sha256 n previous events = .ok [] ↔
      Linked n previous events ∧ ∀ ev ∈ events, ev.Hashed sha256 := by
  induction events generalizing n previous with
  | nil => simp [verifyChainFrom, Linked]
  | cons ev events ih =>
    rw [verifyChainFrom, Linked, List.forall_mem_cons, ← verifyContentHash_eq_true]
    have hrest := @ih (n + 1) (some ev.contentHash)
    cases hv : verifyContentHash sha256 ev with
    | error => simp [bind, Except.bind]
    | ok =>
      cases hr : verifyChainFrom sha256 (n + 1) (some ev.contentHash) events with
      | error =>
        rw [hr] at hrest
        simp only [bind, Except.bind, reduceCtorEq, false_iff] at hrest ⊢
        rintro ⟨⟨-, -, hlinked⟩, -, hhashed⟩
        exact hrest ⟨hlinked, hhashed⟩
      | ok =>
        rw [hr] at hrest
        simp only [bind, Except.bind, pure, Except.pure, Except.ok.injEq, List.append_eq_nil_iff,
          eventProblems_eq_nil] at hrest ⊢
        rw [hrest]
        tauto

/-- **Verification finds no problem exactly when** the numbers are `1..n`, every Event is linked
to the one before it and every stored hash is the hash of the content. -/
theorem verifyChain_eq_nil : verifyChain sha256 events = .ok [] ↔
      Linked 1 none events ∧ ∀ ev ∈ events, ev.Hashed sha256 :=
  verifyChainFrom_eq_nil sha256

end AgentColab
