import AgentColab.Domain.Uuid
import AgentColab.Events.Hashing

/-!
# The Event contract

The checks an Event passes before it is inserted: the envelope schema, then the type registry and
the payload schema. The constraints of the envelope are listed in the order of their field paths,
since the error reported is the one with the least path. The texts of violations and the payload
schemas are parameters. A pattern that ends in `$` also matches before a final newline.
-/

namespace AgentColab

inductive ErrorCode where
  | idempotencyConflict | actorUnknown | workspaceMismatch | channelUnknown | causedByUnknown
  | sequenceConflict | sensitiveUnsupported | eventInsertFailed
  | schemaInvalid | unknownEventType | unsupportedSchemaVersion | aggregateTypeMismatch
  | unknownAggregateType | aggregateIdInvalid | idempotencyScopeInvalid | payloadInvalid
  | keyDestroyed
deriving DecidableEq, Repr

structure CodedError where
  code : ErrorCode
  detail : String
deriving DecidableEq, Repr

structure EventTypeInfo where
  name : String
  aggregateType : String
  schemaVersion : ℤ

/-- The registry: the known types and aggregates with their id prefixes, and the third-party
validator, which reports the first violation of a payload schema and the text of a violation of
the envelope schema at a path. -/
structure SchemaRegistry where
  types : List EventTypeInfo
  aggregates : List (String × String)
  payloadError : String → Json → Option String
  envelopeMessage : String → Event → String

/-! ## The envelope schema -/

/-- `re.search` with a pattern `^…$` whose inside is `p`. -/
def matchesPattern (p : List Char → Bool) (s : String) : Bool :=
  p s.toList || (s.toList.getLast? == some '\n' && p s.toList.dropLast)

/-- `^evt-[0-9a-f]{32}$` -/
def isEventId (s : String) : Bool :=
  matchesPattern (fun cs ↦ "evt-".toList.isPrefixOf cs && (cs.drop 4).length == 32 &&
    (cs.drop 4).all isLowerHex) s

/-- `^[0-9a-f]{64}$` -/
def isHash (s : String) : Bool :=
  matchesPattern (fun cs ↦ cs.length == 64 && cs.all isLowerHex) s

/-- `^[a-z_]+:[a-z_]+$` -/
def isScope (s : String) : Bool :=
  let word := fun (cs : List Char) ↦ !cs.isEmpty && cs.all fun c ↦ c.isLower || c == '_'
  matchesPattern (fun cs ↦ match cs.splitOn ':' with
    | [a, b] => word a && word b
    | _ => false) s

/-- `^[A-Z][A-Z0-9_]+$` -/
def isTypeName (s : String) : Bool :=
  matchesPattern (fun cs ↦ cs.length ≥ 2 && (cs.head?.map Char.isUpper).getD false &&
    cs.all fun c ↦ c.isUpper || c.isDigit || c == '_') s

/-- `^\d{4}-\d{2}-\d{2}T\d{2}:\d{2}:\d{2}\.\d{3}Z$` -/
def isTimestamp (s : String) : Bool :=
  matchesPattern (fun cs ↦ cs.map (fun c ↦ if c.isDigit then '0' else c) ==
    "0000-00-00T00:00:00.000Z".toList) s

def hasLength (lo hi : ℕ) (s : String) : Bool := lo ≤ s.length && s.length ≤ hi

/-- Ciphertext and key reference are both present or both absent. -/
def isSealed (ciphertext : Option Base64) (keyRef : Option String) : Bool :=
  match ciphertext, keyRef with
  | some _, some ref => 1 ≤ ref.length
  | none, none => true
  | _, _ => false

/-- The paths of the envelope schema with whether the Event satisfies what is said about them. -/
def envelopeChecks (event : Event) : List (String × Bool) := [
  ("actor_account_id", isUuidText event.actorAccountId),
  ("aggregate_id", hasLength 1 200 event.aggregateId), ("aggregate_seq", 1 ≤ event.aggregateSeq),
  ("aggregate_type", 1 ≤ event.aggregateType.length), ("caused_by", event.causedBy.all isEventId),
  ("content_hash", isHash event.contentHash),
  ("correlation_id", hasLength 1 200 event.correlationId), ("event_id", isEventId event.eventId),
  ("idempotency_key", hasLength 1 200 event.idempotencyKey),
  ("idempotency_scope", isScope event.idempotencyScope),
  ("occurred_at", isTimestamp event.occurredAt), ("policy_version", 1 ≤ event.policyVersion.length),
  ("previous_hash", event.previousHash.all isHash &&
    (event.previousHash.isNone == (event.aggregateSeq == 1))),
  ("schema_version", event.schemaVersion == 1), ("sensitive_payload_key_ref",
    isSealed event.sensitivePayloadCiphertext event.sensitivePayloadKeyRef),
  ("type", isTypeName event.type), ("workspace_id", isUuidText event.workspaceId)]

namespace SchemaRegistry

variable (registry : SchemaRegistry)

def validateEnvelope (event : Event) : Except CodedError Unit :=
  match (envelopeChecks event).find? fun c ↦ !c.2 with
  | none => .ok ()
  | some (path, _) =>
    .error ⟨.schemaInvalid, path ++ ": " ++ registry.envelopeMessage path event⟩

def validateType (event : Event) : Except CodedError Unit :=
  match registry.types.find? fun t ↦ t.name == event.type with
  | none => .error ⟨.unknownEventType, event.type⟩
  | some info =>
    if event.schemaVersion ≠ info.schemaVersion then
      .error ⟨.unsupportedSchemaVersion, toString event.schemaVersion⟩
    else if event.aggregateType ≠ info.aggregateType then
      .error ⟨.aggregateTypeMismatch,
        s!"{event.type} belongs to {info.aggregateType}, got {event.aggregateType}"⟩
    else match registry.aggregates.lookup event.aggregateType with
      | none => .error ⟨.unknownAggregateType, event.aggregateType⟩
      | some idPrefix =>
        if !idPrefix.toList.isPrefixOf event.aggregateId.toList then
          .error ⟨.aggregateIdInvalid, s!"expected prefix {idPrefix}"⟩
        else if event.idempotencyScope.toList.takeWhile (· != ':') ≠ event.aggregateType.toList then
          .error ⟨.idempotencyScopeInvalid, event.idempotencyScope⟩
        else match registry.payloadError info.name event.payload with
          | some detail => .error ⟨.payloadInvalid, detail⟩
          | none => .ok ()

/-- What `append` checks before the insert. -/
def validateContract (event : Event) : Except CodedError Unit :=
  (registry.validateEnvelope event).bind fun _ ↦ registry.validateType event

variable {event : Event}

theorem envelopeChecks_of_validateContract (h : registry.validateContract event = .ok ())
    (path : String) {ok : Bool} (hmem : (path, ok) ∈ envelopeChecks event) : ok = true := by
  rw [validateContract, validateEnvelope] at h
  cases hfind : (envelopeChecks event).find? fun c ↦ !c.2 with
  | none => simpa using List.find?_eq_none.1 hfind _ hmem
  | some => simp [hfind, Except.bind] at h

theorem isUuidText_of_validateContract (h : registry.validateContract event = .ok ()) :
    isUuidText event.workspaceId = true ∧ isUuidText event.actorAccountId = true :=
  ⟨registry.envelopeChecks_of_validateContract h "workspace_id"
      (by simp [envelopeChecks]), registry.envelopeChecks_of_validateContract h "actor_account_id"
      (by simp [envelopeChecks])⟩

theorem isSome_of_validateContract (h : registry.validateContract event = .ok ()) :
    event.sensitivePayloadCiphertext.isSome = event.sensitivePayloadKeyRef.isSome := by
  have hsealed : isSealed event.sensitivePayloadCiphertext event.sensitivePayloadKeyRef = true :=
    registry.envelopeChecks_of_validateContract h "sensitive_payload_key_ref"
      (by simp [envelopeChecks])
  cases hc : event.sensitivePayloadCiphertext <;> cases hk : event.sensitivePayloadKeyRef <;>
    simp_all [isSealed]

end SchemaRegistry

end AgentColab
