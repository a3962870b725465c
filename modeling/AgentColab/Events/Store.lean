import AgentColab.Events.Contract

/-!
# Append requests and their results

The interface of the Event store. A request is identified by its workspace, actor, idempotency
scope and key; `requestBodyHash` decides whether a second request with the same identity is a
repetition or a conflict.
-/

namespace AgentColab

structure AppendRequest where
  workspaceId : String
  aggregateType : String
  aggregateId : String
  type : String
  actorAccountId : String
  correlationId : String
  idempotencyScope : String
  idempotencyKey : String
  payload : PyDict
  policyVersion : String := "policy-v1"
  channelId : Option String := none
  taskId : Option String := none
  causedBy : Option String := none
  /-- The number the Event is expected to get; `none` accepts any. -/
  expectedSeq : Option ℤ := none
  /-- Content that is encrypted by the store and never stored in the payload. -/
  sensitive : Option PyDict := none
  schemaVersion : ℤ := 1

/-- What makes two requests with the same key the same request. -/
def AppendRequest.body (r : AppendRequest) : Json :=
  .obj [("workspace_id", .str r.workspaceId), ("aggregate_type", .str r.aggregateType),
    ("aggregate_id", .str r.aggregateId), ("type", .str r.type), ("payload", r.payload.json),
    ("sensitive", match r.sensitive with
      | none => .null
      | some s => s.json),
    ("channel_id", .ofOption r.channelId), ("task_id", .ofOption r.taskId),
    ("caused_by", .ofOption r.causedBy)]

def AppendRequest.requestBodyHash (sha256 : Digest) (r : AppendRequest) :
    Except CanonicalizationError String :=
  (canonicalJson r.body).map sha256

/-- What `append` returns; `replayed` when an identical request returned the original. -/
structure AppendResult where
  eventId : String
  aggregateSeq : ℕ
  contentHash : String
  recordedSeq : ℕ
  replayed : Bool := false
deriving DecidableEq, Repr

/-- What `append` raises: an `EventStoreError`, or an exception of the canonicalizer, of
`uuid.UUID` or of the database driver. -/
inductive AppendError where
  | store (e : CodedError)
  | canonicalization (e : CanonicalizationError)
  | valueError
  | dataError
deriving DecidableEq, Repr

end AgentColab
