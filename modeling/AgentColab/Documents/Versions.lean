import AgentColab.Digest.Sha256
import AgentColab.Domain.Clock
import AgentColab.Domain.Text
import Mathlib.Data.List.Nodup

/-!
# Documents and their versions

A version is a row of `document_versions`, an Event of the document and two files. The row and the
Event are written by a transaction, which locks the row of the document; the files are written
before it commits, and stay when it is rolled back. The number that the Event is expected to get is
counted over all Events of the document, and the files are those under the number of the version.
-/

namespace AgentColab.Documents

/-! ## Rows -/

inductive SubjectType where
  | task
  | brainstorm
  | scheduleRun
  | schedulePeriod
deriving DecidableEq

structure DocumentId where
  subjectType : SubjectType
  subjectId : String
deriving DecidableEq

inductive VersionStatus where
  | draftPreVerification
  | attemptFinalized
  | finalized
deriving DecidableEq

inductive VerificationResult where
  | passed
  | failed
  | blocked
deriving DecidableEq

/-- What `build_skeleton` returns. -/
structure BuiltDocument where
  markdown : String
  manifest : String
deriving DecidableEq

def BuiltDocument.sha256 (b : BuiltDocument) : String := Sha256.hexDigest b.markdown.toUTF8.toList

/-- What is made of the frozen sources at a number of a version and with a narrative. -/
abbrev Skeleton := ℕ → Option String → BuiltDocument

/-- `document:draft` and the other scopes of idempotency. -/
inductive Scope where
  | draft
  | attemptFinalize
  | finalize
  | review
  | publish
deriving DecidableEq

/-- The identity under which the store has an Event. -/
structure EventKey where
  workspaceId : String
  actorAccountId : String
  scope : Scope
  idempotencyKey : String
deriving DecidableEq

inductive Decision where
  | approved
  | rejected
deriving DecidableEq

structure FileKey where
  workspaceId : String
  document : DocumentId
  version : ℕ
deriving DecidableEq

inductive PublisherKind where
  | filesystem
  | git
  | bookstack
deriving DecidableEq

/-- Where a publisher has put a version. -/
inductive ExternalRef where
  | file (path : FileKey)
  | commit (number : ℕ) (path : FileKey)
  | page (pageId : ℕ)
deriving DecidableEq

inductive DocumentEvent where
  | drafted (document : DocumentId) (version : ℕ) (sha256 : String) (freezeSeq : ℤ)
  | attemptFinalized (document : DocumentId) (version : ℕ) (verificationId sha256 : String)
      (freezeSeq : ℤ) (result : VerificationResult)
  | finalized (document : DocumentId) (version : ℕ) (verificationId sha256 : String)
      (freezeSeq : ℤ)
  | reviewed (document : DocumentId) (version : ℕ) (reviewer : String) (decision : Decision)
  | published (document : DocumentId) (version : ℕ) (publisher : PublisherKind)
      (externalRef : ExternalRef)
deriving DecidableEq

namespace DocumentEvent

def document : DocumentEvent → DocumentId
  | drafted document .. => document
  | attemptFinalized document .. => document
  | finalized document .. => document
  | reviewed document .. => document
  | published document .. => document

/-- The version that an Event records, with its hash. -/
def recorded : DocumentEvent → Option (ℕ × String)
  | drafted _ version sha256 _ => some (version, sha256)
  | attemptFinalized _ version _ sha256 .. => some (version, sha256)
  | finalized _ version _ sha256 _ => some (version, sha256)
  | reviewed .. => none
  | published .. => none

end DocumentEvent

/-- A row of `documents`. -/
structure DocumentRow where
  document : DocumentId
  workspaceId : String
  currentVersion : ℕ
  status : VersionStatus

/-- A row of `document_versions`. `revision` is the one that its manifest names, `narrative` the
accepted row of `document_narratives`. -/
structure VersionRow where
  document : DocumentId
  version : ℕ
  status : VersionStatus
  verificationId : Option String
  verificationResult : Option VerificationResult
  revision : Option ℕ
  sha256 : String
  manifest : String
  freezeSeq : ℤ
  eventId : EventKey
  narrative : Option String
deriving DecidableEq

/-- A row of `publish_reviews`. -/
structure ReviewRow where
  reviewId : String
  workspaceId : String
  document : DocumentId
  version : ℕ
  reviewer : String
  decision : Decision
  reason : String
  decidedAt : Time

structure DocumentStore where
  markdown : FileKey → Option String
  manifest : FileKey → Option String

namespace DocumentStore

/-- `write_version` refuses a version of which there is a file. -/
def Exists (s : DocumentStore) (k : FileKey) : Prop := s.markdown k ≠ none ∨ s.manifest k ≠ none

instance (s : DocumentStore) (k : FileKey) : Decidable (s.Exists k) := by
  unfold Exists
  infer_instance

def writeMarkdown (s : DocumentStore) (k : FileKey) (b : BuiltDocument) : DocumentStore :=
  { s with markdown := Function.update s.markdown k (some b.markdown) }

/-- `write_version`, to its end. -/
def writeVersion (s : DocumentStore) (k : FileKey) (b : BuiltDocument) : DocumentStore :=
  { s.writeMarkdown k b with manifest := Function.update s.manifest k (some b.manifest) }

/-- `read_version` -/
def readVersion (s : DocumentStore) (k : FileKey) : Option BuiltDocument := do
  let markdown ← s.markdown k
  let manifest ← s.manifest k
  return ⟨markdown, manifest⟩

end DocumentStore

/-! ## The tables of the lifecycle -/

/-- The tables that the lifecycle and the reviews use, and the files. A subject stays in its
workspace. -/
structure Shelf where
  home : DocumentId → String
  documents : List DocumentRow
  versions : List VersionRow
  events : List (EventKey × DocumentEvent)
  reviews : List ReviewRow
  files : DocumentStore

/-- What a caller says of itself. -/
structure Context where
  workspaceId : String
  accountId : String
  idempotencyKey : String

def Context.eventKey (c : Context) (scope : Scope) : EventKey :=
  ⟨c.workspaceId, c.accountId, scope, c.idempotencyKey⟩

/-- What a lifecycle transaction is about to write. -/
structure Write where
  row : VersionRow
  built : BuiltDocument
  event : DocumentEvent

namespace Shelf

/-- The store of Events numbers the Events of an aggregate in a workspace. -/
def seq (s : Shelf) (workspaceId : String) (d : DocumentId) : ℕ :=
  (s.events.filter fun x ↦ x.1.workspaceId = workspaceId ∧ x.2.document = d).length

/-- The append of a command. `none` is a conflict, and the list is empty when the Event is replayed.
-/
def append (s : Shelf) (key : EventKey) (e : DocumentEvent) (expectedSeq : Option ℕ) :
    Option (List (EventKey × DocumentEvent)) :=
  match s.events.lookup key with
  | some prior => if prior = e then some [] else none
  | none =>
    if expectedSeq.all (· = s.seq key.workspaceId e.document + 1) then some [(key, e)] else none

def document (s : Shelf) (d : DocumentId) : Option DocumentRow :=
  s.documents.find? (·.document = d)

/-- `_ensure_document`: the next number of a version. -/
def nextVersion (s : Shelf) (d : DocumentId) : ℕ :=
  match s.document d with
  | none => 1
  | some row => row.currentVersion + 1

/-- The last entry of `list_versions`. -/
def latest (s : Shelf) (d : DocumentId) : Option VersionRow :=
  s.versions.find? fun v ↦
    v.document = d ∧ ∀ v' ∈ s.versions, v'.document = d → v'.version ≤ v.version

/-- `_replay` finds an Event of the document under the scope and the key, whoever the actor was. -/
def Replays (s : Shelf) (d : DocumentId) (scope : Scope) (idempotencyKey : String) : Prop :=
  ∃ x ∈ s.events, x.1.workspaceId = s.home d ∧ x.2.document = d ∧ x.1.scope = scope ∧
    x.1.idempotencyKey = idempotencyKey

instance (s : Shelf) (d : DocumentId) (scope : Scope) (idempotencyKey : String) :
    Decidable (s.Replays d scope idempotencyKey) := by
  unfold Replays
  infer_instance

def fileKey (s : Shelf) (d : DocumentId) (version : ℕ) : FileKey := ⟨s.home d, d, version⟩

/-- The append and the write of a version, up to the commit. -/
def prepare (s : Shelf) (x : Write) : Option (Write × List (EventKey × DocumentEvent)) := do
  let events ← s.append x.row.eventId x.event (some x.row.version)
  guard (¬s.files.Exists (s.fileKey x.row.document x.row.version))
  return (x, events)

end Shelf

/-! ## Drafts -/

/-- A draft of a document. `prose` is the narrative that was accepted for the new version. -/
structure Draft where
  document : DocumentId
  accountId : String
  idempotencyKey : String
  skeleton : Skeleton
  prose : Option String
  freezeSeq : ℤ

namespace Shelf

/-- What `draft_document` and `draft_subject` are about to write. -/
def draftWrite (s : Shelf) (q : Draft) : Write :=
  let version := s.nextVersion q.document
  let prose := q.prose.filter (· ≠ "")
  let built := q.skeleton version prose
  { row :=
      { document := q.document, version := version, status := .draftPreVerification
        verificationId := none, verificationResult := none, revision := none
        sha256 := built.sha256, manifest := built.manifest, freezeSeq := q.freezeSeq
        eventId := ⟨s.home q.document, q.accountId, .draft, q.idempotencyKey⟩
        narrative := prose }
    built := built
    event := .drafted q.document version built.sha256 q.freezeSeq }

/-- The latest version is the one that the sources give. Of a Task only a draft can be. -/
def Unchanged (s : Shelf) (q : Draft) : Prop :=
  ∃ v ∈ s.latest q.document, (q.document.subjectType = .task → v.status = .draftPreVerification) ∧
    (q.skeleton v.version v.narrative).sha256 = v.sha256

instance (s : Shelf) (q : Draft) : Decidable (s.Unchanged q) :=
  decidable_of_iff (∃ v, s.latest q.document = some v ∧
    ((q.document.subjectType = .task → v.status = .draftPreVerification) ∧
      (q.skeleton v.version v.narrative).sha256 = v.sha256)) .rfl

/-- `draft_document` for a Task, `draft_subject` for another subject: `some none` returns the version
that there is. -/
def draft (s : Shelf) (q : Draft) : Option (Option (Write × List (EventKey × DocumentEvent))) :=
  if q.document.subjectType = .task ∧ s.Replays q.document .draft q.idempotencyKey then some none
  else if s.Unchanged q then some none
  else (s.prepare (s.draftWrite q)).map some

end Shelf

/-! ## The versions that follow a verdict -/

/-- A call of `finalize_attempt`, with the revision and the result of the VerificationRun. -/
structure Finalization where
  taskId : String
  accountId : String
  idempotencyKey : String
  verificationId : String
  revision : ℕ
  result : VerificationResult
  skeleton : ℕ → BuiltDocument
  freezeSeq : ℤ

def Finalization.document (q : Finalization) : DocumentId := ⟨.task, q.taskId⟩

def VerificationResult.stage : VerificationResult → VersionStatus
  | passed => .finalized
  | failed => .attemptFinalized
  | blocked => .attemptFinalized

def VerificationResult.scope : VerificationResult → Scope
  | passed => .finalize
  | failed => .attemptFinalize
  | blocked => .attemptFinalize

namespace Shelf

def finalizeEvent (q : Finalization) (version : ℕ) (sha256 : String) : DocumentEvent :=
  match q.result with
  | .passed => .finalized q.document version q.verificationId sha256 q.freezeSeq
  | result => .attemptFinalized q.document version q.verificationId sha256 q.freezeSeq result

/-- What `finalize_attempt` is about to write. -/
def finalizeWrite (s : Shelf) (q : Finalization) : Write :=
  let version := s.nextVersion q.document
  let built := q.skeleton version
  { row :=
      { document := q.document, version := version, status := q.result.stage
        verificationId := some q.verificationId, verificationResult := some q.result
        revision := some q.revision, sha256 := built.sha256, manifest := built.manifest
        freezeSeq := q.freezeSeq
        eventId := ⟨s.home q.document, q.accountId, q.result.scope, q.idempotencyKey⟩
        narrative := none }
    built := built
    event := finalizeEvent q version built.sha256 }

/-- The verdict has its version. -/
def Settled (s : Shelf) (q : Finalization) : Prop :=
  ∃ v ∈ s.versions, v.document = q.document ∧ v.verificationId = some q.verificationId ∧
    v.status ≠ .draftPreVerification ∧ v.revision = some q.revision

instance (s : Shelf) (q : Finalization) : Decidable (s.Settled q) := by
  unfold Settled
  infer_instance

/-- `finalize_attempt` -/
def finalize (s : Shelf) (q : Finalization) :
    Option (Option (Write × List (EventKey × DocumentEvent))) :=
  if q.revision < 1 then none
  else if s.Settled q then some none
  else if s.Replays q.document q.result.scope q.idempotencyKey then some none
  else (s.prepare (s.finalizeWrite q)).map some

/-! ## The end of a lifecycle transaction -/

/-- The row of the document after `_persist_version`. -/
def documentRow (s : Shelf) (x : Write) : DocumentRow where
  document := x.row.document
  workspaceId := s.home x.row.document
  currentVersion := x.row.version
  status := x.row.status

def persist (s : Shelf) (x : Write) (events : List (EventKey × DocumentEvent)) : Shelf :=
  { s with
    documents := s.documents.filter (·.document ≠ x.row.document) ++ [s.documentRow x]
    versions := s.versions ++ [x.row]
    events := s.events ++ events
    files := s.files.writeVersion (s.fileKey x.row.document x.row.version) x.built }

/-- It commits, or it is rolled back when it has written none of the files, the first, or both. -/
inductive Ending where
  | commit
  | rollback
  | rollbackMarkdown
  | rollbackBoth

def finish (s : Shelf) (x : Write) (events : List (EventKey × DocumentEvent)) : Ending → Shelf
  | .commit => s.persist x events
  | .rollback => s
  | .rollbackMarkdown =>
    { s with files := s.files.writeMarkdown (s.fileKey x.row.document x.row.version) x.built }
  | .rollbackBoth =>
    { s with files := s.files.writeVersion (s.fileKey x.row.document x.row.version) x.built }

/-- A request of the lifecycle that is refused is no step. -/
def conclude (s : Shelf) (ending : Ending) :
    Option (Option (Write × List (EventKey × DocumentEvent))) → Option Shelf
  | none => none
  | some none => some s
  | some (some (x, events)) => some (s.finish x events ending)

/-! ## Reviews -/

/-- `_version_row`: the version with the workspace of its document. -/
def versionRow (s : Shelf) (workspaceId : String) (d : DocumentId) (version : ℕ) :
    Option VersionRow :=
  s.versions.find? fun v ↦ v.document = d ∧ v.version = version ∧
    ∃ row ∈ s.documents, row.document = d ∧ row.workspaceId = workspaceId

end Shelf

/-- `ReviewDocumentPublish`, with the identity that it draws. -/
structure Review where
  reviewId : String
  document : DocumentId
  version : ℕ
  decision : Decision
  reason : String

/-- The row that `review_document` inserts. -/
def Review.row (q : Review) (c : Context) (now : Time) : ReviewRow where
  reviewId := q.reviewId
  workspaceId := c.workspaceId
  document := q.document
  version := q.version
  reviewer := c.accountId
  decision := q.decision
  reason := String.ofList (q.reason.toList.take 500)
  decidedAt := now

namespace Shelf

/-- `review_document` -/
def review (s : Shelf) (c : Context) (q : Review) (now : Time) : Option Shelf := do
  guard (strip q.reason ≠ "")
  let row ← s.versionRow c.workspaceId q.document q.version
  guard (row.status = .finalized)
  let events ← s.append (c.eventKey .review)
    (.reviewed q.document q.version c.accountId q.decision) none
  if events = [] then return s
  return { s with events := s.events ++ events, reviews := s.reviews ++ [q.row c now] }

/-- The order of the query of `_approved_review`. -/
def Later (r r' : ReviewRow) : Prop :=
  r'.decidedAt < r.decidedAt ∨ r'.decidedAt = r.decidedAt ∧ r'.reviewId < r.reviewId

instance (r r' : ReviewRow) : Decidable (Later r r') := by
  unfold Later
  infer_instance

/-- `_approved_review` -/
def approvedReview (s : Shelf) (d : DocumentId) (version : ℕ) : Option ReviewRow :=
  (s.reviews.find? fun r ↦ (r.document = d ∧ r.version = version) ∧
    ∀ r' ∈ s.reviews, r'.document = d → r'.version = version → ¬Later r' r).filter
      (·.decision = .approved)

/-- `publishable_version` -/
def publishableVersion (s : Shelf) (d : DocumentId) : Option VersionRow :=
  s.versions.find? fun v ↦
    (v.document = d ∧ (d.subjectType = .task ↔ v.status = .finalized)) ∧
      ∀ v' ∈ s.versions, v'.document = d → (d.subjectType = .task ↔ v'.status = .finalized) →
        v'.version ≤ v.version

end Shelf

end AgentColab.Documents
