import AgentColab.Documents.Versions
import Mathlib.Data.Option.Basic
import AgentColab.Domain.Runs

/-!
# Publishing

A destination is what the publishers write to: files under a root, the commits of a repository, or
the pages of a book. A file and a path of a commit are named by the version, so to write one again
replaces it; a `POST` makes a new page.

A publication reads, calls the publisher, and writes its rows at its commit. What the publisher has
done is not undone by a rollback, and an error of the publisher rolls back. The row of a publication
is unique, so the second of two that have both read that there is none is rolled back.
-/

namespace AgentColab.Documents

/-! ## Destinations -/

/-- One document version that is handed to a publisher. -/
structure PublishTarget where
  workspaceId : String
  document : DocumentId
  version : ℕ
  built : BuiltDocument
  checksum : String

def PublishTarget.fileKey (t : PublishTarget) : FileKey := ⟨t.workspaceId, t.document, t.version⟩

structure PublishedFile where
  path : FileKey
  content : BuiltDocument
deriving DecidableEq

structure Page where
  pageId : ℕ
  document : DocumentId
  version : ℕ
  markdown : String

/-- What is at a destination. The commits are those of the branch, oldest first, and the trees are
the paths of the documents. -/
structure Destination where
  files : List PublishedFile
  commits : List (List PublishedFile)
  pages : List Page
  nextPage : ℕ

def Destination.empty : Destination := ⟨[], [], [], 1⟩

/-- Writes the pair of files of a version over the one that is there. -/
def putFile (files : List PublishedFile) (f : PublishedFile) : List PublishedFile :=
  files.filter (·.path ≠ f.path) ++ [f]

namespace Destination

def head (d : Destination) : List PublishedFile := d.commits.getLastD []

/-- `FilesystemPublisher._write` -/
def writeFiles (d : Destination) (t : PublishTarget) : Destination × ExternalRef :=
  ({ d with files := putFile d.files ⟨t.fileKey, t.built⟩ }, .file t.fileKey)

/-- `GitPublisher._write`: nothing is committed when the tree has the files already. -/
def writeCommit (d : Destination) (t : PublishTarget) : Destination × ExternalRef :=
  let f : PublishedFile := ⟨t.fileKey, t.built⟩
  if f ∈ d.head then (d, .commit (d.commits.length - 1) t.fileKey)
  else ({ d with commits := d.commits ++ [putFile d.head f] }, .commit d.commits.length t.fileKey)

/-- `POST /api/pages` -/
def writePage (d : Destination) (t : PublishTarget) : Destination × ExternalRef :=
  ({ d with
      pages := d.pages ++ [⟨d.nextPage, t.document, t.version, t.built.markdown⟩]
      nextPage := d.nextPage + 1 }, .page d.nextPage)

/-- `publish` of a publisher. -/
def publish (d : Destination) : PublisherKind → PublishTarget → Destination × ExternalRef
  | .filesystem, t => d.writeFiles t
  | .git, t => d.writeCommit t
  | .bookstack, t => d.writePage t

/-- `update` of a publisher. -/
def update (d : Destination) : PublisherKind → PublishTarget → Destination × ExternalRef
  | .filesystem, t => d.writeFiles t
  | .git, t => d.writeCommit t
  | .bookstack, t => d.writePage t

/-- The objects of a version that the destination holds. -/
def count (d : Destination) (document : DocumentId) (version : ℕ) : PublisherKind → ℕ
  | .filesystem => d.files.countP fun f ↦ f.path.document = document ∧ f.path.version = version
  | .git => d.head.countP fun f ↦ f.path.document = document ∧ f.path.version = version
  | .bookstack => d.pages.countP fun p ↦ p.document = document ∧ p.version = version

/-- The reference names an object of the version that the destination has. -/
def Has (d : Destination) (document : DocumentId) (version : ℕ) : ExternalRef → Prop
  | .file path => path.document = document ∧ path.version = version ∧
      ∃ f ∈ d.files, f.path = path
  | .commit n path => path.document = document ∧ path.version = version ∧
      ∃ f ∈ d.commits.getD n [], f.path = path
  | .page pageId => ∃ p ∈ d.pages, p.pageId = pageId ∧ p.document = document ∧ p.version = version

instance (d : Destination) (document : DocumentId) (version : ℕ) (ref : ExternalRef) :
    Decidable (d.Has document version ref) := by
  cases ref <;> unfold Has <;> infer_instance

end Destination

/-! ## Rows -/

/-- A row of `publish_destinations`. -/
structure DestinationRow where
  destinationId : String
  workspaceId : String
  kind : PublisherKind
  active : Bool

structure PublishKey where
  document : DocumentId
  version : ℕ
  destinationId : String
deriving DecidableEq

/-- A row of `published_documents`. -/
structure PublishedRow where
  key : PublishKey
  workspaceId : String
  kind : PublisherKind
  externalRef : ExternalRef
  checksum : String
  correctionOfVersion : Option ℕ
  correctionReason : Option String
  publishedBy : String
  publishedAt : Time
  eventId : EventKey

/-- A row of `publish_attempts`. -/
structure AttemptRow where
  key : PublishKey
  attemptNo : ℕ
  ok : Bool
  errorCode : Option String

/-- `PublishDocument` -/
structure PublishDocument where
  key : PublishKey
  correctionOfVersion : Option ℕ
  correctionReason : Option String

/-! ## Transactions -/

/-- A publication that has read what it needs, and perhaps called the publisher. -/
structure Publication where
  context : Context
  request : PublishDocument
  kind : PublisherKind
  target : PublishTarget
  attemptNo : ℕ
  record : Option ExternalRef

/-- The tables, the destinations, the open publications, and the calls that have been made. -/
structure World where
  shelf : Shelf
  destinations : List DestinationRow
  held : String → Destination
  published : List PublishedRow
  attempts : List AttemptRow
  transactions : ℕ → Option Publication
  calls : List PublishKey

def World.start (home : DocumentId → String) : World where
  shelf := ⟨home, [], [], [], [], ⟨fun _ ↦ none, fun _ ↦ none⟩⟩
  destinations := []
  held := fun _ ↦ .empty
  published := []
  attempts := []
  transactions := fun _ ↦ none
  calls := []

namespace World

def set (w : World) (i : ℕ) (x : Option Publication) : World :=
  { w with transactions := Function.update w.transactions i x }

/-- `_destination` -/
def destination (w : World) (workspaceId destinationId : String) : Option DestinationRow :=
  (w.destinations.find? fun d ↦ d.destinationId = destinationId ∧ d.workspaceId = workspaceId).filter
    (·.active)

def existing (w : World) (k : PublishKey) : Option PublishedRow := w.published.find? (·.key = k)

/-- `_next_attempt_no` -/
def nextAttemptNo (w : World) (k : PublishKey) : ℕ :=
  ((w.attempts.filter (·.key = k)).map AttemptRow.attemptNo).foldl max 0 + 1

/-- `register_destination` -/
def register (w : World) (d : DestinationRow) : Option World :=
  if d.destinationId ∈ w.destinations.map DestinationRow.destinationId then none
  else some { w with destinations := w.destinations ++ [{ d with active := true }] }

/-- `publish_document` up to the call of the publisher. A version that is published there is
reported. -/
def begin (w : World) (i : ℕ) (c : Context) (q : PublishDocument) : Option World := do
  guard (w.transactions i = none)
  let row ← w.shelf.versionRow c.workspaceId q.key.document q.key.version
  guard (row.status = .finalized)
  let destination ← w.destination c.workspaceId q.key.destinationId
  match w.existing q.key with
  | some _ => return w
  | none =>
    guard (q.correctionOfVersion.isSome → strip (q.correctionReason.getD "") ≠ "")
    let _ ← w.shelf.approvedReview q.key.document q.key.version
    let built ← w.shelf.files.readVersion ⟨c.workspaceId, q.key.document, q.key.version⟩
    let target : PublishTarget := ⟨c.workspaceId, q.key.document, q.key.version, built, row.sha256⟩
    return w.set i (some ⟨c, q, destination.kind, target, w.nextAttemptNo q.key, none⟩)

/-- What becomes of a call: the publisher answers, fails without an effect, or fails when the
destination has already taken the version. -/
inductive Outcome where
  | accepted
  | failed
  | lost
deriving DecidableEq

/-- What the publisher does for a transaction. -/
def write (w : World) (p : Publication) : Destination × ExternalRef :=
  let d := w.held p.request.key.destinationId
  if p.request.correctionOfVersion.isSome then d.update p.kind p.target
  else d.publish p.kind p.target

def take (w : World) (p : Publication) : World :=
  { w with held := Function.update w.held p.request.key.destinationId (w.write p).1 }

def count (w : World) (p : Publication) : World :=
  { w with calls := w.calls ++ [p.request.key] }

/-- The call of the publisher. An error is recorded and raised, which rolls the record back. -/
def call (w : World) (i : ℕ) (outcome : Outcome) : Option World :=
  match w.transactions i with
  | some p =>
    if p.record = none then
      match outcome with
      | .accepted => some (((w.take p).count p).set i (some { p with record := (w.write p).2 }))
      | .failed => some ((w.count p).set i none)
      | .lost => some (((w.take p).count p).set i none)
    else none
  | none => none

def publishedRow (p : Publication) (ref : ExternalRef) (now : Time) : PublishedRow where
  key := p.request.key
  workspaceId := p.context.workspaceId
  kind := p.kind
  externalRef := ref
  checksum := p.target.checksum
  correctionOfVersion := p.request.correctionOfVersion
  correctionReason := p.request.correctionReason.filter (· ≠ "")
  publishedBy := p.context.accountId
  publishedAt := now
  eventId := p.context.eventKey .publish

def record (w : World) (p : Publication) (ref : ExternalRef)
    (events : List (EventKey × DocumentEvent)) (now : Time) : World :=
  { w with
    shelf := { w.shelf with events := w.shelf.events ++ events }
    published := w.published ++ [publishedRow p ref now]
    attempts := w.attempts ++ [⟨p.request.key, p.attemptNo, true, none⟩] }

/-- The rest of `publish_document`, and the commit. An insert fails when there is such a row. -/
def commit (w : World) (i : ℕ) (now : Time) : Option World := do
  let p ← w.transactions i
  let ref ← p.record
  let k := p.request.key
  let events ← w.shelf.append (p.context.eventKey .publish)
    (.published k.document k.version p.kind ref) none
  guard (w.existing k = none)
  guard (∀ a ∈ w.attempts, a.key = k → a.attemptNo ≠ p.attemptNo)
  return (w.record p ref events now).set i none

end World

/-! ## Steps -/

inductive Label where
  | draft (q : Draft) (ending : Shelf.Ending)
  | finalize (q : Finalization) (ending : Shelf.Ending)
  | review (c : Context) (q : Review) (now : Time)
  | register (d : DestinationRow)
  | begin (i : ℕ) (c : Context) (q : PublishDocument)
  | call (i : ℕ) (outcome : World.Outcome)
  | commit (i : ℕ) (now : Time)
  | rollback (i : ℕ)

/-- A transaction that is refused is rolled back, and is no step when nothing of it stays. -/
def World.step (w : World) : Label → Option World
  | .draft q ending =>
    (w.shelf.conclude ending (w.shelf.draft q)).map fun shelf ↦ { w with shelf := shelf }
  | .finalize q ending =>
    (w.shelf.conclude ending (w.shelf.finalize q)).map fun shelf ↦ { w with shelf := shelf }
  | .review c q now => (w.shelf.review c q now).map fun shelf ↦ { w with shelf := shelf }
  | .register d => w.register d
  | .begin i c q => w.begin i c q
  | .call i outcome => w.call i outcome
  | .commit i now => w.commit i now
  | .rollback i => (w.transactions i).map fun _ ↦ w.set i none

/-- The states that are reached by steps that all meet a condition. -/
inductive Run (C : World → Label → Prop) : World → List Label → World → Prop
  | nil (w) : Run C w [] w
  | cons {w w₁ w' : World} {l : Label} {ls : List Label} :
      w.step l = some w₁ → C w l → Run C w₁ ls w' → Run C w (l :: ls) w'

/-- The run of a list of steps that all meet a condition. -/
def World.runLabels (C : World → Label → Prop) [∀ w l, Decidable (C w l)] (w : World) :
    List Label → Option World
  | [] => some w
  | l :: ls => if C w l then (w.step l).bind fun w₁ ↦ w₁.runLabels C ls else none

theorem World.run_of_runLabels {C : World → Label → Prop} [∀ w l, Decidable (C w l)]
    {ls : List Label} {w w' : World} (h : w.runLabels C ls = some w') : Run C w ls w' :=
  related_of_run h (fun _ ↦ rfl) (fun _ _ _ ↦ rfl) .nil .cons

end AgentColab.Documents
