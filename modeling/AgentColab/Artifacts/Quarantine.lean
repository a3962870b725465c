import AgentColab.Digest.Sha256
import AgentColab.Domain.Clock
import Mathlib.Data.List.Nodup
import AgentColab.Domain.Runs

/-!
# Artifacts and their quarantine

The status of an artifact is a column of `artifacts`, and the reason for which it is held is a row
of `artifact_quarantine`. The upload writes both; the commands write the status alone, and no read
path looks at the row.
-/

namespace AgentColab.Artifacts

/-! ## Storage -/

abbrev Bytes := List UInt8

inductive StorageError where
  | pathInvalid
  | missing
  | checksumMismatch

/-- `ArtifactStorageError.code` -/
def StorageError.code : StorageError → String
  | pathInvalid => "ARTIFACT_PATH_INVALID"
  | missing => "ARTIFACT_MISSING"
  | checksumMismatch => "ARTIFACT_CHECKSUM_MISMATCH"

/-- `ArtifactStorageError.detail`, as `verify` gives it. -/
def StorageError.detail (uri : String) : StorageError → String
  | pathInvalid => "unsupported storage URI"
  | missing => uri
  | checksumMismatch => "stored bytes changed"

abbrev Storage := String → String → Option Bytes

/-- `storage_uri_for` -/
def storageUriFor (workspaceId sha256 : String) : String :=
  "colab-fs://" ++ workspaceId ++ "/" ++ sha256

def isHexDigit (c : Char) : Bool := c.isDigit || ('a' ≤ c && c ≤ 'f')

/-- `parse_storage_uri` -/
def parseStorageUri (uri : String) : Option (String × String) :=
  let scheme := "colab-fs://".toList
  let cs := uri.toList
  let rest := cs.drop scheme.length
  let workspaceId := rest.take 36
  let sha := rest.drop 37
  if cs.take scheme.length = scheme ∧ workspaceId.length = 36 ∧
      (workspaceId.all fun c ↦ isHexDigit c || c = '-') ∧ rest.getD 36 ' ' = '/' ∧
      sha.length = 64 ∧ sha.all isHexDigit then
    some (String.ofList workspaceId, String.ofList sha)
  else none

namespace Storage

/-- `read`, which verifies the checksum before it returns the bytes. -/
def read (s : Storage) (uri expected : String) : Except StorageError Bytes :=
  match parseStorageUri uri with
  | none => .error .pathInvalid
  | some (workspaceId, sha) =>
    match s workspaceId sha with
    | none => .error .missing
    | some bytes =>
      if Sha256.hexDigest bytes = expected then .ok bytes else .error .checksumMismatch

/-- `verify` -/
def verify (s : Storage) (uri expected : String) : Option StorageError :=
  match s.read uri expected with
  | .ok _ => none
  | .error e => some e

/-- `write`: a file that exists is left as it is. -/
def write (s : Storage) (workspaceId : String) (content : Bytes) : Storage :=
  let sha := Sha256.hexDigest content
  match s workspaceId sha with
  | some _ => s
  | none => Function.update s workspaceId (Function.update (s workspaceId) sha (some content))

end Storage

/-! ## Rows -/

inductive ArtifactStatus where
  | registered
  | verified
  | quarantined
  | archived
deriving DecidableEq

/-- The scope `artifact:register` or `artifact:verify`. -/
inductive Operation where
  | register
  | verify
deriving DecidableEq

/-- The identity under which the store has an Event. -/
structure EventKey where
  workspaceId : String
  actorAccountId : String
  operation : Operation
  idempotencyKey : String
deriving DecidableEq

/-- `ARTIFACT_REGISTERED`, `ARTIFACT_QUARANTINED` and `ARTIFACT_VERIFIED` with their payloads; the
first entry is the aggregate. -/
inductive ArtifactEvent where
  | registered (artifactId sha256 : String) (size : ℤ) (mime filename : String)
  | quarantined (artifactId reasonCode : String)
  | verified (artifactId sha256 : String)
deriving DecidableEq

def ArtifactEvent.artifactId : ArtifactEvent → String
  | registered artifactId .. => artifactId
  | quarantined artifactId _ => artifactId
  | verified artifactId _ => artifactId

/-- A row of `artifacts`. -/
structure ArtifactRow where
  artifactId : String
  workspaceId : String
  creatorAccountId : String
  storageUri : String
  mime : String
  size : ℤ
  sha256 : String
  readers : List String
  status : ArtifactStatus
  sourceEventId : EventKey

/-- A row of `artifact_quarantine`. -/
structure QuarantineRow where
  artifactId : String
  workspaceId : String
  reasonCode : String
  detail : Option String
  scannedAt : Time
  releasedBy : Option String
  releasedAt : Option Time
  releaseReason : Option String

/-- `QuarantineRecord.open` -/
def QuarantineRow.Open (q : QuarantineRow) : Prop := q.releasedAt = none

instance (q : QuarantineRow) : Decidable q.Open := by
  unfold QuarantineRow.Open
  infer_instance

/-- A row of `artifact_links`. -/
structure LinkRow where
  artifactId : String
  subjectType : String
  subjectId : String
  relation : String
  linkedBy : String

inductive Verdict where
  | clean
  | infected
  | error
deriving DecidableEq

/-- What `report_for` returns. -/
structure ScanReport where
  verdict : Verdict
  reasonCode : Option String
  detail : Option String

/-- What `ArtifactStorage.scan` returns. -/
structure ScanResult where
  clean : Bool
  reasonCode : Option String

/-! ## Requests -/

/-- What the context of a command says about its caller. -/
structure Context where
  workspaceId : String
  accountId : String
  idempotencyKey : String
  expectedSeq : Option ℤ

def Context.eventKey (c : Context) (operation : Operation) : EventKey :=
  ⟨c.workspaceId, c.accountId, operation, c.idempotencyKey⟩

/-- The identity of the artifact that is registered under a key. -/
def EventKey.artifactId (k : EventKey) : String :=
  let seed := k.workspaceId ++ "|" ++ k.actorAccountId ++ "|artifact:register|" ++ k.idempotencyKey
  "art-" ++ String.ofList ((Sha256.hexDigest seed.toUTF8.toList).toList.take 20)

/-- `RegisterArtifact` -/
structure RegisterArtifact where
  filename : String
  mime : String
  content : Option Bytes
  storageUri : Option String
  sha256 : Option String
  size : Option ℤ
  readers : List String

/-- `LinkArtifact`, with what the handler of the subject answers. -/
structure LinkArtifact where
  artifactId : String
  subjectType : String
  subjectId : String
  relation : String
  subjectExists : Bool

structure Upload where
  filename : String
  mime : String
  content : Bytes
  /-- The type, the identity, the relation and the existence of the subject. -/
  subject : Option (String × String × String × Bool)
  report : ScanReport

abbrev SubjectAcl := String → String → List String

/-! ## The tables -/

/-- The tables and the files. The last three fields are not stored: `held` are the artifacts that
have been quarantined and not released since, `leaks` is what a read path has returned of one of
them, and `again` are those that the replay of an upload has quarantined after their release. -/
structure World where
  artifacts : List ArtifactRow
  ledger : List QuarantineRow
  events : List (EventKey × ArtifactEvent)
  links : List LinkRow
  files : Storage
  held : List String
  leaks : List (String × Bytes)
  again : List String

def World.start : World := ⟨[], [], [], [], fun _ _ ↦ none, [], [], []⟩

/-- `update artifacts set status = … where artifact_id = …` -/
def markRow (artifactId : String) (status : ArtifactStatus) (a : ArtifactRow) : ArtifactRow :=
  if a.artifactId = artifactId then { a with status := status } else a

namespace World

/-- `get_artifact` -/
def getArtifact (w : World) (workspaceId artifactId : String) : Option ArtifactRow :=
  w.artifacts.find? fun a ↦ a.artifactId = artifactId ∧ a.workspaceId = workspaceId

def setStatus (w : World) (artifactId : String) (status : ArtifactStatus) : World :=
  { w with artifacts := w.artifacts.map (markRow artifactId status) }

/-- The append of a command says whether it is a replay. `none` is an `IDEMPOTENCY_CONFLICT` or a
`SEQUENCE_CONFLICT`. -/
def append (w : World) (c : Context) (operation : Operation) (e : ArtifactEvent) :
    Option (World × Bool) :=
  match w.events.lookup (c.eventKey operation) with
  | some prior => if prior = e then some (w, true) else none
  | none =>
    -- an aggregate has the Events of its artifact in one workspace
    let seq := (w.events.filter fun x ↦
      x.1.workspaceId = c.workspaceId ∧ x.2.artifactId = e.artifactId).length + 1
    if c.expectedSeq.all (· = (seq : ℤ)) then
      some ({ w with events := w.events ++ [(c.eventKey operation, e)] }, false)
    else none

/-- The digest matches the pattern of the code and the check of the table. -/
def IsSha256 (sha : String) : Prop := sha.toList.length = 64 ∧ sha.toList.all isHexDigit

instance (sha : String) : Decidable (IsSha256 sha) := by
  unfold IsSha256
  infer_instance

/-- Where `register_artifact` finds the bytes: the file that it writes, or the one that it is told
of. -/
def blobOf (c : Context) (q : RegisterArtifact) : Option (String × String × ℤ) :=
  match q.content with
  | some content =>
    let sha := Sha256.hexDigest content
    some (storageUriFor c.workspaceId sha, sha, content.length)
  | none =>
    match q.storageUri, q.sha256, q.size with
    | some uri, some sha, some size =>
      if uri ≠ "" ∧ IsSha256 sha ∧ 0 ≤ size then some (uri, sha, size) else none
    | _, _, _ => none

/-- `register_artifact` returns the identity of the artifact, and whether it is a replay. -/
def registerArtifact (w : World) (c : Context) (q : RegisterArtifact) :
    Option (World × String × Bool) := do
  let (uri, sha, size) ← blobOf c q
  let w := match q.content with
    | some content => { w with files := w.files.write c.workspaceId content }
    | none => w
  let key := c.eventKey .register
  let (w, replayed) ← w.append c .register (.registered key.artifactId sha size q.mime q.filename)
  if replayed then
    -- the row of an Event is written in its transaction, so there is one
    let prior ← w.artifacts.find? (·.sourceEventId = key)
    return (w, prior.artifactId, true)
  -- the identity is unique in the table
  guard (key.artifactId ∉ w.artifacts.map ArtifactRow.artifactId)
  let row : ArtifactRow :=
    { artifactId := key.artifactId, workspaceId := c.workspaceId, creatorAccountId := c.accountId
      storageUri := uri, mime := q.mime, size := size, sha256 := sha, readers := q.readers
      status := .registered, sourceEventId := key }
  return ({ w with artifacts := w.artifacts ++ [row] }, key.artifactId, false)

/-- The row that `quarantine` writes. -/
def quarantineRow (workspaceId artifactId reasonCode : String) (detail : Option String)
    (now : Time) : QuarantineRow where
  artifactId := artifactId
  workspaceId := workspaceId
  reasonCode := reasonCode
  detail := (detail.map fun d ↦ String.ofList (d.toList.take 200)).filter (· ≠ "")
  scannedAt := now
  releasedBy := none
  releasedAt := none
  releaseReason := none

/-- `insert … on conflict (artifact_id) do update`, which keeps the workspace of the row. -/
def upsert (ledger : List QuarantineRow) (q : QuarantineRow) : List QuarantineRow :=
  if q.artifactId ∈ ledger.map QuarantineRow.artifactId then
    ledger.map fun r ↦
      if r.artifactId = q.artifactId then { q with workspaceId := r.workspaceId } else r
  else ledger ++ [q]

def hold (w : World) (artifactId : String) : World :=
  { w with held := if artifactId ∈ w.held then w.held else w.held ++ [artifactId] }

/-- `quarantine` -/
def quarantine (w : World) (workspaceId artifactId reasonCode : String) (detail : Option String)
    (now : Time) : World :=
  let w := (w.setStatus artifactId .quarantined).hold artifactId
  { w with ledger := upsert w.ledger (quarantineRow workspaceId artifactId reasonCode detail now) }

/-- A row that `release` updates. -/
def Releases (workspaceId artifactId : String) (q : QuarantineRow) : Prop :=
  q.artifactId = artifactId ∧ q.workspaceId = workspaceId ∧ q.Open

instance (workspaceId artifactId : String) (q : QuarantineRow) :
    Decidable (Releases workspaceId artifactId q) := by
  unfold Releases
  infer_instance

/-- The update of `release`. -/
def releaseRow (workspaceId artifactId releasedBy reason : String) (now : Time)
    (q : QuarantineRow) : QuarantineRow :=
  if Releases workspaceId artifactId q then
    { q with
      releasedBy := some releasedBy
      releasedAt := some now
      releaseReason := some reason }
  else q

/-- `release` -/
def release (w : World) (workspaceId artifactId releasedBy reason : String) (now : Time) :
    Option World :=
  if ∃ q ∈ w.ledger, Releases workspaceId artifactId q then
    let w := w.setStatus artifactId .registered
    some { w with
      held := w.held.filter (· ≠ artifactId)
      ledger := w.ledger.map (releaseRow workspaceId artifactId releasedBy reason now) }
  else none

/-- `link_artifact_cmd`, with `link_artifact`. -/
def linkArtifact (w : World) (c : Context) (q : LinkArtifact) : Option World := do
  let record ← w.getArtifact c.workspaceId q.artifactId
  guard (record.status ≠ .quarantined)
  guard (q.subjectType ∈ ["task", "schedule_run", "brainstorm", "decision"])
  guard (q.relation ≠ "" ∧ q.relation.length ≤ 64)
  guard q.subjectExists
  let row : LinkRow := ⟨q.artifactId, q.subjectType, q.subjectId, q.relation, c.accountId⟩
  guard (∀ l ∈ w.links, ¬(l.artifactId = q.artifactId ∧ l.subjectType = q.subjectType ∧
    l.subjectId = q.subjectId ∧ l.relation = q.relation))
  return { w with links := w.links ++ [row] }

/-- The reason for which an upload quarantines its artifact: the readback of the stored bytes comes
first, then the scan. -/
def refusal (files : Storage) (uri sha : String) (report : ScanReport) :
    Option (String × Option String) :=
  match files.verify uri sha with
  | some e => some (e.code, some (e.detail uri))
  | none =>
    if report.verdict = .clean then none
    else
      let code := report.reasonCode.filter (· ≠ "")
      some (code.getD "ARTIFACT_MALWARE", report.detail)

/-- `upload`, after `store_upload` has admitted the bytes. -/
def upload (w : World) (c : Context) (u : Upload) (now : Time) : Option World := do
  let sha := Sha256.hexDigest u.content
  let uri := storageUriFor c.workspaceId sha
  let w := { w with files := w.files.write c.workspaceId u.content }
  let (w, artifactId, replayed) ← w.registerArtifact { c with expectedSeq := none }
    { filename := u.filename, mime := u.mime, content := none, storageUri := some uri
      sha256 := some sha, size := some u.content.length, readers := [] }
  match refusal w.files uri sha u.report with
  | some (reason, detail) =>
    let released := w.ledger.any fun q ↦ q.artifactId = artifactId ∧ ¬q.Open
    let w := w.quarantine c.workspaceId artifactId reason detail now
    return { w with again := if replayed && released then w.again ++ [artifactId] else w.again }
  | none =>
    match u.subject with
    | none => return w
    | some (subjectType, subjectId, relation, subjectExists) =>
      if subjectType = "" ∨ subjectId = "" then return w
      w.linkArtifact c ⟨artifactId, subjectType, subjectId, relation, subjectExists⟩

/-- What the checks of `verify_artifact` say: the code of the quarantine, if any. A path that is not
valid refuses the command. -/
def checked (files : Storage) (a : ArtifactRow) (scan : ScanResult) : Option (Option String) :=
  match files.verify a.storageUri a.sha256 with
  | some .pathInvalid => none
  | some e => some (some e.code)
  | none => if scan.clean then some none else some (some ((scan.reasonCode.filter (· ≠ "")).getD
      "MALWARE"))

/-- `verify_artifact` -/
def verifyArtifact (w : World) (c : Context) (artifactId : String) (scan : ScanResult) :
    Option World := do
  let record ← w.getArtifact c.workspaceId artifactId
  guard (record.status ≠ .archived)
  match ← checked w.files record scan with
  | some reason =>
    let (w, _) ← w.append c .verify (.quarantined record.artifactId reason)
    return (w.setStatus record.artifactId .quarantined).hold record.artifactId
  | none =>
    let (w, _) ← w.append c .verify (.verified record.artifactId record.sha256)
    return w.setStatus record.artifactId .verified

/-- `archive_artifact` -/
def archiveArtifact (w : World) (c : Context) (artifactId : String) : Option World := do
  let record ← w.getArtifact c.workspaceId artifactId
  return if record.status ≠ .archived then w.setStatus record.artifactId .archived else w

/-- `can_read`, with `linked_readers`. -/
def CanRead (w : World) (a : ArtifactRow) (account : String) (workspaceAdmin : Bool)
    (acl : SubjectAcl) : Prop :=
  workspaceAdmin ∨ account = a.creatorAccountId ∨ account ∈ a.readers ∨
    ∃ l ∈ w.links, l.artifactId = a.artifactId ∧ account ∈ acl l.subjectType l.subjectId

instance (w : World) (a : ArtifactRow) (account : String) (workspaceAdmin : Bool)
    (acl : SubjectAcl) : Decidable (w.CanRead a account workspaceAdmin acl) := by
  unfold CanRead
  infer_instance

/-- The bytes that a read path returns, when the artifact is held. -/
def leak (w : World) (a : ArtifactRow) (bytes : Bytes) : World :=
  { w with leaks := if a.artifactId ∈ w.held then w.leaks ++ [(a.artifactId, bytes)] else w.leaks }

/-- `content` -/
def content (w : World) (c : Context) (artifactId : String) (acl : SubjectAcl) : Option World := do
  let record ← w.getArtifact c.workspaceId artifactId
  guard (w.CanRead record c.accountId false acl)
  guard (record.status ≠ .quarantined)
  let bytes ← (w.files.read record.storageUri record.sha256).toOption
  return w.leak record bytes

/-- `read_artifact` -/
def readArtifact (w : World) (c : Context) (artifactId : String)
    (withContent workspaceAdmin : Bool) (acl : SubjectAcl) : Option World := do
  let record ← w.getArtifact c.workspaceId artifactId
  guard (w.CanRead record c.accountId workspaceAdmin acl)
  if withContent then
    let bytes ← (w.files.read record.storageUri record.sha256).toOption
    return w.leak record bytes
  return w

end World

/-! ## Steps -/

inductive Label where
  | upload (c : Context) (u : Upload) (now : Time)
  | register (c : Context) (q : RegisterArtifact)
  | verify (c : Context) (artifactId : String) (scan : ScanResult)
  | link (c : Context) (q : LinkArtifact)
  | archive (c : Context) (artifactId : String)
  | release (c : Context) (artifactId reason : String) (now : Time)
  | content (c : Context) (artifactId : String) (acl : SubjectAcl)
  | readArtifact (c : Context) (artifactId : String) (withContent workspaceAdmin : Bool)
      (acl : SubjectAcl)
  /-- The files change under the application. -/
  | disk (files : Storage)

/-- A request that is refused is rolled back and is no step. -/
def World.step (w : World) : Label → Option World
  | .upload c u now => w.upload c u now
  | .register c q => (w.registerArtifact c q).map Prod.fst
  | .verify c artifactId scan => w.verifyArtifact c artifactId scan
  | .link c q => w.linkArtifact c q
  | .archive c artifactId => w.archiveArtifact c artifactId
  | .release c artifactId reason now =>
    if 1 ≤ reason.length ∧ reason.length ≤ 200 then
      w.release c.workspaceId artifactId c.accountId reason now
    else none
  | .content c artifactId acl => w.content c artifactId acl
  | .readArtifact c artifactId withContent workspaceAdmin acl =>
    w.readArtifact c artifactId withContent workspaceAdmin acl
  | .disk files => some { w with files := files }

/-- The states that are reached by steps that all meet a condition. -/
inductive Run (C : World → Label → Prop) : World → List Label → World → Prop
  | nil (w) : Run C w [] w
  | cons {w w₁ w' : World} {l : Label} {ls : List Label} :
      w.step l = some w₁ → C w l → Run C w₁ ls w' → Run C w (l :: ls) w'

/-! ## What is promised -/

/-- An artifact that is held is quarantined and nothing has returned its bytes; the quarantined
artifacts are those with an open row, and each of them can be released in its workspace; no replay
has quarantined an artifact that had been released. -/
structure Kept (w : World) : Prop where
  unread : w.leaks = []
  stays : ∀ id ∈ w.held, ∃ a ∈ w.artifacts, a.artifactId = id ∧ a.status = .quarantined
  listed : ∀ a ∈ w.artifacts, a.status = .quarantined ↔
    ∃ q ∈ w.ledger, q.artifactId = a.artifactId ∧ q.Open
  releasable : ∀ a ∈ w.artifacts, a.status = .quarantined → ∀ c : Context,
    c.workspaceId = a.workspaceId → ∀ reason : String, 1 ≤ reason.length → reason.length ≤ 200 →
      ∀ now, (w.step (.release c a.artifactId reason now)).isSome
  final : w.again = []

/-- The replay of an upload onto an artifact that has been released finds nothing to quarantine it
for. -/
def World.ReplaysWell (w : World) (c : Context) (u : Upload) : Prop :=
  let sha := Sha256.hexDigest u.content
  refusal (w.files.write c.workspaceId u.content) (storageUriFor c.workspaceId sha) sha
      u.report = none ∨ ∀ a ∈ w.artifacts, a.sourceEventId = c.eventKey .register →
      ∀ q ∈ w.ledger, q.artifactId = a.artifactId → q.Open

/-- The condition under which quarantine holds. A verification finds that what is quarantined is
still to be quarantined, and nothing else to be; nobody archives a quarantined artifact or reads its
content through the query, unless its bytes are gone. -/
def Careful (w : World) : Label → Prop
  | .upload c u _ => w.ReplaysWell c u
  | .verify c artifactId scan => ∀ a ∈ w.artifacts, a.artifactId = artifactId →
      a.workspaceId = c.workspaceId → a.status ≠ .archived →
        ∀ outcome ∈ World.checked w.files a scan, a.status = .quarantined ↔ outcome.isSome
  | .archive c artifactId => ∀ a ∈ w.artifacts, a.artifactId = artifactId →
      a.workspaceId = c.workspaceId → a.status ≠ .quarantined
  | .readArtifact c artifactId withContent _ _ => withContent = true →
      ∀ a ∈ w.artifacts, a.artifactId = artifactId → a.workspaceId = c.workspaceId →
        a.status = .quarantined → w.files.verify a.storageUri a.sha256 ≠ none
  | _ => True

instance (w : World) (c : Context) (u : Upload) : Decidable (w.ReplaysWell c u) := by
  unfold World.ReplaysWell
  infer_instance

instance (w : World) (l : Label) : Decidable (Careful w l) := by
  cases l <;> unfold Careful <;> infer_instance

/-- The run of a list of requests that all meet a condition. -/
def World.runLabels (C : World → Label → Prop) [∀ w l, Decidable (C w l)] (w : World) :
    List Label → Option World
  | [] => some w
  | l :: ls => if C w l then (w.step l).bind fun w₁ ↦ w₁.runLabels C ls else none

theorem World.run_of_runLabels {C : World → Label → Prop} [∀ w l, Decidable (C w l)]
    {ls : List Label} {w w' : World} (h : w.runLabels C ls = some w') : Run C w ls w' :=
  related_of_run h (fun _ ↦ rfl) (fun _ _ _ ↦ rfl) .nil .cons

end AgentColab.Artifacts
