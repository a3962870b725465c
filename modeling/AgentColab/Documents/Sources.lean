import AgentColab.Domain.Text
import AgentColab.Tasks.Task

/-!
# The sources of a Task document

A freeze is the highest number of an Event of the Task. The sources are collected from the Events up
to that number, and from the tables that belong to the Task as they are when they are read. Columns
that no section renders are left out.
-/

namespace AgentColab.Documents

open Tasks (TaskState TaskTransitionError)

/-! ## Rows -/

/-- An Event, with what only a document reads of it. -/
structure SourceEvent extends Tasks.Event where
  evidenceRefs : List String := []
  revision : Option ℤ := none
  sensitivePayloadKeyRef : Option String := none

def SourceEvent.Tagged (e : SourceEvent) (taskId : String) : Prop :=
  e.taskId = some taskId ∨ e.aggregateType = "task" ∧ e.aggregateId = taskId

instance (e : SourceEvent) (taskId : String) : Decidable (e.Tagged taskId) := by
  unfold SourceEvent.Tagged
  infer_instance

structure Channel where
  channelId : String
  channelType : String
  displayName : String
  externalChannelId : Option String
deriving DecidableEq

structure Assignment where
  taskId : String
  revision : ℤ
  delegator : String
  assignee : String
  reasonCode : String

structure Criterion where
  taskId : String
  criteriaId : String
  revision : ℤ
  statement : String
  checkType : String
  required : Bool

structure Artifact where
  artifactId : String
  mime : String
  size : ℤ
  sha256 : String
  status : String
deriving DecidableEq

structure ArtifactLink where
  artifactId : String
  subjectType : String
  subjectId : String
  relation : String

structure VerificationRun where
  verificationId : String
  targetType : String
  targetId : String
  implementer : String
  verifier : String
  snapshotHash : String

structure ReportedTest where
  id : Option String
  result : Option String
  evidenceRef : Option String

/-- `report` of a revision. -/
structure Report where
  tests : List ReportedTest
  residualRisks : List String

structure Revision where
  revisionId : String
  verificationId : String
  revision : ℤ
  result : String
  report : Report
  reportSha256 : String
  contentHash : String

structure Finding where
  findingId : String
  verificationId : String
  revision : ℤ
  severity : String
  summary : String

structure Usage where
  taskId : Option String
  agentId : Option String
  model : Option String
  inputTokens : ℤ
  outputTokens : ℤ
  toolCalls : ℤ
  wallMs : ℤ
  costUnits : ℤ
  source : String

/-- The tables that the sources are collected from. Accounts, channels, artifacts and keys are
addressed by their identities. -/
structure Tables where
  /-- The committed Events, in the order of their commits. -/
  events : List SourceEvent
  assignments : List Assignment
  criteria : List Criterion
  links : List ArtifactLink
  artifacts : String → Option Artifact
  runs : List VerificationRun
  revisions : List Revision
  findings : List Finding
  /-- In the order of `id`. -/
  usage : List Usage
  channels : String → Option Channel
  /-- The public id and the type. -/
  accounts : String → Option (String × String)
  /-- The status of a key. -/
  keys : String → Option String

structure SourceFreeze where
  taskId : String
  upToRecordedSeq : ℕ

/-- `freeze_for_task` -/
def Tables.freezeForTask (db : Tables) (taskId : String) : SourceFreeze where
  taskId := taskId
  upToRecordedSeq :=
    ((db.events.filter fun e ↦ e.Tagged taskId ∧ e.aggregateType ≠ "document").map
      fun e ↦ e.recordedSeq).foldl max 0

/-! ## Collecting -/

structure LinkedArtifact where
  artifact : Artifact
  relation : String

structure SourceRun where
  run : VerificationRun
  revisions : List Revision
  findings : List Finding

structure TaskSources where
  taskId : String
  workspaceId : String
  freeze : SourceFreeze
  events : List SourceEvent
  state : TaskState
  channel : Option Channel
  assignments : List Assignment
  criteria : List Criterion
  artifacts : List LinkedArtifact
  verifications : List SourceRun
  usage : List Usage
  accounts : String → Option String
  sensitiveKeys : String → Option String

inductive BuildError where
  /-- `DocumentBuildError` -/
  | document (code detail : String)
  | transition (e : TaskTransitionError)

namespace Tables

variable (db : Tables) (f : SourceFreeze)

def eventsOf : List SourceEvent :=
  (db.events.filter fun e ↦ e.Tagged f.taskId ∧ e.recordedSeq ≤ f.upToRecordedSeq).insertionSort
    fun a b ↦ a.recordedSeq ≤ b.recordedSeq

/-- `task_events` -/
def taskEvents (taskId : String) (events : List SourceEvent) : List SourceEvent :=
  events.filter fun e ↦ e.aggregateType = "task" ∧ e.aggregateId = taskId

/-- `verification_ids`: an empty one counts as absent. -/
def verificationIds (taskEvents : List SourceEvent) : List String :=
  (taskEvents.filter fun e ↦ e.type = .taskVerificationStarted).filterMap fun e ↦
    Tasks.orElse e.payload.verificationId none

/-- `merged` -/
def mergedEvents (taskId : String) (events : List SourceEvent) : List SourceEvent :=
  let taskEvents := taskEvents taskId events
  taskEvents ++ events.filter fun e ↦
    e.aggregateType = "verification_run" ∧ e.aggregateId ∈ verificationIds taskEvents

def assignmentsOf : List Assignment :=
  (db.assignments.filter fun a ↦ a.taskId = f.taskId).insertionSort fun a b ↦
    a.revision ≤ b.revision

/-- `ORDER BY` of a number and a text. -/
def textOrder (a b : ℤ × String) : Prop := a.1 < b.1 ∨ a.1 = b.1 ∧ a.2 ≤ b.2

instance (a b : ℤ × String) : Decidable (textOrder a b) := by
  unfold textOrder
  infer_instance

def criteriaOf : List Criterion :=
  (db.criteria.filter fun c ↦ c.taskId = f.taskId).insertionSort fun a b ↦
    textOrder (a.revision, a.criteriaId) (b.revision, b.criteriaId)

def linksOf : List ArtifactLink :=
  (db.links.filter fun l ↦ l.subjectType = "task" ∧ l.subjectId = f.taskId).insertionSort fun a b ↦
    a.artifactId < b.artifactId ∨ a.artifactId = b.artifactId ∧ a.relation ≤ b.relation

def artifactsOf : List LinkedArtifact :=
  (db.linksOf f).filterMap fun l ↦ (db.artifacts l.artifactId).map fun a ↦ ⟨a, l.relation⟩

/-- The runs whose target is the Task. -/
def runsOf : List VerificationRun :=
  (db.runs.filter fun r ↦ r.targetType = "task" ∧ r.targetId = f.taskId).insertionSort fun a b ↦
    a.verificationId ≤ b.verificationId

def revisionsOf (verificationId : String) : List Revision :=
  (db.revisions.filter fun r ↦ r.verificationId = verificationId).insertionSort fun a b ↦
    a.revision ≤ b.revision

def findingsOf (verificationId : String) : List Finding :=
  (db.findings.filter fun x ↦ x.verificationId = verificationId).insertionSort fun a b ↦
    textOrder (a.revision, a.findingId) (b.revision, b.findingId)

def verificationsOf : List SourceRun :=
  (db.runsOf f).map fun r ↦
    ⟨r, db.revisionsOf r.verificationId, db.findingsOf r.verificationId⟩

def usageOf : List Usage := db.usage.filter fun u ↦ u.taskId = some f.taskId

/-- `uuids`: the accounts that the sources refer to. -/
def uuidsOf : List String :=
  (db.eventsOf f).map (fun e ↦ e.actorAccountId) ++
    (db.assignmentsOf f).flatMap (fun a ↦ [a.delegator, a.assignee]) ++
    (db.runsOf f).flatMap fun r ↦ [r.implementer, r.verifier]

/-- `key_refs` -/
def keyRefsOf : List String :=
  (db.eventsOf f).filterMap fun e ↦ Tasks.orElse e.sensitivePayloadKeyRef none

/-- `src.accounts` -/
def accountsOf (uuid : String) : Option String :=
  if uuid ∈ db.uuidsOf f then (db.accounts uuid).map fun a ↦ a.1 ++ " (" ++ a.2 ++ ")" else none

/-- `src.sensitive_keys` -/
def sensitiveKeysOf (keyRef : String) : Option String :=
  if keyRef ∈ db.keyRefsOf f then db.keys keyRef else none

def stateOf : Except TaskTransitionError TaskState :=
  Tasks.fold f.taskId ((mergedEvents f.taskId (db.eventsOf f)).map SourceEvent.toEvent)

/-- `collect_task_sources` -/
def collectTaskSources : Except BuildError TaskSources :=
  match taskEvents f.taskId (db.eventsOf f) with
  | [] => .error (.document "TASK_NOT_FOUND" f.taskId)
  | first :: _ =>
    match db.stateOf f with
    | .error e => .error (.transition e)
    | .ok state => .ok {
        taskId := f.taskId
        workspaceId := first.workspaceId
        freeze := f
        events := db.eventsOf f
        state := state
        channel := (Tasks.orElse state.channelId none).bind db.channels
        assignments := db.assignmentsOf f
        criteria := db.criteriaOf f
        artifacts := db.artifactsOf f
        verifications := db.verificationsOf f
        usage := db.usageOf f
        accounts := db.accountsOf f
        sensitiveKeys := db.sensitiveKeysOf f }

end Tables

end AgentColab.Documents
