import AgentColab.Schedules.Contract
import AgentColab.Tasks.Graph
import AgentColab.Transaction.Serial
import AgentColab.Verification.Run

/-!
# The statements of the Task and verification commands

The tables are those of one Workspace. A refusal that rests on the rows of another Workspace is a
refusal of the environment.

Appending an Event is one statement: it takes the lock of the stream, looks for a replay, compares
the expected number, checks the contract and inserts. The number that the statement gets is also the
place of the Event in the recorded order.
-/

namespace AgentColab.Tasks

open AgentColab Transaction Verification

structure CommandError where
  code : String
  detail : String
  status : ℕ := 400

/-! ## Rows -/

/-- A row of `tasks_projection`, without its key. The policy snapshot holds the active verification
and nothing else. -/
structure TaskRow where
  workspaceId : Option String
  rootTaskId : String
  parentTaskId : Option String
  channelId : Option String
  title : String
  domain : String
  risk : String
  status : TaskStatus
  verificationStatus : Option VerificationStatus
  assigneeAccountId : Option String
  delegatedBy : Option String
  delegationDepth : ℤ
  joinPolicy : JoinPolicy
  activeVerificationId : Option String
  policySnapshotHash : Option String
  criteriaRevision : ℤ
  latestProgress : Option String
  lastEventId : Option String
  lastAggregateSeq : ℕ
  createdAt : Time
  updatedAt : Time
deriving DecidableEq

/-- `ON CONFLICT (task_id) DO UPDATE` sets the columns that change. -/
def TaskRow.merge (old new : TaskRow) : TaskRow :=
  { new with
    workspaceId := old.workspaceId
    rootTaskId := old.rootTaskId
    parentTaskId := old.parentTaskId
    channelId := old.channelId
    title := old.title
    domain := old.domain
    risk := old.risk
    createdAt := old.createdAt }

/-- A row of `task_edges`. -/
structure Edge where
  childTaskId : String
  parentTaskId : String
  rootTaskId : String
  depth : ℤ
  createdEventId : String

/-- A row of `verification_runs`. -/
structure VerificationRun where
  verificationId : String
  targetType : String
  targetId : String
  taskId : Option String
  implementerAccountId : String
  verifierAccountId : String
  implementerCredentialFingerprint : String
  verifierCredentialFingerprint : String
  status : Verification.VerificationStatus := .planned
  currentRevision : ℕ := 0
  result : Option Verdict := none

/-- Of a row of `schedule_runs`, its Task and its status. -/
structure ScheduleRun where
  runId : String
  taskId : Option String
  status : Schedules.RunStatus
deriving DecidableEq

structure TaskTables where
  /-- The Events on Task, criteria and verification aggregates. -/
  events : List Event := []
  rows : String → Option TaskRow := fun _ ↦ none
  edges : List Edge := []
  verificationRuns : String → Option VerificationRun := fun _ ↦ none
  scheduleRuns : List ScheduleRun := []

/-! ## Changes -/

inductive TaskWrite where
  | insertEvent (event : Event)
  | upsertRow (taskId : String) (row : TaskRow)
  | insertEdge (edge : Edge)
  | insertRun (run : VerificationRun)
  | setRunStatus (verificationId : String) (status : Verification.VerificationStatus)
  | setRunResult (verificationId : String) (revision : ℕ) (result : Verdict)
  | setScheduleRunStatus (runId : String) (status : Schedules.RunStatus)
  | setScheduleRuns (runs : List ScheduleRun)

namespace TaskTables

def apply (db : TaskTables) : TaskWrite → TaskTables
  | .insertEvent event => { db with events := db.events ++ [event] }
  | .upsertRow t row =>
    { db with
      rows := Function.update db.rows t
        (some (((db.rows t).map fun old ↦ old.merge row).getD row)) }
  | .insertEdge edge => { db with edges := db.edges ++ [edge] }
  | .insertRun run =>
    { db with
      verificationRuns := Function.update db.verificationRuns run.verificationId (some run) }
  | .setRunStatus vid status =>
    { db with
      verificationRuns := Function.update db.verificationRuns vid
        ((db.verificationRuns vid).map fun run ↦ { run with status := status }) }
  | .setRunResult vid revision result =>
    { db with
      verificationRuns := Function.update db.verificationRuns vid
        ((db.verificationRuns vid).map fun run ↦
          { run with status := result.status, currentRevision := revision, result := some result }) }
  | .setScheduleRunStatus rid status =>
    { db with
      scheduleRuns := db.scheduleRuns.map fun run ↦
        if run.runId = rid then { run with status := status } else run }
  | .setScheduleRuns runs => { db with scheduleRuns := runs }

/-- `stream` -/
def stream (db : TaskTables) (aggregateType aggregateId : String) : List Event :=
  db.events.filter fun e ↦ e.aggregateType = aggregateType ∧ e.aggregateId = aggregateId

def parentOf (db : TaskTables) (child : String) : Option String :=
  (db.edges.find? (·.childTaskId = child)).map (·.parentTaskId)

/-- `children_of`; a child without a row counts as open. -/
def childrenOf (db : TaskTables) (parent : String) : List ChildView :=
  ((db.edges.filter (·.parentTaskId = parent)).map fun e ↦
      (⟨e.childTaskId, (db.rows e.childTaskId).elim .open' (·.status)⟩ : ChildView)).insertionSort
    fun a b ↦ a.taskId ≤ b.taskId

end TaskTables

inductive TaskLock where
  | stream (aggregateType aggregateId : String)
  | idempotency (accountUuid scope key : String)
  | row (taskId : String)
  | edge (childTaskId : String)
  | verificationRun (verificationId : String)
  | scheduleRuns
deriving DecidableEq

def TaskWrite.keys : TaskWrite → List TaskLock
  | insertEvent e => [.stream e.aggregateType e.aggregateId,
      .idempotency e.actorAccountId e.idempotencyScope e.idempotencyKey]
  | upsertRow t _ => [.row t]
  | insertEdge e => [.edge e.childTaskId]
  | insertRun run => [.verificationRun run.verificationId]
  | setRunStatus vid _ => [.verificationRun vid]
  | setRunResult vid _ _ => [.verificationRun vid]
  | setScheduleRunStatus _ _ => [.scheduleRuns]
  | setScheduleRuns _ => [.scheduleRuns]

/-! ## Statements -/

structure AppendRequest where
  aggregateType : String
  aggregateId : String
  type : EventType
  actorAccountId : String
  idempotencyScope : String
  idempotencyKey : String
  payload : Payload := {}
  channelId : Option String := none
  taskId : Option String := none
  causedBy : Option String := none
  expectedSeq : ℕ

/-- The Event is the one that the store finds under the id of the result. -/
structure AppendResult where
  event : Event
  replayed : Bool := false

inductive Op where
  | now
  /-- What another package decides or does here, such as a permission check or an insert into a
  table that no command reads. It may raise. -/
  | external (name : String)
  | accountUuid (accountId : String)
  | channelLimits (channelId : Option String)
  | stream (aggregateType aggregateId : String)
  | append (request : AppendRequest)
  | writeState (taskId : String) (row : TaskRow)
  | rowStatus (taskId : String)
  | parentOf (childTaskId : String)
  | childrenOf (parentTaskId : String)
  | insertEdge (edge : Edge)
  | loadRun (verificationId : String)
  | insertRun (run : VerificationRun)
  | setRunStatus (verificationId : String) (status : Verification.VerificationStatus)
  | setRunResult (verificationId : String) (revision : ℕ) (result : Verdict)
  | scheduleRunsFor (taskId : String)
  | setScheduleRunStatus (runId : String) (status : Schedules.RunStatus)
  /-- The scheduler at work. -/
  | setScheduleRuns (runs : List ScheduleRun)

abbrev Res : Op → Type
  | .now => Time
  | .external _ => Option CommandError
  | .accountUuid _ => Option String
  | .channelLimits _ => GraphLimits
  | .stream _ _ => List Event
  | .append _ => Except CommandError AppendResult
  | .writeState _ _ => Unit
  | .rowStatus _ => Option TaskStatus
  | .parentOf _ => Option String
  | .childrenOf _ => List ChildView
  | .insertEdge _ => Except CommandError Unit
  | .loadRun _ => Option VerificationRun
  | .insertRun _ => Except CommandError Unit
  | .setRunStatus _ _ => Unit
  | .setRunResult _ _ _ => Unit
  | .scheduleRunsFor _ => List ScheduleRun
  | .setScheduleRunStatus _ _ => Unit
  | .setScheduleRuns _ => Unit

/-- What the environment contributes to a statement. -/
structure TaskInput where
  now : Time := 0
  refusal : Option CommandError := none
  account : Option String := none
  /-- What the Event store raises besides a conflict. -/
  appendError : Option CommandError := none

abbrev Eff (R : Type) := Effect TaskWrite TaskLock R

def read {R : Type} (result : R) : Eff R := ⟨result, [], []⟩

/-- Whether an Event was recorded for the same actor, scope and key. -/
def Event.sameKey (e : Event) (r : AppendRequest) : Bool :=
  e.actorAccountId = r.actorAccountId && e.idempotencyScope = r.idempotencyScope &&
    e.idempotencyKey = r.idempotencyKey

def Event.sameBody (e : Event) (r : AppendRequest) : Bool :=
  e.aggregateType = r.aggregateType && e.aggregateId = r.aggregateId && e.type = r.type &&
    e.payload = r.payload && e.channelId = r.channelId && e.taskId = r.taskId &&
    e.causedBy = r.causedBy

/-- The `id_prefix` of an aggregate type. -/
def idPrefix : String → String
  | "verification_run" => "vr-"
  | _ => "task-"

/-- An Event has the time of the clock to the millisecond. -/
def newEvent (ws : String) (n : ℕ) (now : Time) (r : AppendRequest) (seq : ℕ) : Event where
  eventId := "evt-" ++ toString n
  workspaceId := ws
  aggregateType := r.aggregateType
  aggregateId := r.aggregateId
  aggregateSeq := seq
  recordedSeq := n
  type := r.type
  actorAccountId := r.actorAccountId
  idempotencyScope := r.idempotencyScope
  idempotencyKey := r.idempotencyKey
  channelId := r.channelId
  taskId := r.taskId
  causedBy := r.causedBy
  payload := r.payload
  occurredAt := now.millisecond * 1000

/-- The number that a stream expects next. -/
def nextSeq (events : List Event) : ℕ := (events.getLast?.elim 0 (·.aggregateSeq)) + 1

/-- `PostgresEventStore.append` -/
def execAppend (ws : String) (inp : TaskInput) (n : ℕ) (db : TaskTables) (r : AppendRequest) :
    Eff (Except CommandError AppendResult) :=
  let locks := [.stream r.aggregateType r.aggregateId,
    .idempotency r.actorAccountId r.idempotencyScope r.idempotencyKey]
  match db.events.find? (·.sameKey r) with
  | some prior =>
    if prior.sameBody r then ⟨.ok ⟨prior, true⟩, [], locks⟩
    else ⟨.error ⟨"IDEMPOTENCY_CONFLICT", "same idempotency key with a different body", 409⟩, [],
      locks⟩
  | none =>
    let next := nextSeq (db.stream r.aggregateType r.aggregateId)
    if r.expectedSeq ≠ next then
      ⟨.error ⟨"SEQUENCE_CONFLICT", s!"expected {r.expectedSeq}, next is {next}", 409⟩, [], locks⟩
    else if !(idPrefix r.aggregateType).toList.isPrefixOf r.aggregateId.toList then
      ⟨.error ⟨"AGGREGATE_ID_INVALID", "expected prefix " ++ idPrefix r.aggregateType, 422⟩, [],
        locks⟩
    else match inp.appendError with
      | some e => ⟨.error e, [], locks⟩
      | none => ⟨.ok ⟨newEvent ws n inp.now r next, false⟩,
        [.insertEvent (newEvent ws n inp.now r next)], locks⟩

/-- The trigger of `task_edges`: walk up from the new parent, for at most 64 steps. -/
def edgeTrigger (db : TaskTables) (child : String) : ℕ → Option String → Option CommandError
  | _, none => none
  | 0, some cur =>
    if cur = child then some ⟨"TASK_GRAPH_CYCLE", "TASK_GRAPH_CYCLE", 409⟩
    else some ⟨"TASK_GRAPH_CYCLE", "TASK_GRAPH_TOO_DEEP", 409⟩
  | fuel + 1, some cur =>
    if cur = child then some ⟨"TASK_GRAPH_CYCLE", "TASK_GRAPH_CYCLE", 409⟩
    else edgeTrigger db child fuel (db.parentOf cur)

/-- `link_subtask_edge`: the trigger, the checks of the table and its primary key. -/
def execInsertEdge (db : TaskTables) (edge : Edge) : Eff (Except CommandError Unit) :=
  match edgeTrigger db edge.childTaskId 64 (some edge.parentTaskId) with
  | some e => ⟨.error e, [], [.edge edge.childTaskId]⟩
  | none =>
    if edge.depth ≤ 0 ∨ edge.childTaskId = edge.parentTaskId ∨
        (db.parentOf edge.childTaskId).isSome then
      ⟨.error ⟨"TASK_EDGE_INVALID", "", 409⟩, [], [.edge edge.childTaskId]⟩
    else ⟨.ok (), [.insertEdge edge], [.edge edge.childTaskId]⟩

/-- The Workspace, the limits that the templates of its channels set, and the digests from which
ids are made: the hexadecimal digits of the SHA-256 of a text, and of the UUID of a URL. -/
structure Config where
  workspaceId : String
  limits : Option String → GraphLimits
  sha256 : String → String
  uuid5 : String → String

/-- The statement in the given view, with the nonce `n` and the environment's `inp`. -/
def execStatement (cfg : Config) (inp : TaskInput) (n : ℕ) (db : TaskTables) : (o : Op) → Eff (Res o)
  | .now => read inp.now
  | .external _ => read inp.refusal
  | .accountUuid _ => read inp.account
  | .channelLimits c => read (cfg.limits c)
  | .stream ty id => read (db.stream ty id)
  | .append r => execAppend cfg.workspaceId inp n db r
  | .writeState t row => ⟨(), [.upsertRow t row], [.row t]⟩
  | .rowStatus t => read ((db.rows t).map (·.status))
  | .parentOf child => read (db.parentOf child)
  | .childrenOf parent => read (db.childrenOf parent)
  | .insertEdge edge => execInsertEdge db edge
  | .loadRun vid => ⟨db.verificationRuns vid, [], [.verificationRun vid]⟩
  | .insertRun run =>
    if (db.verificationRuns run.verificationId).isSome then
      ⟨.error ⟨"VERIFIER_NOT_INDEPENDENT_DB", "verification_runs_verification_id_key", 409⟩, [],
        [.verificationRun run.verificationId]⟩
    else ⟨.ok (), [.insertRun run], [.verificationRun run.verificationId]⟩
  | .setRunStatus vid status => ⟨(), [.setRunStatus vid status], [.verificationRun vid]⟩
  | .setRunResult vid revision result =>
    ⟨(), [.setRunResult vid revision result], [.verificationRun vid]⟩
  | .scheduleRunsFor t => read (db.scheduleRuns.filter (·.taskId = some t))
  | .setScheduleRunStatus rid status => ⟨(), [.setScheduleRunStatus rid status], [.scheduleRuns]⟩
  | .setScheduleRuns runs => ⟨(), [.setScheduleRuns runs], [.scheduleRuns]⟩

theorem execStatement_locked (cfg : Config) (inp : TaskInput) (n : ℕ) (db : TaskTables) (o : Op) :
    ∀ x ∈ (execStatement cfg inp n db o).writes, ∀ k ∈ x.keys,
      k ∈ (execStatement cfg inp n db o).locks := by
  cases o with
  | append =>
    simp only [execStatement, execAppend]
    split
    · split_ifs <;> simp
    · split_ifs
      · simp
      · simp
      · split <;> simp [TaskWrite.keys, newEvent]
  | insertEdge =>
    simp only [execStatement, execInsertEdge]
    split
    · simp
    · split_ifs <;> simp [TaskWrite.keys]
  | insertRun =>
    simp only [execStatement]
    split_ifs <;> simp [TaskWrite.keys]
  | _ => simp [execStatement, read, TaskWrite.keys]

abbrev taskDatabase (cfg : Config) : Database Res where
  Store := TaskTables
  Write := TaskWrite
  Key := TaskLock
  Input := TaskInput
  decEqKey := inferInstance
  apply := TaskTables.apply
  keys := TaskWrite.keys
  exec inp n _ db o := execStatement cfg inp n db o
  locked inp n _ db o := execStatement_locked cfg inp n db o

/-- A body that runs inside the caller's transaction. -/
abbrev Body (α : Type) := Prog Res CommandError α

def ask (o : Op) : Body (Res o) := Prog.issue o

/-- Raise what a statement or a pure function raises. -/
def orRaise {α : Type} : Except CommandError α → Body α
  | .ok a => pure a
  | .error e => throw e

/-- Another package does its part, or raises. -/
def external (name : String) : Body Unit := do
  match ← ask (.external name) with
  | some e => throw e
  | none => pure ()

end AgentColab.Tasks
