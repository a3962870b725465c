import AgentColab.Tasks.Statements

/-!
# Task commands

Every handler checks the permission, folds the state of its Task from the Event streams, validates,
appends one Event and writes the row of the projection. The row is never read back, except by the
hook that closes the Runs of a Schedule.

What belongs to other packages is an `external` statement: it may refuse, and changes no table that
a command reads.
-/

namespace AgentColab.Tasks

open AgentColab Transaction
open TaskStatus (terminal)

variable (cfg : Config)

/-- The caller of a command. -/
structure Context where
  accountUuid : String
  idempotencyKey : String
  policySnapshotHash : String

/-- The state that a command leaves, and the Event that it returned. -/
structure Answer where
  event : Event
  state : TaskState
  replayed : Bool

/-- `_new_task_id` -/
def newTaskId (ctx : Context) (scope : String) : String :=
  "task-" ++ ((cfg.sha256 (cfg.workspaceId ++ "|" ++ ctx.accountUuid ++ "|" ++ scope ++ "|" ++
    ctx.idempotencyKey)).take 16).toString

/-- `CommandError(exc.code, exc.detail, status=409)` -/
def conflict (e : TaskTransitionError) : CommandError := ⟨e.code, e.detail, 409⟩

/-- Fold the Task from its stream and its verifications. A run that was started twice is read twice.
-/
def loadTask (taskId : String) : Body TaskState := do
  let events ← ask (.stream "task" taskId)
  if events.isEmpty then throw ⟨"TASK_NOT_FOUND", taskId, 404⟩
  else
  let vids := (events.filter (·.type = .taskVerificationStarted)).filterMap
    (orElse ·.payload.verificationId none)
  let results ← Prog.collect vids fun vid ↦ do
    return (← ask (.stream "verification_run" vid)).filter (·.taskId = some taskId)
  orRaise ((fold taskId (events ++ results.flatten)).mapError conflict)

/-- The Event that this command has already produced. -/
def replayFromStream (ctx : Context) (taskId scope : String) : Body (Option Event) := do
  return (← ask (.stream "task" taskId)).find? fun e ↦
    e.idempotencyScope = scope && e.idempotencyKey = ctx.idempotencyKey &&
      e.actorAccountId = ctx.accountUuid

/-- `_append` -/
def append (r : AppendRequest) : Body AppendResult := do
  orRaise (← ask (.append r))

/-- The row that `write_state` writes. -/
def rowOf (state : TaskState) (occurredAt : Time) : TaskRow where
  workspaceId := orElse state.workspaceId none
  rootTaskId := (orElse state.rootTaskId none).getD state.taskId
  parentTaskId := state.parentTaskId
  channelId := orElse state.channelId none
  title := state.title
  domain := state.domain
  risk := state.risk
  status := state.status
  verificationStatus := state.verificationStatus
  assigneeAccountId := orElse state.assigneeAccountId none
  delegatedBy := orElse state.delegatedBy none
  delegationDepth := state.delegationDepth
  joinPolicy := state.joinPolicy
  activeVerificationId := state.activeVerificationId
  policySnapshotHash := state.policySnapshotHash
  criteriaRevision := state.criteriaRevision
  latestProgress := state.latestProgress
  lastEventId := state.lastEventId
  lastAggregateSeq := state.lastAggregateSeq
  createdAt := state.createdAt.getD occurredAt
  updatedAt := occurredAt

def writeState (state : TaskState) (occurredAt : Time) : Body Unit :=
  ask (.writeState state.taskId (rowOf state occurredAt))

/-! ## The hook of the Schedules -/

/-- `TERMINAL_TASK_STATES`; no Task has the status `FAILED`. -/
def terminalTaskStates : List TaskStatus := [.completed, .cancelled, .verified]

/-- `TASK_SUCCESS_STATES` -/
def taskSuccessStates : List TaskStatus := [.completed, .verified]

/-- `_set` -/
def setScheduleRun (run : ScheduleRun) (target : Schedules.RunStatus) : Body ScheduleRun := do
  match Schedules.runTransition run.status target with
  | .error e => throw ⟨e.code, e.detail, 409⟩
  | .ok _ =>
    ask (.setScheduleRunStatus run.runId target)
    return { run with status := target }

/-- The body of the loop of `on_task_terminal`. The branch for a requested cancellation is never
reached. -/
def closeScheduleRun (taskStatus : TaskStatus) (run : ScheduleRun) : Body Unit := do
  if run.status ∉ Schedules.RunStatus.runningStatuses then pure ()
  else if run.status = .cancelRequested then
    let _ ← setScheduleRun run .cancelled
    external "cleanup"
  else
    let run ← if run.status = .taskCreated then setScheduleRun run .running else pure run
    let _ ← setScheduleRun run (if taskStatus ∈ taskSuccessStates then .succeeded else .failed)
    external "cleanup"

/-- `_terminal_hook` with `on_task_terminal`. The status is that of the row, as it is then. -/
def terminalHook (taskId : String) : Body Unit := do
  match ← ask (.rowStatus taskId) with
  | none => pure ()
  | some status =>
    if status ∉ terminalTaskStates then pure ()
    else Prog.forEach (← ask (.scheduleRunsFor taskId)) (closeScheduleRun status)

/-! ## Transitions -/

/-- The request to append an Event to the stream of the Task. -/
def taskRequest (ctx : Context) (scope : String) (state : TaskState) (etype : EventType)
    (payload : Payload) : AppendRequest where
  aggregateType := "task"
  aggregateId := state.taskId
  type := etype
  actorAccountId := ctx.accountUuid
  idempotencyScope := scope
  idempotencyKey := ctx.idempotencyKey
  payload := payload
  channelId := state.channelId
  taskId := some state.taskId
  causedBy := state.lastEventId
  expectedSeq := state.lastAggregateSeq + 1

/-- `_transition` -/
def transition (ctx : Context) (scope : String) (state : TaskState) (etype : EventType)
    (payload : Payload) : Body Answer := do
  match ← replayFromStream ctx state.taskId scope with
  | some prior => return ⟨prior, state, true⟩
  | none =>
    let status ← orRaise ((nextStatus state.status etype).mapError conflict)
    let res ← append (taskRequest ctx scope state etype payload)
    if res.replayed then return ⟨res.event, state, true⟩
    else
    let state ← orRaise ((applyEvent state res.event).mapError conflict)
    let state := { state with status := status }
    if status ∈ terminal then terminalHook state.taskId
    writeState state res.event.occurredAt
    return ⟨res.event, state, false⟩

/-! ## Joins -/

/-- `record_join_if_satisfied` -/
def recordJoinIfSatisfied (ctx : Context) (parentTaskId : String) : Body Unit := do
  let parent ← loadTask parentTaskId
  if !parent.exists' then pure ()
  else
  let children ← ask (.childrenOf parent.taskId)
  let result ← orRaise ((evaluateJoin parent.joinPolicy children).mapError
    fun e ↦ ⟨e.code, e.detail, 500⟩)
  if !result.satisfied || parent.joinSatisfied then pure ()
  else
  match ← ask (.append {
      aggregateType := "task"
      aggregateId := parent.taskId
      type := .taskJoinSatisfied
      actorAccountId := ctx.accountUuid
      idempotencyScope := "task:join"
      idempotencyKey := "join:" ++ parent.taskId
      payload := { satisfiedChildren := some result.satisfiedChildren }
      channelId := parent.channelId
      taskId := some parent.taskId
      causedBy := parent.lastEventId
      expectedSeq := parent.lastAggregateSeq + 1 }) with
  | .error e => if e.code = "IDEMPOTENCY_CONFLICT" then pure () else throw e
  | .ok _ =>
    let now ← ask .now
    let parent ← loadTask parentTaskId
    writeState parent now

def onChildTerminal (ctx : Context) (child : TaskState) : Body Unit :=
  match orElse child.parentTaskId none with
  | none => pure ()
  | some parent => recordJoinIfSatisfied ctx parent

/-! ## Creation -/

/-- `_create` -/
def create (ctx : Context) (scope taskId : String) (etype : EventType) (payload : Payload) :
    Body Answer := do
  let res ← append {
    aggregateType := "task"
    aggregateId := taskId
    type := etype
    actorAccountId := ctx.accountUuid
    idempotencyScope := scope
    idempotencyKey := ctx.idempotencyKey
    payload := payload
    channelId := payload.channelId
    taskId := some taskId
    expectedSeq := 1 }
  let state ← loadTask taskId
  if !res.replayed then writeState state res.event.occurredAt
  return ⟨res.event, state, res.replayed⟩

/-- The characters that `str.strip` removes. -/
def isSpace (c : Char) : Bool :=
  let n := c.toNat
  (0x09 ≤ n && n ≤ 0x0d) || (0x1c ≤ n && n ≤ 0x20) || (0x2000 ≤ n && n ≤ 0x200a) ||
    n ∈ [0x85, 0xa0, 0x1680, 0x2028, 0x2029, 0x202f, 0x205f, 0x3000]

structure CreateTask where
  title : String
  channelId : String
  domain : String
  risk : String := "LOW"
  taskId : Option String := none
  joinPolicy : JoinPolicy := {}

def createTask (ctx : Context) (cmd : CreateTask) : Body Answer := do
  external "require_permission task.create"
  if cmd.risk ∉ ["LOW", "MEDIUM", "HIGH", "CRITICAL"] then
    throw ⟨"TASK_RISK_INVALID", cmd.risk, 400⟩
  else if cmd.title.toList.all isSpace then throw ⟨"TASK_TITLE_REQUIRED", "title is empty", 400⟩
  else
  let taskId := (orElse cmd.taskId none).getD (newTaskId cfg ctx "task:create")
  external "prepare_initial"
  let answer ← create ctx "task:create" taskId .taskCreated {
    rootTaskId := some taskId
    channelId := some cmd.channelId
    title := some cmd.title
    domain := some cmd.domain
    risk := some cmd.risk
    joinPolicy := some cmd.joinPolicy
    policySnapshotHash := some ctx.policySnapshotHash }
  if !answer.replayed then external "persist_initial"
  return answer

/-- `ancestors_of`; at most 128 steps. -/
def ancestorsOf : ℕ → String → List String → Body (List String)
  | 0, _, out => pure out
  | fuel + 1, cur, out => do
    match ← ask (.parentOf cur) with
    | none => return out
    | some parent =>
      if parent ∈ out then return out else ancestorsOf fuel parent (out ++ [parent])

/-- `check_subtask_creation` -/
def checkSubtaskCreation (parent : TaskState) (childTaskId : String) : Body Unit := do
  let limits ← ask (.channelLimits parent.channelId)
  let siblings ← ask (.childrenOf parent.taskId)
  let active := siblings.filter (·.status ∉ terminal)
  let ancestors ← ancestorsOf 128 parent.taskId []
  orRaise ((validateNewChild
    ⟨parent.taskId, (orElse parent.workspaceId none).getD cfg.workspaceId, parent.delegationDepth,
      parent.status⟩
    childTaskId cfg.workspaceId (ancestors ++ [parent.taskId]) siblings.length active.length
    limits).mapError fun e ↦ ⟨e.code, e.detail, 409⟩)

structure CreateSubtask where
  parentTaskId : String
  title : String
  domain : String
  risk : String := "LOW"
  taskId : Option String := none

def createSubtask (ctx : Context) (cmd : CreateSubtask) : Body Answer := do
  let parent ← loadTask cmd.parentTaskId
  external "require_permission task.delegate"
  if parent.status ∈ terminal then
    throw ⟨"TASK_TERMINAL", "parent " ++ cmd.parentTaskId ++ " is terminal", 409⟩
  else
  let taskId := (orElse cmd.taskId none).getD (newTaskId cfg ctx "task:create_subtask")
  if taskId = cmd.parentTaskId then
    throw ⟨"TASK_GRAPH_CYCLE", "a Task cannot be its own parent", 409⟩
  else
  if (← replayFromStream ctx taskId "task:create_subtask").isNone then
    checkSubtaskCreation cfg parent taskId
  let root := (orElse parent.rootTaskId none).getD cmd.parentTaskId
  let depth := parent.delegationDepth + 1
  external "prepare_initial"
  let answer ← create ctx "task:create_subtask" taskId .subtaskCreated {
    parentTaskId := some cmd.parentTaskId
    rootTaskId := some root
    depth := some depth
    channelId := parent.channelId
    title := some cmd.title
    domain := some cmd.domain
    risk := some cmd.risk
    policySnapshotHash := some ctx.policySnapshotHash }
  if answer.replayed then return answer
  else
  external "persist_initial"
  orRaise (← ask (.insertEdge ⟨taskId, cmd.parentTaskId, root, depth, answer.event.eventId⟩))
  return answer

/-! ## Assignment and work -/

def accountUuid (accountId : String) : Body String := do
  match ← ask (.accountUuid accountId) with
  | some uuid => return uuid
  | none => throw ⟨"ACCOUNT_NOT_FOUND", accountId, 404⟩

/-- The checks that a handler makes before a transition, unless it is a replay. -/
def unlessReplayed (ctx : Context) (taskId scope : String) (check : Body Unit) : Body Unit := do
  if (← replayFromStream ctx taskId scope).isNone then check

/-- Refuse an Event that the Task does not allow, then let another package check. -/
def precheck (state : TaskState) (etype : EventType) (name : String) : Body Unit := do
  let _ ← orRaise ((nextStatus state.status etype).mapError conflict)
  external name

def delegateTask (ctx : Context) (taskId assignee reasonCode : String) : Body Answer := do
  let state ← loadTask taskId
  external "require_permission task.delegate"
  let uuid ← accountUuid assignee
  unlessReplayed ctx taskId "task:delegate" (precheck state .taskDelegated "pre_delegate_checks")
  let answer ← transition ctx "task:delegate" state .taskDelegated {
    assigneeAccountId := some uuid
    assignmentRevision := some (state.assignmentRevision + 1)
    policySnapshotHash := some ctx.policySnapshotHash
    reasonCode := some reasonCode }
  if !answer.replayed then external "after_assignment"
  return answer

def reassignTask (ctx : Context) (taskId assignee reasonCode : String) : Body Answer := do
  let state ← loadTask taskId
  external "require_permission task.reassign"
  let uuid ← accountUuid assignee
  let answer ← transition ctx "task:reassign" state .taskReassigned {
    assigneeAccountId := some uuid
    assignmentRevision := some (state.assignmentRevision + 1)
    reasonCode := some reasonCode
    policySnapshotHash := some ((orElse state.policySnapshotHash none).getD
      ctx.policySnapshotHash) }
  if !answer.replayed then external "after_assignment"
  return answer

def acceptTask (ctx : Context) (taskId : String) : Body Answer := do
  let state ← loadTask taskId
  external "require_permission task.accept"
  unlessReplayed ctx taskId "task:accept" do
    let _ ← orRaise ((nextStatus state.status .taskAccepted).mapError conflict)
    if state.assigneeAccountId ≠ some ctx.accountUuid then
      throw ⟨"TASK_NOT_ASSIGNEE", "only the assignee can accept", 403⟩
    else external "enforce_agent_limits"
  transition ctx "task:accept" state .taskAccepted { assigneeAccountId := some ctx.accountUuid }

/-- A handler that checks the permission and makes the transition. -/
def plainTransition (ctx : Context) (taskId permission scope : String) (etype : EventType)
    (payload : Payload) : Body Answer := do
  let state ← loadTask taskId
  external ("require_permission " ++ permission)
  transition ctx scope state etype payload

def startTask (ctx : Context) (taskId : String) : Body Answer :=
  plainTransition ctx taskId "task.progress" "task:start" .taskStarted {}

def reportProgress (ctx : Context) (taskId summary : String) : Body Answer :=
  plainTransition ctx taskId "task.progress" "task:progress" .taskProgressReported
    { summary := some summary }

def markWaiting (ctx : Context) (taskId reasonCode : String) : Body Answer :=
  plainTransition ctx taskId "task.progress" "task:wait" .taskWaiting
    { reasonCode := some reasonCode }

def submitImplementation (ctx : Context) (taskId : String) (criteriaRevision : ℤ) :
    Body Answer := do
  let state ← loadTask taskId
  external "require_permission task.submit"
  unlessReplayed ctx taskId "task:submit"
    (precheck state .implementationSubmitted "pre_submit_checks")
  let answer ← transition ctx "task:submit" state .implementationSubmitted
    { criteriaRevision := some criteriaRevision }
  if !answer.replayed then external "on_implementation_submitted"
  return answer

/-- `StartVerification` of the Task package: the id is any text. -/
def startTaskVerification (ctx : Context) (taskId verificationId : String) : Body Answer :=
  plainTransition ctx taskId "verification.assign" "task:verify" .taskVerificationStarted
    { verificationId := some verificationId }

def requestCancel (ctx : Context) (taskId reasonCode : String) : Body Answer :=
  plainTransition ctx taskId "task.cancel" "task:cancel_request" .taskCancelRequested
    { reasonCode := some reasonCode }

/-- It does not look at the parent. -/
def cancelTask (ctx : Context) (taskId reasonCode : String) : Body Answer :=
  plainTransition ctx taskId "task.cancel" "task:cancel" .taskCancelled
    { reasonCode := some reasonCode }

/-! ## Results and completion -/

/-- `f"VERIFICATION_{result}"` -/
def resultType : Verification.Verdict → EventType
  | .passed => .verificationPassed
  | .failed => .verificationFailed
  | .blocked => .verificationBlocked

/-- `RecordVerificationResult`. The result is appended to the stream of the run. -/
def recordVerificationResult (ctx : Context) (taskId verificationId : String)
    (result : Verification.Verdict) : Body Answer := do
  let state ← loadTask taskId
  external "require_permission verification.submit"
  let prior := (← ask (.stream "verification_run" verificationId)).find? fun e ↦
    e.idempotencyScope = "verification_run:result" && e.idempotencyKey = ctx.idempotencyKey
  match prior with
  | some prior => return ⟨prior, state, true⟩
  | none =>
    if state.status ≠ .verifying ∨ state.activeVerificationId ≠ some verificationId then
      throw ⟨"TASK_TRANSITION_INVALID", (resultType result).value ++ " is not allowed in " ++
        state.status.value ++ " for " ++ verificationId, 409⟩
    else
    let stream ← ask (.stream "verification_run" verificationId)
    let res ← append {
      aggregateType := "verification_run"
      aggregateId := verificationId
      type := resultType result
      actorAccountId := ctx.accountUuid
      idempotencyScope := "verification_run:result"
      idempotencyKey := ctx.idempotencyKey
      payload := { verificationId := some verificationId }
      channelId := state.channelId
      taskId := some taskId
      causedBy := state.lastEventId
      expectedSeq := nextSeq stream }
    let state ← loadTask taskId
    writeState state res.event.occurredAt
    if result = .passed then onChildTerminal ctx state
    return ⟨res.event, state, res.replayed⟩

/-- `parent_join_check` -/
def parentJoinCheck (state : TaskState) : Body (Option String) := do
  let children ← ask (.childrenOf state.taskId)
  if children.isEmpty then return none
  else if state.status ∉ TaskStatus.doneStatuses then return none
  else
  let result ← orRaise ((evaluateJoin state.joinPolicy children).mapError
    fun e ↦ ⟨e.code, e.detail, 500⟩)
  return if result.satisfied then none else some "TASK_JOIN_UNSATISFIED"

def completionChecks (state : TaskState) : Body Unit := do
  if state.status ∈ terminal then
    throw ⟨"TASK_TERMINAL", state.status.value ++ " is terminal", 409⟩
  else
  let join ← parentJoinCheck state
  if state.status ≠ .verified ∨ state.verificationStatus ≠ some .passed then
    throw ⟨"COMPLETION_PREREQUISITE_MISSING", "VERIFICATION_REQUIRED", 409⟩
  else
  match join with
  | some code => throw ⟨code, "completion prerequisites not met: " ++ code, 409⟩
  | none => external "finalized_document_check"

def completeTask (ctx : Context) (taskId documentId : String) : Body Answer := do
  let state ← loadTask taskId
  external "require_permission task.complete"
  unlessReplayed ctx taskId "task:complete" (completionChecks state)
  let answer ← transition ctx "task:complete" state .taskCompleted {
    verificationId := some (state.activeVerificationId.getD "")
    documentId := some documentId }
  if !answer.replayed then onChildTerminal ctx answer.state
  return answer

/-! ## Criteria -/

/-- `ReviseCriteria`. The Event is on an aggregate of its own. -/
def reviseCriteria (ctx : Context) (taskId : String) (criteriaRevision : ℤ) : Body Answer := do
  let state ← loadTask taskId
  external "require_permission task.delegate"
  if state.status ∈ terminal then
    throw ⟨"TASK_TERMINAL", taskId ++ " is " ++ state.status.value, 409⟩
  else
  let stream ← ask (.stream "task_criteria" taskId)
  let prior := stream.find? fun e ↦
    e.idempotencyScope = "task_criteria:revise" && e.idempotencyKey = ctx.idempotencyKey &&
      e.actorAccountId = ctx.accountUuid
  match prior with
  | some prior => return ⟨prior, state, true⟩
  | none =>
    external "build_revision"
    let res ← append {
      aggregateType := "task_criteria"
      aggregateId := taskId
      type := .acceptanceCriteriaRevised
      actorAccountId := ctx.accountUuid
      idempotencyScope := "task_criteria:revise"
      idempotencyKey := ctx.idempotencyKey
      payload := { criteriaRevision := some criteriaRevision }
      channelId := state.channelId
      taskId := some taskId
      causedBy := state.lastEventId
      expectedSeq := stream.length + 1 }
    if !res.replayed then external "insert_rows"
    return ⟨res.event, state, res.replayed⟩

end AgentColab.Tasks
