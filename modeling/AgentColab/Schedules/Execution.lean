import AgentColab.Schedules.Commands

/-!
# Execution of Schedule Runs

A claimed Run is checked against the live authority, reserves its budget and waits for its turn;
then its Task is created, and an attempt is recorded. The exceptions of the collaborators become a
status of the Run, and what they have done until then stays in the transaction.
-/

namespace AgentColab.Schedules

open AgentColab Transaction

/-- `ExecutionContext`: the Workspace, its runner and its service Account. -/
structure ExecutionContext where
  workspaceId : String
  runnerId : String
  actorUuid : String

/-- `RunOutcome` -/
structure RunOutcome where
  runId : ℕ
  status : RunStatus
  errorCode : Option String := none
  taskId : Option String := none
  attemptNo : ℕ := 0
  deferred : Bool := false
  retryAt : Option Time := none
  detail : String := ""

variable (cfg : ScheduleConfig) (ctx : ExecutionContext)

/-- `try`: the outcome of a body as a value. What the body has done stays. -/
def attempt {α : Type} (p : Body α) : Body (Except ExecError α) :=
  Prog.tryCatch (p >>= fun a ↦ pure (.ok a)) fun e ↦ pure (.error e)

/-! ## The Run store -/

def findSchedule (scheduleId : String) : Body ScheduleRow := do
  match ← ask (.loadSchedule none scheduleId false) with
  | some row => return row
  | none => throw (.lookup ("SCHEDULE_NOT_FOUND: " ++ scheduleId))

def findVersion (versionId : ℕ) : Body VersionRow := do
  match ← ask (.loadVersion versionId) with
  | some row => return row
  | none => throw (.lookup ("SCHEDULE_VERSION_NOT_FOUND: " ++ toString versionId))

def findRun (runId : ℕ) (forUpdate : Bool) : Body RunRow := do
  match ← ask (.loadRun runId forUpdate) with
  | some row => return row
  | none => throw (.lookup ("RUN_NOT_FOUND: " ++ toString runId))

/-- `_load_all` -/
def loadAll (runIds : List ℕ) : Body (List RunRow) := do
  let rows ← Prog.collect runIds fun runId ↦ ask (.loadRun runId false)
  return rows.filterMap id

/-- `update_run` -/
def updateRun (run : RunRow) (cols : RunCols) : Body RunRow := do
  ask (.updateRun run cols)
  findRun run.runId false

/-- `DbRunStore.add_attempt`: a row with this number is finished, otherwise one is added. -/
def addAttempt (runId attemptNo : ℕ) (startedAt finishedAt : Option Time)
    (result errorCode : Option String) : Body Unit := do
  if ← ask (.hasAttempt runId attemptNo) then
    if finishedAt = none ∧ result = none then return ()
    else
      let now ← ask .now
      ask (.finishAttempt runId attemptNo (finishedAt.getD now) (result.getD "") errorCode)
  else
    let now ← ask .now
    let _ ← ask (.addAttempt runId (startedAt.getD now) finishedAt result errorCode)
    return ()

/-- `_set` -/
def setRun (run : RunRow) (target : RunStatus) (cols : RunCols) : Body RunRow := do
  let _ ← orContract (runTransition run.status target)
  updateRun run { cols with status := some target }

/-- Append one `RUN_*` Event; nothing on an idempotent replay with another body. -/
def appendRunEvent (run : RunRow) (type op suffix : String) : Body (Option String) := do
  let key := toString run.runId ++ ":" ++ op ++ (if suffix = "" then "" else ":" ++ suffix)
  match ← ask (.external (.appendEvent "schedule_run" type ("schedule_run:" ++ op) key)) with
  | .ok eventId => return eventId
  | .error (.eventStore code detail) =>
    if code = "IDEMPOTENCY_CONFLICT" then return none else throw (.eventStore code detail)
  | .error e => throw e

def setResultEvent (run : RunRow) (eventId : Option String) : Body RunRow :=
  match eventId with
  | some id => updateRun run { resultEventId := some (some id) }
  | none => pure run

def notice (kind : String) (run : RunRow) : Body Unit := do
  let _ ← external (.notice kind run.runId)
  return ()

def alert (kind : String) (run : RunRow) : Body Unit := do
  let _ ← external (.alert kind run.runId)
  return ()

/-! ## Budgets -/

/-- `DEFAULT_ESTIMATE` -/
def defaultEstimate : ℤ := 10

def BudgetScope.scopeId : BudgetScope → String
  | .scheduleRun runId => toString runId
  | .scheduleDaily scheduleId => scheduleId

/-- `_load_reservation` -/
def loadReservation (reservationId : ℕ) : Body ReservationRow := do
  match ← ask (.loadReservation reservationId) with
  | some row =>
    if row.status = .reserved then return row
    else throw (.command "BUDGET_RESERVATION_NOT_OPEN" (toString reservationId))
  | none => throw (.command "BUDGET_RESERVATION_UNKNOWN" (toString reservationId))

/-- The body of the loop over the scopes: why nothing was reserved, if nothing was. -/
def reserveScope (run : RunRow) (estimate limit : ℤ) (scope : BudgetScope) (runIds : List ℕ) :
    Body (Option String) := do
  let now ← ask .now
  if 0 < (← ask (.countOverruns scope (utcDay now))) then
    alert "budget_exceeded" run
    return some (scope.scopeType.value ++ " " ++ scope.scopeId ++ " overran its budget")
  else if estimate < 0 ∨ limit < 0 then
    throw (.command "BUDGET_VALUE_INVALID" "cost_units must be non-negative")
  else
    ask (.lockBudget scope)
    let used ← ask (.usedCostUnits scope runIds)
    let reserved ← ask (.reservedCostUnits scope (utcDay now) none)
    if limit < used + reserved + estimate then
      let _ ← external (.appendEvent "budget" "BUDGET_EXCEEDED" "budget:exceeded"
        (toString run.runId ++ ":budget:" ++ scope.scopeType.value))
      alert "budget_exceeded" run
      return some (scope.scopeType.value ++ ": " ++ toString used ++ "+" ++ toString reserved ++
        "+" ++ toString estimate ++ " > " ++ toString limit)
    else
      let now ← ask .now
      let reservation ← ask (.insertReservation fun n ↦ {
        reservationId := n
        scope := scope
        estimatedCostUnits := estimate
        createdAt := now
        correlationId := run.runId })
      let _ ← external (.appendEvent "budget" "BUDGET_RESERVED" "budget:reserve"
        (toString reservation))
      ask (.insertRunBudget {
        runId := run.runId
        scopeType := scope.scopeType
        reservationId := reservation
        limitCostUnits := limit
        estimateCostUnits := estimate })
      return none

/-- A scope without a limit is passed over. -/
def reserveLimit (run : RunRow) (estimate : ℤ) (limit : Option ℤ) (scope : BudgetScope)
    (runIds : List ℕ) : Body (Option String) :=
  match limit with
  | none => pure none
  | some limit => reserveScope run estimate limit scope runIds

/-- `reserve_for_run`: why the budget is refused, if it is. -/
def reserveForRun (run : RunRow) (version : VersionRow) : Body (Option String) := do
  let policy := version.budgetPolicy
  if policy.perRunCostUnits = none ∧ policy.dailyCostUnits = none then return none
  else
    let estimate := policy.estimateCostUnits.getD defaultEstimate
    let now ← ask .now
    let ids ← ask (.runIdsForDay run.scheduleId (utcDay now))
    match ← reserveLimit run estimate policy.perRunCostUnits (.scheduleRun run.runId)
        [run.runId] with
    | some detail => return some detail
    | none =>
      reserveLimit run estimate policy.dailyCostUnits (.scheduleDaily run.scheduleId)
        (if run.runId ∈ ids then ids else ids ++ [run.runId])

/-- A reservation that cannot be released is passed over. -/
def releaseBudget (run : RunRow) (row : RunBudgetRow) : Body Unit := do
  match ← attempt (loadReservation row.reservationId) with
  | .error (.command _ _) => return ()
  | .error e => throw e
  | .ok reservation =>
    let now ← ask .now
    ask (.closeReservation row.reservationId .released reservation.settledCostUnits now)
    ask (.closeRunBudget run.runId row.scopeType .released row.settledCostUnits now)

/-- `release_for_run` -/
def releaseForRun (run : RunRow) : Body Unit := do
  let rows ← ask (.openReservations run.runId)
  Prog.forEach rows (releaseBudget run)

/-- The Runs whose use counts in the scope of a reservation. -/
def scopeRunIds (run : RunRow) (now : Time) : ScopeType → Body (List ℕ)
  | .scheduleRun => pure [run.runId]
  | .scheduleDaily => ask (.runIdsForDay run.scheduleId (utcDay now))

/-- The body of the loop of `settle_for_run`. -/
def settleBudget (run : RunRow) (actual : ℤ) (row : RunBudgetRow) : Body Unit := do
  let now ← ask .now
  let runIds ← scopeRunIds run now row.scopeType
  if actual < 0 then throw (.command "BUDGET_VALUE_INVALID" "cost_units must be non-negative")
  else
    let reservation ← loadReservation row.reservationId
    ask (.lockBudget reservation.scope)
    let used ← ask (.usedCostUnits reservation.scope runIds)
    let reserved ← ask (.reservedCostUnits reservation.scope (utcDay now)
      (some row.reservationId))
    let status : ReservationStatus :=
      if row.limitCostUnits - used - reserved < actual then .exceeded else .settled
    ask (.closeReservation row.reservationId status (some actual) now)
    ask (.closeRunBudget run.runId row.scopeType status (some actual) now)
    if status = .exceeded then alert "budget_exceeded" run else return ()

/-- `settle_for_run` -/
def settleForRun (run : RunRow) : Body Unit := do
  let actual ← ask (.usageFor run.runId)
  let rows ← ask (.openReservations run.runId)
  Prog.forEach rows (settleBudget run actual)

/-! ## The end of a Run -/

/-- Whatever revoking raises is passed over. -/
def revokeLeases (run : RunRow) : Body Unit :=
  match run.taskId with
  | some taskId => do
    let _ ← ask (.external (.revokeLeases taskId))
    return ()
  | none => pure ()

/-- Lease, budget and retry cleanup for a Run that ended. -/
def cleanup (run : RunRow) : Body Unit := do
  revokeLeases run
  settleForRun run
  ask (.clearRetry run.runId)

/-- The status at the end of a cancel, and its Event. -/
def setCancelled (run : RunRow) (timedOut : Bool) (reason : String) (now : Time) : Body RunRow := do
  if timedOut then
    let finished ← setRun run .timedOut {
      finishedAt := some (some now)
      errorCode := some (some reason) }
    let eventId ← appendRunEvent finished "RUN_TIMED_OUT" "timed_out" ""
    setResultEvent finished eventId
  else
    let finished ← setRun run .cancelled {
      cancelledAt := some (some now)
      finishedAt := some (some now) }
    let eventId ← appendRunEvent finished "RUN_CANCELLED" "cancelled" ""
    setResultEvent finished eventId

/-- CANCEL_REQUESTED becomes CANCELLED or TIMED_OUT. -/
def finishCancel (run : RunRow) (timedOut : Bool) (reason : String) : Body RunRow := do
  let now ← ask .now
  let _ ← findVersion run.scheduleVersionId
  let finished ← setCancelled run timedOut reason now
  cleanup finished
  notice "failure" finished
  return finished

/-- `TASK_SUCCESS_STATES` -/
def taskSuccessStates : List String := ["COMPLETED", "VERIFIED"]

/-- TASK_CREATED becomes RUNNING. -/
def setRunning (run : RunRow) : Body RunRow :=
  if run.status = .taskCreated then setRun run .running {} else pure run

/-- A Run whose Task has ended, as SUCCEEDED or FAILED. -/
def closeRun (run : RunRow) (taskStatus : String) : Body RunRow := do
  let now ← ask .now
  let attemptNo := max run.attemptCount 1
  let run ← setRunning run
  if taskStatus ∈ taskSuccessStates then
    let done ← setRun run .succeeded { finishedAt := some (some now), errorCode := some none }
    let eventId ← appendRunEvent done "RUN_SUCCEEDED" "succeeded" (toString attemptNo)
    let done ← setResultEvent done eventId
    addAttempt run.runId attemptNo (some (run.startedAt.getD now)) (some now) (some "SUCCEEDED")
      none
    cleanup done
    notice "result" done
    return done
  else
    let code := "TASK_" ++ taskStatus
    let done ← setRun run .failed { finishedAt := some (some now), errorCode := some (some code) }
    let eventId ← appendRunEvent done "RUN_FAILED" "failed" (toString attemptNo)
    let done ← setResultEvent done eventId
    addAttempt run.runId attemptNo (some (run.startedAt.getD now)) (some now) (some "FAILED")
      (some code)
    cleanup done
    notice "failure" done
    return done

/-- The body of the loop over the Runs of a Task. The branch for CANCEL_REQUESTED is never taken. -/
def onRunTerminal (taskStatus : String) (run : RunRow) : Body Unit := do
  if run.status ∉ RunStatus.runningStatuses then return ()
  else
    let _ ← findVersion run.scheduleVersionId
    if run.status = .cancelRequested then
      let _ ← finishCancel run false "CANCELLED"
      return ()
    else
      let _ ← closeRun run taskStatus
      return ()

/-- Close the Runs whose Task reached a terminal state. -/
def onTaskTerminal (taskId taskStatus : String) : Body Unit := do
  let ids ← ask (.runIdsForTask taskId)
  let runs ← loadAll ids
  Prog.forEach runs (onRunTerminal taskStatus)

/-- `TERMINAL_TASK_STATES` -/
def terminalTaskStates : List String := ["COMPLETED", "CANCELLED", "FAILED", "VERIFIED"]

/-- `_terminal_hook` -/
def terminalHook (taskId taskStatus : String) : Body Unit := do
  if taskStatus ∉ terminalTaskStates then return ()
  else
    let ids ← ask (.runIdsForTask taskId)
    if ids = [] then return ()
    else
      match ← ask (.systemPrincipal ctx.workspaceId) with
      | none => throw (.command "SYSTEM_ACCOUNT_MISSING" "no service Account")
      | some _ => onTaskTerminal taskId taskStatus

/-- Ask a Task to cancel. The hook runs within the command when the Task has ended. -/
def cancelTask (taskId key : String) : Body Unit := do
  match ← external (.cancelTask taskId "SCHEDULE_RUN_CANCELLED" key) with
  | some status => terminalHook ctx taskId status
  | none => return ()

/-- Pending Runs cancel at once; running Runs enter CANCEL_REQUESTED and their Task is asked to
cancel. -/
def requestCancel (run : RunRow) (reasonCode : String) : Body RunRow := do
  let target ← orContract (cancelRun run.status)
  let now ← ask .now
  if target = .cancelled then
    let cancelled ← setRun run .cancelled {
      cancelledAt := some (some now)
      finishedAt := some (some now)
      errorCode := some (some reasonCode) }
    let eventId ← appendRunEvent cancelled "RUN_CANCELLED" "cancelled" ""
    let cancelled ← setResultEvent cancelled eventId
    releaseForRun cancelled
    ask (.clearRetry run.runId)
    return cancelled
  else
    let requested ← setRun run .cancelRequested {
      cancelRequestedAt := some (some now)
      errorCode := some (some reasonCode) }
    let _ ← appendRunEvent requested "RUN_CANCEL_REQUESTED" "cancel_requested" ""
    match run.taskId with
    | none => return requested
    | some taskId =>
      match ← attempt (cancelTask ctx taskId (toString run.runId ++ ":cancel")) with
      | .ok _ => return requested
      | .error (.command _ _) => return requested
      | .error e => throw e

/-! ## Outcomes -/

/-- `_skip` -/
def skip (run : RunRow) (code detail : String) : Body RunOutcome := do
  let now ← ask .now
  let skipped ← setRun run .skipped {
    errorCode := some (some code)
    finishedAt := some (some now) }
  let eventId ← appendRunEvent skipped "RUN_SKIPPED" "skipped" ""
  let skipped ← setResultEvent skipped eventId
  notice "skip" skipped
  return {
    runId := run.runId
    status := .skipped
    errorCode := some code
    attemptNo := run.attemptCount
    detail := detail }

/-- The Run becomes FAILED, with its attempt closed before. -/
def setFailed (run : RunRow) (attemptNo : ℕ) (code detail : String) (now : Time) :
    Body RunOutcome := do
  let failed ← setRun run .failed {
    errorCode := some (some code)
    finishedAt := some (some now)
    attemptCount := some attemptNo }
  let eventId ← appendRunEvent failed "RUN_FAILED" "failed" (toString attemptNo)
  let failed ← setResultEvent failed eventId
  releaseForRun failed
  ask (.clearRetry run.runId)
  notice "failure" failed
  return {
    runId := run.runId
    status := .failed
    errorCode := some code
    attemptNo := attemptNo
    detail := detail }

/-- `_fail` -/
def fail (run : RunRow) (attemptNo : ℕ) (code detail : String) : Body RunOutcome := do
  let now ← ask .now
  addAttempt run.runId attemptNo (some (run.startedAt.getD now)) (some now) (some "FAILED")
    (some code)
  setFailed run attemptNo code detail now

/-- `retry_policy_of` -/
def retryPolicyOf (version : VersionRow) : Except ScheduleContractError RetryPolicy :=
  let column := version.retryPolicy
  RetryPolicy.make (column.maxAttempts.getD retryMaxAttempts)
    (column.backoffSeconds.getD retryBackoffS) (column.jitterRatio.getD retryJitterMaxRatio)

/-- `SCHEDULER_CLAIM_LEASE_S` -/
def claimLeaseS : ℤ := 60

/-- FAILED, or another attempt later. -/
def onRetryOutcome (run : RunRow) (attemptNo : ℕ) (code detail : String) (now : Time) :
    RetryOutcome → Body RunOutcome
  | .failPermanent => setFailed run attemptNo code "" now
  | .failExhausted => setFailed run attemptNo "RETRY_EXHAUSTED" "" now
  | .retry nextAttemptNo lo hi => do
    let ratio ← ask .randomRatio
    let retryAt := now + ((lo + (hi - lo) * ratio) * 1000000).floor
    -- the Run keeps its claim until the retry is due
    let _ ← updateRun run {
      attemptCount := some attemptNo
      errorCode := some (some code)
      leaseExpiresAt := some (some (retryAt + seconds claimLeaseS)) }
    ask (.scheduleRetry ⟨run.runId, nextAttemptNo, retryAt, code⟩)
    return {
      runId := run.runId
      status := run.status
      errorCode := some code
      attemptNo := attemptNo
      retryAt := some retryAt
      detail := detail }

/-- `_transient`: the attempt is closed, after it was decided what comes next. -/
def transient (run : RunRow) (version : VersionRow) (attemptNo : ℕ) (code detail : String) :
    Body RunOutcome := do
  let policy ← orContract (retryPolicyOf version)
  match decideRetry policy attemptNo (if code ∈ transientErrorCodes then code else "TRANSIENT") with
  | none => throw (.other "IndexError")
  | some outcome =>
    let now ← ask .now
    addAttempt run.runId attemptNo (some (run.startedAt.getD now)) (some now) (some "FAILED")
      (some code)
    onRetryOutcome run attemptNo code detail now outcome

/-! ## Before the Task -/

/-- `policy_check.check` -/
def policyCheck (run : RunRow) (schedule : ScheduleRow) (version : VersionRow) :
    Body (Except (SkipCode × String) Authority) := do
  if schedule.status ≠ .enabled then
    return .error (.skippedPolicy, "schedule is " ++ schedule.status.value)
  else if version.endsAt.any (· < run.scheduledFor) then
    return .error (.skippedPolicy, "occurrence after ends_at")
  else orRaise (← ask (.liveAuthority version run))

/-- The cancel of the Run that is replaced: confirmed, refused, or not known yet. -/
def replaceConfirmed (previous : RunRow) (now : Time) : Option Bool :=
  if previous.cancelledAt.isSome ∨ previous.status = .cancelled ∨ previous.status = .timedOut then
    some (replaceCancelConfirmed (previous.cancelRequestedAt.getD now)
      (previous.cancelledAt.or previous.finishedAt))
  else if seconds replaceCancelTimeoutS < now - previous.cancelRequestedAt.getD now then
    some false
  else none

/-- The Run that is replaced, asked to cancel once. -/
def replaced (previous : RunRow) : Body RunRow :=
  if previous.cancelRequestedAt = none then requestCancel ctx previous "REPLACED_BY_NEW_RUN"
  else pure previous

/-- `_concurrency`: the outcome, if the Run does not start now. -/
def concurrency (run : RunRow) (version : VersionRow) (now : Time) : Body (Option RunOutcome) := do
  let active ← ask (.activeRuns run.scheduleId)
  match active.filter (·.runId ≠ run.runId) with
  | [] => return none
  | previous :: _ =>
    if version.concurrencyPolicy = .replace then
      let previous ← replaced ctx previous
      let outcome := decideConcurrency .replace true (replaceConfirmed previous now)
      match outcome.decision with
      | .replaceCancelExisting =>
        let _ ← updateRun run { leaseExpiresAt := some (some (now + seconds claimLeaseS)) }
        return some {
          runId := run.runId
          status := run.status
          deferred := true
          detail := "REPLACE_WAIT" }
      | .skip =>
        releaseForRun run
        let skipped ← skip run ((outcome.errorCode.map (·.value)).getD "") "replace cancel timeout"
        return some skipped
      | .start => return none
    else
      let outcome := decideConcurrency version.concurrencyPolicy true
      match outcome.decision with
      | .skip =>
        releaseForRun run
        let skipped ← skip run ((outcome.errorCode.map (·.value)).getD "") "previous Run active"
        return some skipped
      | _ => return none

/-! ## The Task -/

/-- `datetime.isoformat` of an instant in UTC. -/
def isoformat (t : Time) : String :=
  let date := Calendar.Date.ofDays (t / 86400000000)
  let rest := (t % 86400000000).toNat
  String.ofList <|
    zeroPad 4 date.year.toNat ++ ['-'] ++ zeroPad 2 date.month ++ ['-'] ++ zeroPad 2 date.day ++
      ['T'] ++ zeroPad 2 (rest / 3600000000) ++ [':'] ++ zeroPad 2 (rest / 60000000 % 60) ++
      [':'] ++ zeroPad 2 (rest / 1000000 % 60) ++
      (if rest % 1000000 = 0 then [] else '.' :: zeroPad 6 (rest % 1000000)) ++ "+00:00".toList

/-- `_new_task_id` -/
def newTaskId (workspaceId accountUuid idempotencyKey : String) : String :=
  let seed := workspaceId ++ "|" ++ accountUuid ++ "|task:create|" ++ idempotencyKey
  "task-" ++ String.ofList ((cfg.sha256 (seed.toList.flatMap String.utf8EncodeChar)).toList.take 16)

def createCommand (run : RunRow) (schedule : ScheduleRow) (version : VersionRow) : CreateTask :=
  let template := version.actionTemplate
  { title := match template.title with
      | some title => if title = "" then schedule.name ++ " @ " ++ isoformat run.scheduledFor
        else title
      | none => schedule.name ++ " @ " ++ isoformat run.scheduledFor
    channelId := version.channelId
    domain := template.domain
    risk := template.risk
    criteria := if template.criteria = [] then [⟨"scheduled run completed", "evidence", true⟩]
      else template.criteria }

def taskRow (run : RunRow) (schedule : ScheduleRow) (version : VersionRow) : TaskRow where
  workspaceId := ctx.workspaceId
  actorAccountId := version.executionPrincipalId
  idempotencyKey := run.idempotencyKey
  taskId := newTaskId cfg ctx.workspaceId version.executionPrincipalId run.idempotencyKey
  correlationId := run.runId
  command := createCommand run schedule version

def consumeApproval (run : RunRow) (approvalId : String) : Body Unit := do
  let _ ← external (.consumeApprovalAllowed approvalId)
  ask (.consumeApproval ⟨approvalId, run.idempotencyKey⟩)

/-- The `CreateTask` command. -/
def createTaskRow (row : TaskRow) : Body Unit := do
  let _ ← external (.createTaskAllowed row.actorAccountId)
  orRaise (← ask (.createTask row))

/-- The `DelegateTask` command. -/
def delegateTask (run : RunRow) (taskId agentId : String) : Body Unit := do
  let _ ← external (.delegateTask taskId agentId (run.idempotencyKey ++ ":delegate"))
  return ()

/-- `issue_lease` -/
def issueLease (taskId secretRef : String) : Body Unit := do
  let _ ← external (.issueLeaseAllowed secretRef)
  ask (.issueLease ⟨secretRef, taskId⟩)

/-- `_create_task`: the Approval, the Task, its delegation and the Secret leases. -/
def createTask (run : RunRow) (schedule : ScheduleRow) (version : VersionRow)
    (check : Authority) : Body String := do
  let template := version.actionTemplate
  if template.action ≠ "task_create" then
    throw (.command "SCHEDULE_ACTION_UNSUPPORTED"
      (template.action ++ " is not executable by the scheduler"))
  else
    let row := taskRow cfg ctx run schedule version
    Prog.forEach check.approvalId.toList (consumeApproval run)
    createTaskRow row
    Prog.forEach check.agentId.toList (delegateTask run row.taskId)
    Prog.forEach template.secretRefs (issueLease row.taskId)
    return row.taskId

/-- What is known when the attempt has been opened. -/
structure Entered where
  now : Time
  run : RunRow
  schedule : ScheduleRow
  version : VersionRow
  check : Authority

def Entered.attemptNo (e : Entered) : ℕ := e.run.attemptCount + 1

/-- Everything before the Task: the outcome, if the Run does not start now. -/
def enter (run : RunRow) : Body (Except RunOutcome Entered) := do
  if run.status ≠ .claimed then
    throw (.contract ⟨"RUN_STATUS_INVALID", "execute needs CLAIMED, got " ++ run.status.value⟩)
  else
    let now ← ask .now
    let schedule ← findSchedule run.scheduleId
    let version ← findVersion run.scheduleVersionId
    match ← policyCheck run schedule version with
    | .error (code, detail) =>
      let outcome ← skip run code.value detail
      return .error outcome
    | .ok check =>
      match ← reserveForRun run version with
      | some detail =>
        let outcome ← skip run SkipCode.budgetExceeded.value detail
        return .error outcome
      | none =>
        match ← concurrency ctx run version now with
        | some outcome => return .error outcome
        | none =>
          addAttempt run.runId (run.attemptCount + 1) (some now) none none none
          return .ok ⟨now, run, schedule, version, check⟩

/-- `SCHEDULE_START_DELAY_P95_S` -/
def startDelayP95S : ℤ := 60

/-- A notice and an alert for a Run that starts too late. -/
def noteDelay (e : Entered) (started : RunRow) : Body Unit := do
  if e.run.runKind = .scheduled ∧ seconds startDelayP95S < e.now - e.run.scheduledFor then
    notice "late" started
    alert "start_delay" e.run
  else return ()

def startRun (e : Entered) (taskId : String) : Body RunOutcome := do
  let started ← setRun e.run .taskCreated {
    taskId := some (some taskId)
    startedAt := some (some e.now)
    attemptCount := some e.attemptNo
    errorCode := some none }
  let _ ← appendRunEvent started "RUN_STARTED" "started" (toString e.attemptNo)
  notice "start" started
  noteDelay e started
  return {
    runId := e.run.runId
    status := started.status
    taskId := some taskId
    attemptNo := e.attemptNo }

/-- What an exception of the creation becomes. Only these four kinds are caught. -/
def onCreateError (e : Entered) : ExecError → Body RunOutcome
  | .transient code detail => transient e.run e.version e.attemptNo code detail
  | .command code detail =>
    if code ∈ transientErrorCodes then transient e.run e.version e.attemptNo code detail
    else fail e.run e.attemptNo code detail
  | .secret code detail => fail e.run e.attemptNo code detail
  | .approval code detail => fail e.run e.attemptNo code detail
  | error => throw error

/-- The creation of the Task, and what becomes of the Run. -/
def startTask (e : Entered) : Body RunOutcome := do
  match ← attempt (createTask cfg ctx e.run e.schedule e.version e.check) with
  | .ok taskId => startRun e taskId
  | .error error => onCreateError e error

/-- **Execute one claimed Run.** -/
def execute (run : RunRow) : Body RunOutcome := do
  match ← enter ctx run with
  | .error outcome => return outcome
  | .ok entered => startTask cfg ctx entered

/-- `execute_run` of a worker: one Run in its own transaction. -/
def executeRun (runId : ℕ) : Body RunOutcome := do
  let run ← findRun runId true
  execute cfg ctx run

end AgentColab.Schedules
