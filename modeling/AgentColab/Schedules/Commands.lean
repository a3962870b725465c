import AgentColab.Schedules.Planner

/-!
# Schedule commands

The handlers of the command bus that write Schedules, versions and Runs. Each looks for a replay of
its own idempotency key first, and appends one Event. The validation of a version either raises or
accepts. A command returns nothing.
-/

namespace AgentColab.Schedules

open AgentColab Transaction

/-- Who issues a command, where and under which idempotency key. -/
structure CommandContext where
  workspaceId : String
  accountId : String
  accountUuid : String
  idempotencyKey : String

variable (cfg : ScheduleConfig) (ctx : CommandContext)

/-- Call another package; what it raises is raised. -/
def external (call : External) : Body (Option String) := do
  orRaise (← ask (.external call))

/-- `_load_schedule` -/
def loadSchedule (scheduleId : String) (lock : Bool) : Body ScheduleRow := do
  match ← ask (.loadSchedule (some ctx.workspaceId) scheduleId lock) with
  | some row => return row
  | none => throw (.command "SCHEDULE_NOT_FOUND" scheduleId)

/-- `_current_version` -/
def currentVersion (schedule : ScheduleRow) : Body VersionRow := do
  match schedule.currentVersionId with
  | none => throw (.command "SCHEDULE_VERSION_MISSING" schedule.scheduleId)
  | some vid =>
    match ← ask (.loadVersion vid) with
    | some version => return version
    | none => throw (.command "SCHEDULE_VERSION_MISSING" schedule.scheduleId)

/-- A contract error becomes a command error with the same code. -/
def orCommand {α : Type} : Except ScheduleContractError α → Body α
  | .ok a => pure a
  | .error e => throw (.command e.code e.detail)

/-- `_cancel_pending_runs` -/
def cancelPendingRuns (scheduleId reasonCode : String) : Body (List ℕ) := do
  let now ← ask .now
  let runs ← ask (.pendingRuns scheduleId)
  Prog.collect runs fun run ↦ do
    ask (.updateRun run {
      status := some .cancelled
      cancelledAt := some (some now)
      errorCode := some (some reasonCode) })
    let _ ← external (.appendEvent "schedule_run" "RUN_CANCELLED" "schedule_run:cancel"
      (ctx.idempotencyKey ++ ":" ++ toString run.runId))
    return run.runId

/-- `_transition` -/
def transition (scheduleId : String) (target : ScheduleStatus) (scope eventType action : String) :
    Body Unit := do
  let schedule ← loadSchedule ctx scheduleId true
  let version ← currentVersion schedule
  let _ ← external (.requirePermission action)
  match ← external (.replay "schedule" scope) with
  | some _ => return ()
  | none =>
    let _ ← orCommand (scheduleTransition schedule.status target)
    let now ← ask .now
    let _ ← external (.appendEvent "schedule" eventType scope ctx.idempotencyKey)
    if target = .enabled then
      -- planning starts now: occurrences before enabling or resuming are never materialized
      let next ← orRaise (nextRunAt cfg version now)
      ask (.updateSchedule schedule.scheduleId {
        status := some target
        lastPlannedUntil := some (some now)
        nextRunAt := some next })
    else
      let _ ← cancelPendingRuns ctx schedule.scheduleId ("SCHEDULE_" ++ target.value)
      ask (.updateSchedule schedule.scheduleId { status := some target, nextRunAt := some none })
    let _ ← external (.audit ("schedule." ++ target.value.toLower))
    return ()

def enableSchedule (scheduleId : String) : Body Unit :=
  transition cfg ctx scheduleId .enabled "schedule:enable" "SCHEDULE_ENABLED" "api:schedule_enable"

def pauseSchedule (scheduleId : String) : Body Unit :=
  transition cfg ctx scheduleId .paused "schedule:pause" "SCHEDULE_PAUSED" "api:schedule_pause"

/-- Resuming is enabling, of a PAUSED Schedule only. -/
def resumeSchedule (scheduleId : String) : Body Unit := do
  let schedule ← loadSchedule ctx scheduleId false
  if schedule.status ≠ .paused then
    throw (.command "SCHEDULE_TRANSITION_INVALID" (schedule.status.value ++ " -> ENABLED"))
  else
    transition cfg ctx scheduleId .enabled "schedule:resume" "SCHEDULE_RESUMED"
      "api:schedule_resume"

def disableSchedule (scheduleId : String) : Body Unit :=
  transition cfg ctx scheduleId .disabled "schedule:disable" "SCHEDULE_DISABLED"
    "api:schedule_disable"

/-- `CommitScheduleVersion`: `changes` merges the changed fields into the current content. -/
def commitVersion (scheduleId : String) (changes : VersionContent → VersionContent) :
    Body Unit := do
  let schedule ← loadSchedule ctx scheduleId true
  let current ← currentVersion schedule
  let _ ← external (.requirePermission "api:schedule_update")
  match ← external (.replay "schedule" "schedule:update") with
  | some _ => return ()
  | none =>
    if schedule.status = .disabled then
      throw (.command "SCHEDULE_STATUS_INVALID" "disabled schedules are frozen")
    else
    let content := changes current.toVersionContent
    let _ ← external (.validateContent schedule.scheduleId)
    if content = current.toVersionContent then
      throw (.command "SCHEDULE_NO_CHANGES" "identical to the current version")
    else
    let now ← ask .now
    let _ ← external (.appendEvent "schedule" "SCHEDULE_UPDATED" "schedule:update"
      ctx.idempotencyKey)
    let row := fun n ↦ (⟨content, n, schedule.scheduleId, current.version + 1⟩ : VersionRow)
    let vid ← ask (.insertVersion row)
    let next ← if schedule.status = .enabled then
      Option.some <$> orRaise (nextRunAt cfg (row vid) now) else pure none
    ask (.updateSchedule schedule.scheduleId {
      currentVersionId := some (some vid)
      name := some content.name
      nextRunAt := next })
    let _ ← external (.audit "schedule.update")
    return ()

/-- `_safe_key` -/
def safeKey (value : String) : String :=
  String.ofList (value.toList.map fun c ↦ if c = ':' then '_' else c)

def orValue {α : Type} : Except String α → Body α
  | .ok a => pure a
  | .error e => throw (.value e)

/-- `cmd.client_key or request_key` -/
def requestedKey (clientKey : Option String) (requestKey : String) : String :=
  match clientKey with
  | some key => if key = "" then requestKey else key
  | none => requestKey

def lockRun (runId : ℕ) : Body RunRow := do
  match ← ask (.loadRun runId true) with
  | some run =>
    if run.workspaceId = ctx.workspaceId then return run
    else throw (.command "RUN_NOT_FOUND" (toString runId))
  | none => throw (.command "RUN_NOT_FOUND" (toString runId))

/-- `CancelScheduleRun` -/
def cancelScheduleRun (runId : ℕ) (reasonCode : String) : Body Unit := do
  let run ← lockRun ctx runId
  let _ ← ask (.loadVersion run.scheduleVersionId)
  let _ ← external (.requirePermission "api:schedule_run_cancel")
  match ← external (.replay "schedule_run" "schedule_run:cancel") with
  | some _ => return ()
  | none =>
    let target ← orCommand (cancelRun run.status)
    let now ← ask .now
    if target = .cancelled then
      ask (.updateRun run {
        status := some .cancelled
        cancelledAt := some (some now)
        errorCode := some (some reasonCode)
        finishedAt := some (some now) })
      let _ ← external (.appendEvent "schedule_run" "RUN_CANCELLED" "schedule_run:cancel"
        ctx.idempotencyKey)
    else
      ask (.updateRun run {
        status := some .cancelRequested
        cancelRequestedAt := some (some now)
        errorCode := some (some reasonCode) })
      let _ ← external (.appendEvent "schedule_run" "RUN_CANCEL_REQUESTED" "schedule_run:cancel"
        ctx.idempotencyKey)
    let _ ← external (.audit "schedule.run_cancel")
    let _ ← ask (.loadRun run.runId false)
    return ()

/-- `RETRYABLE_TERMINAL` -/
def retryableTerminal : List RunStatus := [.failed, .timedOut, .cancelled, .skipped]

/-- `RetryScheduleRun` -/
def retryScheduleRun (runId : ℕ) : Body Unit := do
  let original ← lockRun ctx runId
  let version ← ask (.loadVersion original.scheduleVersionId)
  let _ ← external (.requirePermission "api:schedule_run_retry")
  let existing ← ask (.findRunByRequestKey original.scheduleId .retry ctx.idempotencyKey)
  let replay ← match existing with
    | some _ => external (.replay "schedule_run" "schedule_run:retry")
    | none => pure none
  match replay with
  | some _ => return ()
  | none =>
    if original.status ∉ retryableTerminal then
      throw (.command (if original.status ∉ RunStatus.terminal then "RUN_RETRY_NOT_TERMINAL"
          else "RUN_RETRY_NOT_ALLOWED")
        (original.status.value ++ " cannot be retried"))
    else
    match version with
    | none => throw (.other "AssertionError")
    | some version =>
      let retryNo := (← ask (.countRetries original.runId)) + 1
      let now ← ask .now
      let key ← orValue (retryIdempotencyKey original.runId retryNo)
      let run ← insertRun fun n ↦ {
        runId := n
        workspaceId := ctx.workspaceId
        scheduleId := original.scheduleId
        scheduleVersionId := version.id
        runKind := .retry
        scheduledFor := now
        retryOfRunId := some original.runId
        requestKey := some ctx.idempotencyKey
        status := .due
        idempotencyKey := key
        requestedBy := some ctx.accountUuid }
      match run with
      | none => throw (.command "RUN_DUPLICATE" "retry already materialized")
      | some run =>
        let _ ← external (.appendEvent "schedule_run" "RUN_DUE" "schedule_run:retry"
          ctx.idempotencyKey)
        let _ ← external (.audit "schedule.run_retry")
        let _ ← ask (.loadRun run.runId false)
        return ()

end AgentColab.Schedules
