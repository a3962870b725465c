import AgentColab.Schedules.Contract
import AgentColab.Schedules.Cron

/-!
# The schedule tables

Rows, the changes that statements make to them, and the locks of each change. A change of a row is
kept as the list of columns it sets: under `READ COMMITTED` an `UPDATE` sets its columns on the
newest version of the row.

What is asked of accounts, channels and tasks is answered by the environment. Of a Task there is its
creation Event, of an Approval its consumption, and of a Secret its leases. Run, version and
reservation ids are numbers that have not been used before; a Task id is computed.
-/

namespace AgentColab.Schedules

open AgentColab

/-! ## Rows -/

/-- A row of `schedules`. -/
structure ScheduleRow where
  scheduleId : String
  workspaceId : String
  name : String
  status : ScheduleStatus := .draft
  currentVersionId : Option ℕ := none
  nextRunAt : Option Time := none
  lastPlannedUntil : Option Time := none
deriving DecidableEq

structure Criterion where
  statement : String
  checkType : String
  required : Bool
deriving DecidableEq

/-- `action_template`, with the parts of its `input` that are read. -/
structure ActionTemplate where
  action : String := "task_create"
  title : Option String := none
  domain : String := "general"
  risk : String := "LOW"
  criteria : List Criterion := []
  secretRefs : List String := []
deriving DecidableEq

/-- `retry_policy`; an absent key takes the default of `RetryPolicy`. -/
structure RetryPolicyColumn where
  maxAttempts : Option ℤ := none
  backoffSeconds : Option (List ℤ) := none
  jitterRatio : Option ℚ := none
deriving DecidableEq

/-- `budget_policy` -/
structure BudgetPolicyColumn where
  estimateCostUnits : Option ℤ := none
  perRunCostUnits : Option ℤ := none
  dailyCostUnits : Option ℤ := none
deriving DecidableEq

/-- The content of a version, which is only committed when its expression parses. -/
structure VersionContent where
  name : String
  channelId : String
  cronExpression : CronExpression
  timezone : String
  executionPrincipalId : String
  actionTemplate : ActionTemplate
  concurrencyPolicy : ConcurrencyPolicy := .forbid
  missedRunPolicy : MissedRunPolicy := .runOnce
  backfillLimit : ℤ := 0
  backfillWindowSeconds : ℤ := 0
  maxDurationSeconds : ℤ := 3600
  minIntervalMinutes : ℤ := 5
  retryPolicy : RetryPolicyColumn := {}
  budgetPolicy : BudgetPolicyColumn := {}
  startsAt : Option Time := none
  endsAt : Option Time := none
deriving DecidableEq

/-- A row of `schedule_versions`. Rows are never changed. -/
structure VersionRow extends VersionContent where
  id : ℕ
  scheduleId : String
  version : ℕ

/-- A row of `schedule_runs`. -/
structure RunRow where
  runId : ℕ
  workspaceId : String
  scheduleId : String
  scheduleVersionId : ℕ
  runKind : RunKind
  occurrenceKey : Option String := none
  scheduledFor : Time
  localScheduledFor : Option ℤ := none
  retryOfRunId : Option ℕ := none
  requestKey : Option String := none
  status : RunStatus
  attemptCount : ℕ := 0
  taskId : Option String := none
  idempotencyKey : String
  claimedBy : Option String := none
  claimedAt : Option Time := none
  leaseExpiresAt : Option Time := none
  heartbeatAt : Option Time := none
  startedAt : Option Time := none
  finishedAt : Option Time := none
  resultEventId : Option String := none
  errorCode : Option String := none
  cancelRequestedAt : Option Time := none
  cancelledAt : Option Time := none
  plannerNote : Option String := none
  requestedBy : Option String := none
deriving DecidableEq

/-- A row of `schedule_run_attempts`. -/
structure AttemptRow where
  runId : ℕ
  attemptNo : ℕ
  startedAt : Time
  finishedAt : Option Time
  result : Option String
  errorCode : Option String

/-- A row of `schedule_run_retries`; there is at most one for each Run. -/
structure RetryRow where
  runId : ℕ
  nextAttemptNo : ℕ
  nextAttemptAt : Time
  errorCode : String

/-- A row of `schedule_planner_notes`. -/
structure NoteRow where
  scheduleId : String
  occurrenceKey : String
  reason : String
  localTime : Option String := none
  scheduledFor : Option Time := none
  detail : Option String := none
  notedAt : Time

inductive BudgetScope where
  | scheduleRun (runId : ℕ)
  | scheduleDaily (scheduleId : String)
deriving DecidableEq

inductive ScopeType where
  | scheduleRun
  | scheduleDaily
deriving DecidableEq

def ScopeType.value : ScopeType → String
  | scheduleRun => "schedule_run"
  | scheduleDaily => "schedule_daily"

def BudgetScope.scopeType : BudgetScope → ScopeType
  | scheduleRun _ => .scheduleRun
  | scheduleDaily _ => .scheduleDaily

inductive ReservationStatus where
  | reserved
  | settled
  | exceeded
  | released
deriving DecidableEq

/-- A row of `budget_reservations`. `correlationId` is the Run named by the `BUDGET_RESERVED`
Event that is appended with the row. -/
structure ReservationRow where
  reservationId : ℕ
  scope : BudgetScope
  estimatedCostUnits : ℤ
  status : ReservationStatus := .reserved
  settledCostUnits : Option ℤ := none
  createdAt : Time
  settledAt : Option Time := none
  correlationId : ℕ

/-- A row of `schedule_run_budgets`. -/
structure RunBudgetRow where
  runId : ℕ
  scopeType : ScopeType
  reservationId : ℕ
  limitCostUnits : ℤ
  estimateCostUnits : ℤ
  status : ReservationStatus := .reserved
  settledCostUnits : Option ℤ := none
  settledAt : Option Time := none

/-- The fields of a `CreateTask` command. -/
structure CreateTask where
  title : String
  channelId : String
  domain : String
  risk : String
  criteria : List Criterion
deriving DecidableEq

/-- A `TASK_CREATED` Event: its idempotency key, the Task it creates, its correlation id and the
command it came from. -/
structure TaskRow where
  workspaceId : String
  actorAccountId : String
  idempotencyKey : String
  taskId : String
  correlationId : ℕ
  command : CreateTask

/-- A row of `approval_consumptions`. -/
structure ConsumptionRow where
  approvalId : String
  consumptionKey : String
deriving DecidableEq

structure LeaseRow where
  secretRef : String
  taskId : String

structure ScheduleTables where
  schedules : List ScheduleRow := []
  versions : List VersionRow := []
  runs : List RunRow := []
  attempts : List AttemptRow := []
  retries : List RetryRow := []
  notes : List NoteRow := []
  reservations : List ReservationRow := []
  runBudgets : List RunBudgetRow := []
  tasks : List TaskRow := []
  consumptions : List ConsumptionRow := []
  leases : List LeaseRow := []

/-! ## Columns -/

/-- The columns that an `UPDATE schedules` sets. -/
structure ScheduleCols where
  name : Option String := none
  status : Option ScheduleStatus := none
  currentVersionId : Option (Option ℕ) := none
  nextRunAt : Option (Option Time) := none
  lastPlannedUntil : Option (Option Time) := none

def ScheduleRow.set (row : ScheduleRow) (cols : ScheduleCols) : ScheduleRow :=
  { row with
    name := cols.name.getD row.name
    status := cols.status.getD row.status
    currentVersionId := cols.currentVersionId.getD row.currentVersionId
    nextRunAt := cols.nextRunAt.getD row.nextRunAt
    lastPlannedUntil := cols.lastPlannedUntil.getD row.lastPlannedUntil }

/-- The columns that an `UPDATE schedule_runs` sets. The others are pinned by a trigger or written
at the insert only. -/
structure RunCols where
  status : Option RunStatus := none
  attemptCount : Option ℕ := none
  taskId : Option (Option String) := none
  claimedBy : Option (Option String) := none
  claimedAt : Option (Option Time) := none
  leaseExpiresAt : Option (Option Time) := none
  heartbeatAt : Option (Option Time) := none
  startedAt : Option (Option Time) := none
  finishedAt : Option (Option Time) := none
  resultEventId : Option (Option String) := none
  errorCode : Option (Option String) := none
  cancelRequestedAt : Option (Option Time) := none
  cancelledAt : Option (Option Time) := none

def RunRow.set (row : RunRow) (cols : RunCols) : RunRow :=
  { row with
    status := cols.status.getD row.status
    attemptCount := cols.attemptCount.getD row.attemptCount
    taskId := cols.taskId.getD row.taskId
    claimedBy := cols.claimedBy.getD row.claimedBy
    claimedAt := cols.claimedAt.getD row.claimedAt
    leaseExpiresAt := cols.leaseExpiresAt.getD row.leaseExpiresAt
    heartbeatAt := cols.heartbeatAt.getD row.heartbeatAt
    startedAt := cols.startedAt.getD row.startedAt
    finishedAt := cols.finishedAt.getD row.finishedAt
    resultEventId := cols.resultEventId.getD row.resultEventId
    errorCode := cols.errorCode.getD row.errorCode
    cancelRequestedAt := cols.cancelRequestedAt.getD row.cancelRequestedAt
    cancelledAt := cols.cancelledAt.getD row.cancelledAt }

@[simp] theorem RunRow.runId_set (row : RunRow) (cols : RunCols) :
    (row.set cols).runId = row.runId := rfl

@[simp] theorem RunRow.status_set (row : RunRow) (cols : RunCols) :
    (row.set cols).status = cols.status.getD row.status := rfl

/-! ## Changes -/

inductive ScheduleWrite where
  | setSchedule (scheduleId : String) (cols : ScheduleCols)
  | insertVersion (row : VersionRow)
  | insertRun (row : RunRow)
  | setRun (runId : ℕ) (cols : RunCols)
  | insertAttempt (row : AttemptRow)
  | finishAttempt (runId attemptNo : ℕ) (finishedAt : Time) (result : String)
      (errorCode : Option String)
  | putRetry (row : RetryRow)
  | deleteRetry (runId : ℕ)
  | insertNote (row : NoteRow)
  | insertReservation (row : ReservationRow)
  | closeReservation (reservationId : ℕ) (status : ReservationStatus) (settled : Option ℤ)
      (settledAt : Time)
  | insertRunBudget (row : RunBudgetRow)
  | closeRunBudget (runId : ℕ) (scopeType : ScopeType) (status : ReservationStatus)
      (settled : Option ℤ) (settledAt : Time)
  | insertTask (row : TaskRow)
  | insertConsumption (row : ConsumptionRow)
  | insertLease (row : LeaseRow)

/-- Apply `f` to the rows that satisfy `p`. -/
def updateWhere {α : Type} (p : α → Bool) (f : α → α) (rows : List α) : List α :=
  rows.map fun row ↦ if p row then f row else row

namespace ScheduleTables

def apply (db : ScheduleTables) : ScheduleWrite → ScheduleTables
  | .setSchedule sid cols =>
    { db with schedules := updateWhere (·.scheduleId = sid) (·.set cols) db.schedules }
  | .insertVersion row => { db with versions := db.versions ++ [row] }
  | .insertRun row => { db with runs := db.runs ++ [row] }
  | .setRun rid cols => { db with runs := updateWhere (·.runId = rid) (·.set cols) db.runs }
  | .insertAttempt row => { db with attempts := db.attempts ++ [row] }
  | .finishAttempt rid no finishedAt result errorCode =>
    { db with
      attempts := updateWhere (fun a ↦ a.runId = rid && a.attemptNo = no)
        (fun a ↦ { a with
          finishedAt := some finishedAt, result := some result, errorCode := errorCode })
        db.attempts }
  | .putRetry row =>
    { db with retries := db.retries.filter (·.runId ≠ row.runId) ++ [row] }
  | .deleteRetry rid => { db with retries := db.retries.filter (·.runId ≠ rid) }
  | .insertNote row => { db with notes := db.notes ++ [row] }
  | .insertReservation row => { db with reservations := db.reservations ++ [row] }
  | .closeReservation res status settled settledAt =>
    { db with
      reservations := updateWhere (·.reservationId = res)
        (fun r ↦ { r with
          status := status, settledCostUnits := settled, settledAt := some settledAt })
        db.reservations }
  | .insertRunBudget row => { db with runBudgets := db.runBudgets ++ [row] }
  | .closeRunBudget rid scopeType status settled settledAt =>
    { db with
      runBudgets := updateWhere (fun b ↦ b.runId = rid && b.scopeType = scopeType)
        (fun b ↦ { b with
          status := status, settledCostUnits := settled, settledAt := some settledAt })
        db.runBudgets }
  | .insertTask row => { db with tasks := db.tasks ++ [row] }
  | .insertConsumption row => { db with consumptions := db.consumptions ++ [row] }
  | .insertLease row => { db with leases := db.leases ++ [row] }

/-! ## Reading rows -/

def schedule (db : ScheduleTables) (sid : String) : Option ScheduleRow :=
  db.schedules.find? (·.scheduleId = sid)

def version (db : ScheduleTables) (vid : ℕ) : Option VersionRow :=
  db.versions.find? (·.id = vid)

def run (db : ScheduleTables) (rid : ℕ) : Option RunRow :=
  db.runs.find? (·.runId = rid)

/-- `ORDER BY schedule_id` -/
def sortSchedules (rows : List ScheduleRow) : List ScheduleRow :=
  rows.insertionSort fun a b ↦ a.scheduleId ≤ b.scheduleId

/-- `ORDER BY scheduled_for`, and by id among Runs of the same instant. -/
def sortRuns (rows : List RunRow) : List RunRow :=
  rows.insertionSort fun a b ↦
    a.scheduledFor < b.scheduledFor ∨ a.scheduledFor = b.scheduledFor ∧ a.runId ≤ b.runId

end ScheduleTables

/-! ## Locks -/

/-- What can be locked: rows, keys of unique indexes, and the advisory lock of a budget scope. -/
inductive ScheduleLock where
  | schedule (scheduleId : String)
  | version (scheduleId : String) (version : ℕ)
  | run (runId : ℕ)
  | occurrence (scheduleId occurrenceKey : String)
  | idempotency (scheduleId idempotencyKey : String)
  | request (scheduleId : String) (runKind : RunKind) (requestKey : String)
  | attempt (runId attemptNo : ℕ)
  | retry (runId : ℕ)
  | note (scheduleId occurrenceKey reason : String)
  | reservation (reservationId : ℕ)
  | runBudget (runId : ℕ) (scopeType : ScopeType)
  | budget (scope : BudgetScope)
  | task (workspaceId actorAccountId idempotencyKey : String)
deriving DecidableEq

/-- The unique keys of a Run. A key with a null in it is not compared. -/
def RunRow.uniqueKeys (row : RunRow) : List ScheduleLock :=
  .run row.runId :: .idempotency row.scheduleId row.idempotencyKey ::
    ((row.occurrenceKey.map (.occurrence row.scheduleId)).toList ++
      (row.requestKey.map (.request row.scheduleId row.runKind)).toList)

/-- The keys a change touches. A consumption and a lease have keys of their own, which nothing
else names. -/
def ScheduleWrite.keys : ScheduleWrite → List ScheduleLock
  | setSchedule sid _ => [.schedule sid]
  | insertVersion row => [.version row.scheduleId row.version]
  | insertRun row => row.uniqueKeys
  | setRun rid _ => [.run rid]
  | insertAttempt row => [.attempt row.runId row.attemptNo]
  | finishAttempt rid no _ _ _ => [.attempt rid no]
  | putRetry row => [.retry row.runId]
  | deleteRetry rid => [.retry rid]
  | insertNote row => [.note row.scheduleId row.occurrenceKey row.reason]
  | insertReservation row => [.reservation row.reservationId]
  | closeReservation res _ _ _ => [.reservation res]
  | insertRunBudget row => [.runBudget row.runId row.scopeType]
  | closeRunBudget rid scopeType _ _ _ => [.runBudget rid scopeType]
  | insertTask row => [.task row.workspaceId row.actorAccountId row.idempotencyKey]
  | insertConsumption _ => []
  | insertLease _ => []

end AgentColab.Schedules
