import AgentColab.Schedules.Tables
import AgentColab.Transaction.Serial

/-!
# The statements of the scheduler

Everything a scheduler transaction asks of its surroundings: the SQL it issues on the schedule
tables, the clock, and the calls into other packages, whose answers are the environment's choice.

`FOR UPDATE` waits for a locked row and `FOR UPDATE SKIP LOCKED` passes over it. An insert takes the
unique keys of its row, unless a committed row already has one of them. A plain `SELECT` locks
nothing.
-/

namespace AgentColab.Schedules

open AgentColab Transaction
open ScheduleTables (sortRuns)

/-! ## Exceptions -/

/-- The exceptions that are told apart by a handler. -/
inductive ExecError where
  | contract (e : ScheduleContractError)
  | command (code detail : String)
  | transient (code detail : String)
  | secret (code detail : String)
  | approval (code detail : String)
  | eventStore (code detail : String)
  | cron (code detail : String)
  | lookup (detail : String)
  | value (detail : String)
  | other (name : String)

/-- A call whose effect is not on the schedule tables. -/
inductive External where
  | requirePermission (action : String)
  | replay (aggregateType scope : String)
  | appendEvent (aggregateType type scope key : String)
  | audit (action : String)
  | alert (kind : String) (runId : ℕ)
  | notice (kind : String) (runId : ℕ)
  | delegateTask (taskId agentId key : String)
  | cancelTask (taskId reasonCode key : String)
  | revokeLeases (taskId : String)
  | createTaskAllowed (principal : String)
  | validateContent (scheduleId : String)
  | consumeApprovalAllowed (approvalId : String)
  | issueLeaseAllowed (secretRef : String)

/-- What the live authority check found for a Run that may be executed. -/
structure Authority where
  agentId : Option String := none
  approvalId : Option String := none

/-! ## Statements -/

inductive Op where
  | now
  | schedulerPaused
  | systemPrincipal (workspaceId : String)
  /-- Execution reads a Schedule by its id alone, a command within its Workspace. -/
  | loadSchedule (workspaceId : Option String) (scheduleId : String) (forUpdate : Bool)
  | enabledSchedules (workspaceId : String)
  | loadVersion (versionId : ℕ)
  | loadRun (runId : ℕ) (forUpdate : Bool)
  | activeRuns (scheduleId : String)
  | pendingRuns (scheduleId : String)
  | runIdsForTask (taskId : String)
  | runIdsByStatus (workspaceId : String) (statuses : List RunStatus)
  | runIdsForDay (scheduleId : String) (day : ℤ)
  | findRunByRequestKey (scheduleId : String) (runKind : RunKind) (requestKey : String)
  | countRetries (runId : ℕ)
  | selectPending (workspaceId : String) (now : Time) (limit : ℕ)
  | selectDue (workspaceId : String) (now : Time) (limit : ℕ)
  | selectExpired (workspaceId : String) (now : Time)
  | dueRetries (now : Time) (limit : ℕ)
  | insertRun (row : ℕ → RunRow)
  /-- The statement names `run.runId`; `run` is the row as the caller has read it. -/
  | updateRun (run : RunRow) (cols : RunCols)
  | hasAttempt (runId attemptNo : ℕ)
  | addAttempt (runId : ℕ) (startedAt : Time) (finishedAt : Option Time)
      (result errorCode : Option String)
  | finishAttempt (runId attemptNo : ℕ) (finishedAt : Time) (result : String)
      (errorCode : Option String)
  | scheduleRetry (row : RetryRow)
  | clearRetry (runId : ℕ)
  | addPlannerNote (row : ℕ → NoteRow)
  | updateSchedule (scheduleId : String) (cols : ScheduleCols)
  | insertVersion (row : ℕ → VersionRow)
  | lockBudget (scope : BudgetScope)
  | usedCostUnits (scope : BudgetScope) (runIds : List ℕ)
  | usageFor (runId : ℕ)
  | reservedCostUnits (scope : BudgetScope) (day : ℤ) (exclude : Option ℕ)
  | countOverruns (scope : BudgetScope) (day : ℤ)
  | insertReservation (row : ℕ → ReservationRow)
  | insertRunBudget (row : RunBudgetRow)
  | openReservations (runId : ℕ)
  | loadReservation (reservationId : ℕ)
  | closeReservation (reservationId : ℕ) (status : ReservationStatus) (settled : Option ℤ)
      (settledAt : Time)
  | closeRunBudget (runId : ℕ) (scopeType : ScopeType) (status : ReservationStatus)
      (settled : Option ℤ) (settledAt : Time)
  | liveAuthority (version : VersionRow) (run : RunRow)
  | createTask (row : TaskRow)
  | consumeApproval (row : ConsumptionRow)
  | issueLease (row : LeaseRow)
  | external (call : External)
  | taskOpen (taskId : String)
  | randomRatio

abbrev Res : Op → Type
  | .now => Time
  | .schedulerPaused => Bool
  | .systemPrincipal _ => Option String
  | .loadSchedule _ _ _ => Option ScheduleRow
  | .enabledSchedules _ => List ScheduleRow
  | .loadVersion _ => Option VersionRow
  | .loadRun _ _ => Option RunRow
  | .activeRuns _ => List RunRow
  | .pendingRuns _ => List RunRow
  | .runIdsForTask _ => List ℕ
  | .runIdsByStatus _ _ => List ℕ
  | .runIdsForDay _ _ => List ℕ
  | .findRunByRequestKey _ _ _ => Option RunRow
  | .countRetries _ => ℕ
  | .selectPending _ _ _ => List ℕ
  | .selectDue _ _ _ => List ℕ
  | .selectExpired _ _ => List ℕ
  | .dueRetries _ _ => List ℕ
  | .insertRun _ => Option ℕ
  | .updateRun _ _ => Unit
  | .hasAttempt _ _ => Bool
  | .addAttempt _ _ _ _ _ => ℕ
  | .finishAttempt _ _ _ _ _ => Unit
  | .scheduleRetry _ => Unit
  | .clearRetry _ => Unit
  | .addPlannerNote _ => Bool
  | .updateSchedule _ _ => Unit
  | .insertVersion _ => ℕ
  | .lockBudget _ => Unit
  | .usedCostUnits _ _ => ℤ
  | .usageFor _ => ℤ
  | .reservedCostUnits _ _ _ => ℤ
  | .countOverruns _ _ => ℕ
  | .insertReservation _ => ℕ
  | .insertRunBudget _ => Unit
  | .openReservations _ => List RunBudgetRow
  | .loadReservation _ => Option ReservationRow
  | .closeReservation _ _ _ _ => Unit
  | .closeRunBudget _ _ _ _ _ => Unit
  | .liveAuthority _ _ => Except ExecError (Except (SkipCode × String) Authority)
  | .createTask _ => Except ExecError Unit
  | .consumeApproval _ => Unit
  | .issueLease _ => Unit
  | .external _ => Except ExecError (Option String)
  | .taskOpen _ => Bool
  | .randomRatio => ℚ

/-- What the environment contributes to a statement. -/
structure ScheduleInput where
  now : Time := 0
  paused : Bool := false
  systemPrincipal : Option String := some "system"
  authority : Except ExecError (Except (SkipCode × String) Authority) := .ok (.ok {})
  external : External → Except ExecError (Option String) := fun _ ↦ .ok none
  usage : ℤ := 0
  taskOpen : Bool := false
  randomRatio : ℚ := 0

/-! ## Execution -/

abbrev Eff (R : Type) := Effect ScheduleWrite ScheduleLock R

def read {R : Type} (result : R) : Eff R := ⟨result, [], []⟩

def utcDay (t : Time) : ℤ := t / 86400000000

/-- `Runs that meet the condition, in order, without the locked ones, up to the limit` -/
def ScheduleTables.unlocked (db : ScheduleTables) (held : ScheduleLock → Bool)
    (p : RunRow → Bool) (limit : Option ℕ) : List ℕ :=
  let rows := (sortRuns (db.runs.filter p)).filter fun r ↦ !held (.run r.runId)
  ((limit.map rows.take).getD rows).map (·.runId)

/-- Whether the keys of a new Run clash with a row. -/
def RunRow.conflicts (row other : RunRow) : Bool :=
  row.runId = other.runId || row.scheduleId = other.scheduleId &&
      (row.idempotencyKey = other.idempotencyKey ||
        (row.occurrenceKey.isSome && row.occurrenceKey = other.occurrenceKey) ||
        (row.requestKey.isSome && row.runKind = other.runKind && row.requestKey = other.requestKey))

/-- `INSERT INTO schedule_runs … ON CONFLICT DO NOTHING RETURNING run_id` -/
def execInsertRun (n : ℕ) (db : ScheduleTables) (row : ℕ → RunRow) : Eff (Option ℕ) :=
  if db.runs.any (row n).conflicts then read none
  else ⟨some (row n).runId, [.insertRun (row n)], (row n).uniqueKeys⟩

/-- `INSERT INTO schedule_planner_notes … ON CONFLICT DO NOTHING RETURNING id` -/
def execAddPlannerNote (db : ScheduleTables) (row : NoteRow) : Eff Bool :=
  if db.notes.any fun o ↦ o.scheduleId = row.scheduleId && o.occurrenceKey = row.occurrenceKey &&
      o.reason = row.reason then read false
  else ⟨true, [.insertNote row], [.note row.scheduleId row.occurrenceKey row.reason]⟩

/-- `add_attempt`: the next number, the row, and the count in the Run. -/
def execAddAttempt (db : ScheduleTables) (rid : ℕ) (startedAt : Time) (finishedAt : Option Time)
    (result errorCode : Option String) : Eff ℕ :=
  let own := db.attempts.filter (·.runId = rid)
  let no := (own.map (·.attemptNo)).foldl max 0 + 1
  ⟨no, [.insertAttempt ⟨rid, no, startedAt, finishedAt, result, errorCode⟩,
    .setRun rid { attemptCount := some (own.length + 1) }], [.attempt rid no, .run rid]⟩

/-- A repeated key with the same command gives back the original Event, with another command it is a
conflict. -/
def execCreateTask (db : ScheduleTables) (row : TaskRow) : Eff (Except ExecError Unit) :=
  match db.tasks.find? fun t ↦ t.workspaceId = row.workspaceId &&
      t.actorAccountId = row.actorAccountId && t.idempotencyKey = row.idempotencyKey with
  | some t =>
    if t.command = row.command then read (.ok ())
    else read (.error (.command "IDEMPOTENCY_CONFLICT" row.idempotencyKey))
  | none => ⟨.ok (), [.insertTask row],
      [.task row.workspaceId row.actorAccountId row.idempotencyKey]⟩

/-- `INSERT INTO schedule_run_budgets … ON CONFLICT (run_id, scope_type) DO NOTHING` -/
def execInsertRunBudget (db : ScheduleTables) (row : RunBudgetRow) : Eff Unit :=
  if db.runBudgets.any fun b ↦ b.runId = row.runId && b.scopeType = row.scopeType then read ()
  else ⟨(), [.insertRunBudget row], [.runBudget row.runId row.scopeType]⟩

/-- The open reservations of a scope that were made on a day. -/
def ScheduleTables.reservedOn (db : ScheduleTables) (scope : BudgetScope) (day : ℤ)
    (exclude : Option ℕ) : List ReservationRow :=
  db.reservations.filter fun r ↦ r.scope = scope && r.status = .reserved &&
    utcDay r.createdAt = day && some r.reservationId ≠ exclude

/-- The statement in the given view, with the nonce `n` and the environment's `inp`. -/
def execStatement (inp : ScheduleInput) (n : ℕ) (held : ScheduleLock → Bool)
    (db : ScheduleTables) : (o : Op) → Eff (Res o)
  | .now => read inp.now
  | .schedulerPaused => read inp.paused
  | .systemPrincipal _ => read inp.systemPrincipal
  | .loadSchedule ws sid forUpdate =>
    let row := (db.schedule sid).filter fun s ↦ ws.all (· = s.workspaceId)
    ⟨row, [], if forUpdate && row.isSome then [.schedule sid] else []⟩
  | .enabledSchedules ws =>
    let rows := ScheduleTables.sortSchedules (db.schedules.filter fun s ↦ s.workspaceId = ws &&
      s.status = .enabled && !held (.schedule s.scheduleId))
    ⟨rows, [], rows.map fun s ↦ .schedule s.scheduleId⟩
  | .loadVersion vid => read (db.version vid)
  | .loadRun rid forUpdate =>
    ⟨db.run rid, [], if forUpdate && (db.run rid).isSome then [.run rid] else []⟩
  | .activeRuns sid =>
    read (sortRuns (db.runs.filter fun r ↦ r.scheduleId = sid &&
      [.claimed, .taskCreated, .running, .verifying, .cancelRequested].contains r.status))
  | .pendingRuns sid =>
    let rows := sortRuns (db.runs.filter fun r ↦ r.scheduleId = sid &&
      [.pending, .due].contains r.status)
    ⟨rows, [], rows.map fun r ↦ .run r.runId⟩
  | .runIdsForTask tid => read ((db.runs.filter (·.taskId = some tid)).map (·.runId))
  | .runIdsByStatus ws statuses =>
    read ((sortRuns (db.runs.filter fun r ↦ r.workspaceId = ws &&
      statuses.contains r.status)).map (·.runId))
  | .runIdsForDay sid day =>
    read ((sortRuns (db.runs.filter fun r ↦ r.scheduleId = sid &&
      utcDay r.scheduledFor = day)).map (·.runId))
  | .findRunByRequestKey sid kind key =>
    read (db.runs.find? fun r ↦ r.scheduleId = sid && r.runKind = kind && r.requestKey = some key)
  | .countRetries rid => read (db.runs.countP (·.retryOfRunId = some rid))
  | .selectPending ws now limit =>
    let ids := db.unlocked held (fun r ↦ r.workspaceId = ws && r.status = .pending &&
      r.scheduledFor ≤ now) (some limit)
    ⟨ids, [], ids.map .run⟩
  | .selectDue ws now limit =>
    let ids := db.unlocked held (fun r ↦ r.workspaceId = ws && r.status = .due &&
      r.scheduledFor ≤ now) (some limit)
    ⟨ids, [], ids.map .run⟩
  | .selectExpired ws now =>
    let ids := db.unlocked held (fun r ↦ r.workspaceId = ws && r.status = .claimed &&
      r.leaseExpiresAt.any (· < now)) none
    ⟨ids, [], ids.map .run⟩
  | .dueRetries now limit =>
    let rows := (db.retries.filter fun r ↦ r.nextAttemptAt ≤ now).insertionSort
      fun a b ↦ a.nextAttemptAt ≤ b.nextAttemptAt
    let ids := ((rows.filter fun r ↦ !held (.retry r.runId)).take limit).map (·.runId)
    ⟨ids, [], ids.map .retry⟩
  | .insertRun row => execInsertRun n db row
  | .updateRun run cols => ⟨(), [.setRun run.runId cols], [.run run.runId]⟩
  | .hasAttempt rid no => read (db.attempts.any fun a ↦ a.runId = rid && a.attemptNo = no)
  | .addAttempt rid startedAt finishedAt result errorCode =>
    execAddAttempt db rid startedAt finishedAt result errorCode
  | .finishAttempt rid no finishedAt result errorCode =>
    ⟨(), [.finishAttempt rid no finishedAt result errorCode], [.attempt rid no]⟩
  | .scheduleRetry row => ⟨(), [.putRetry row], [.retry row.runId]⟩
  | .clearRetry rid => ⟨(), [.deleteRetry rid], [.retry rid]⟩
  | .addPlannerNote row => execAddPlannerNote db (row n)
  | .updateSchedule sid cols => ⟨(), [.setSchedule sid cols], [.schedule sid]⟩
  | .insertVersion row =>
    ⟨(row n).id, [.insertVersion (row n)], [.version (row n).scheduleId (row n).version]⟩
  | .lockBudget scope => ⟨(), [], [.budget scope]⟩
  | .usedCostUnits _ _ => read inp.usage
  | .usageFor _ => read inp.usage
  | .reservedCostUnits scope day exclude =>
    let total : ℤ := ((db.reservedOn scope day exclude).map (·.estimatedCostUnits)).sum
    read total
  | .countOverruns scope day =>
    read (db.reservations.countP fun r ↦ r.scope = scope && r.status = .exceeded &&
      r.settledAt.any (utcDay · = day))
  | .insertReservation row =>
    ⟨(row n).reservationId, [.insertReservation (row n)], [.reservation (row n).reservationId]⟩
  | .insertRunBudget row => execInsertRunBudget db row
  | .openReservations rid =>
    read (db.runBudgets.filter fun b ↦ b.runId = rid && b.status = .reserved)
  | .loadReservation res =>
    ⟨db.reservations.find? (·.reservationId = res), [], [.reservation res]⟩
  | .closeReservation res status settled settledAt =>
    ⟨(), [.closeReservation res status settled settledAt], [.reservation res]⟩
  | .closeRunBudget rid scopeType status settled settledAt =>
    ⟨(), [.closeRunBudget rid scopeType status settled settledAt], [.runBudget rid scopeType]⟩
  | .liveAuthority _ _ => read inp.authority
  | .createTask row => execCreateTask db row
  -- the same key is consumed once
  | .consumeApproval row =>
    if row ∈ db.consumptions then read () else ⟨(), [.insertConsumption row], []⟩
  | .issueLease row => ⟨(), [.insertLease row], []⟩
  | .external call => read (inp.external call)
  | .taskOpen _ => read inp.taskOpen
  | .randomRatio => read inp.randomRatio

theorem execStatement_locked (inp : ScheduleInput) (n : ℕ) (held : ScheduleLock → Bool)
    (db : ScheduleTables) (o : Op) : ∀ x ∈ (execStatement inp n held db o).writes, ∀ k ∈ x.keys,
      k ∈ (execStatement inp n held db o).locks := by
  cases o with
  | insertRun =>
    simp only [execStatement, execInsertRun]
    split_ifs <;> simp [read, ScheduleWrite.keys]
  | addAttempt =>
    simp [execStatement, execAddAttempt, ScheduleWrite.keys]
  | addPlannerNote =>
    simp only [execStatement, execAddPlannerNote]
    split_ifs <;> simp [read, ScheduleWrite.keys]
  | createTask =>
    simp only [execStatement, execCreateTask]
    split
    · split_ifs <;> simp [read]
    · simp [ScheduleWrite.keys]
  | insertRunBudget =>
    simp only [execStatement, execInsertRunBudget]
    split_ifs <;> simp [read, ScheduleWrite.keys]
  | consumeApproval =>
    simp only [execStatement]
    split_ifs <;> simp [read, ScheduleWrite.keys]
  | _ => simp [execStatement, read, ScheduleWrite.keys]

abbrev scheduleDatabase : Database Res where
  Store := ScheduleTables
  Write := ScheduleWrite
  Key := ScheduleLock
  Input := ScheduleInput
  decEqKey := inferInstance
  apply := ScheduleTables.apply
  keys := ScheduleWrite.keys
  exec := execStatement
  locked := execStatement_locked

abbrev Body (α : Type) := Prog Res ExecError α

end AgentColab.Schedules
