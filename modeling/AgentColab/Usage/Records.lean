import AgentColab.Domain.Clock
import AgentColab.Domain.Uuid
import AgentColab.Transaction.Serial
import Mathlib

/-!
# Usage records and budget reservations

The tables of the budget package and the statements that it issues. A scope is spent twice: by the
cost of the usage recorded in it, and by the estimates of its open reservations. Both sums are over
a UTC day of the clock, but for the usage of a single Run.

The lock of a scope is an advisory lock, taken here on the text rather than on its 32-bit hash.
Appending an Event is one statement.
-/

namespace AgentColab.Usage

open AgentColab Transaction

/-! ## Rows -/

/-- `SCOPE_TYPES` -/
inductive ScopeType where
  | agentDaily
  | agentTask
  | channelDaily
  | scheduleRun
  | scheduleDaily
deriving DecidableEq

def ScopeType.value : ScopeType → String
  | agentDaily => "agent_daily"
  | agentTask => "agent_task"
  | channelDaily => "channel_daily"
  | scheduleRun => "schedule_run"
  | scheduleDaily => "schedule_daily"

structure BudgetScope where
  scopeType : ScopeType
  scopeId : String
deriving DecidableEq

/-- `aggregate_id`: at most 200 characters. -/
def BudgetScope.aggregateId (scope : BudgetScope) : String :=
  String.ofList (("bud-" ++ scope.scopeType.value ++ ":" ++ scope.scopeId).toList.take 200)

/-- A row of `usage_records`. -/
structure UsageRow where
  agentId : Option String := none
  taskId : Option String := none
  runId : Option String := none
  costUnits : ℕ
  reportedAt : Time

inductive ReservationStatus where
  | reserved
  | settled
  | exceeded
  | released
deriving DecidableEq

/-- A row of `budget_reservations`. An estimate is not negative by a `CHECK` of the table. -/
structure ReservationRow where
  reservationId : String
  workspaceId : Uuid
  scope : BudgetScope
  workItemId : Option String := none
  estimatedCostUnits : ℕ
  status : ReservationStatus := .reserved
  settledCostUnits : Option ℤ := none
  createdAt : Time
  settledAt : Option Time := none

inductive Payload where
  | exceeded (scope : BudgetScope) (limit requested used reserved : ℤ)
      (workItemId : Option String)
  | reserved (reservationId : String) (scope : BudgetScope) (costUnits : ℤ)
      (workItemId : Option String)
deriving DecidableEq

def Payload.type : Payload → String
  | exceeded .. => "BUDGET_EXCEEDED"
  | reserved .. => "BUDGET_RESERVED"

/-- A request to append an Event to the stream of a scope. -/
structure AppendRequest where
  workspaceId : String
  aggregateId : String
  actorAccountId : String
  correlationId : String
  idempotencyScope : String
  idempotencyKey : String
  payload : Payload

structure Event where
  eventId : ℕ
  request : AppendRequest

/-- A row of `schedule_runs`. -/
structure RunRow where
  runId : String
  scheduleId : String
  scheduledFor : Time

/-- A row of `schedule_run_budgets`. -/
structure RunBudgetRow where
  runId : String
  scopeType : ScopeType
  reservationId : String
  limitCostUnits : ℤ
  status : ReservationStatus := .reserved
  settledCostUnits : Option ℤ := none
  settledAt : Option Time := none
deriving DecidableEq

/-- A row of `budget_alerts` raised by a settlement. The notification that is queued with it is not
kept. -/
structure AlertRow where
  scheduleId : String
  runId : String
  scopeType : ScopeType
  actual : ℤ
  limit : ℤ
  raisedAt : Time

structure BudgetTables where
  usage : List UsageRow := []
  /-- The channel of a Task. -/
  channels : List (String × Uuid) := []
  reservations : List ReservationRow := []
  events : List Event := []
  runs : List RunRow := []
  runBudgets : List RunBudgetRow := []
  alerts : List AlertRow := []

/-! ## Sums -/

/-- `_day_window` -/
def dayWindow (now : Time) : Time × Time × ℤ :=
  let day := now / 86400000000
  (day * 86400000000, (day + 1) * 86400000000, day)

def inDay (day : ℤ) (t : Time) : Bool := day * 86400000000 ≤ t && t < (day + 1) * 86400000000

theorem inDay_iff {day : ℤ} {t : Time} : inDay day t = true ↔ t / 86400000000 = day := by
  have hday (t : ℤ) :
      day * 86400000000 ≤ t ∧ t < (day + 1) * 86400000000 ↔ t / 86400000000 = day := by
    omega
  simpa only [inDay, Bool.and_eq_true, decide_eq_true_eq] using hday t

def ScopeType.isDaily : ScopeType → Bool
  | scheduleRun => false
  | _ => true

/-- `str.partition("|")`, without the separator. -/
def partitionBar (s : String) : String × String :=
  (String.ofList (s.toList.takeWhile (· ≠ '|')),
    String.ofList ((s.toList.dropWhile (· ≠ '|')).tail))

/-- What a usage row has to satisfy to count in a scope. `none` is a `ValueError`. -/
def BudgetTables.scopeClause (db : BudgetTables) (scope : BudgetScope) (runIds : List String) :
    Option (UsageRow → Bool) :=
  match scope.scopeType with
  | .agentDaily => some fun u ↦ u.agentId = some scope.scopeId
  | .agentTask =>
    let (agentId, taskId) := partitionBar scope.scopeId
    some fun u ↦ u.agentId = some agentId && u.taskId = some taskId
  | .channelDaily =>
    (parseUuid scope.scopeId).map fun channel ↦ fun u ↦
      u.taskId.any fun t ↦ db.channels.lookup t = some channel
  | .scheduleRun => some fun u ↦ u.runId = some scope.scopeId
  | .scheduleDaily => some fun u ↦ u.runId.any fun r ↦ runIds.contains r

def costUnits (rows : List UsageRow) : ℕ := (rows.map (·.costUnits)).sum

/-- `usage_for` of a scope on a day, which only the daily scopes look at. -/
def BudgetTables.usageFor (db : BudgetTables) (scope : BudgetScope) (day : ℤ)
    (runIds : List String) : Option ℕ :=
  (db.scopeClause scope runIds).map fun clause ↦
    costUnits (db.usage.filter fun u ↦
      (!scope.scopeType.isDaily || inDay day u.reportedAt) && clause u)

/-- The open reservations of a scope that were made on a day, without one of them. -/
def BudgetTables.openReservations (db : BudgetTables) (scope : BudgetScope) (day : ℤ)
    (exclude : Option String) : List ReservationRow :=
  db.reservations.filter fun r ↦ r.scope = scope && r.status = .reserved &&
    inDay day r.createdAt && some r.reservationId ≠ exclude

def estimates (rows : List ReservationRow) : ℕ := (rows.map (·.estimatedCostUnits)).sum

/-! ## Changes -/

inductive BudgetWrite where
  | insertReservation (row : ReservationRow)
  | closeReservation (reservationId : String) (status : ReservationStatus)
      (settled : Option ℤ) (settledAt : Time)
  | insertEvent (event : Event)
  | closeRunBudget (runId : String) (scopeType : ScopeType) (status : ReservationStatus)
      (settled : Option ℤ) (settledAt : Time)
  | insertAlert (row : AlertRow)

/-- Settling sets the cost, releasing leaves it. -/
def ReservationRow.close (r : ReservationRow) (status : ReservationStatus) (settled : Option ℤ)
    (settledAt : Time) : ReservationRow :=
  { r with
    status := status
    settledCostUnits := settled.orElse fun _ ↦ r.settledCostUnits
    settledAt := some settledAt }

def RunBudgetRow.close (r : RunBudgetRow) (status : ReservationStatus) (settled : Option ℤ)
    (settledAt : Time) : RunBudgetRow :=
  { r with
    status := status
    settledCostUnits := settled.orElse fun _ ↦ r.settledCostUnits
    settledAt := some settledAt }

def BudgetTables.apply (db : BudgetTables) : BudgetWrite → BudgetTables
  | .insertReservation row => { db with reservations := db.reservations ++ [row] }
  | .closeReservation rid status settled settledAt =>
    { db with
      reservations := db.reservations.map fun r ↦
        if r.reservationId = rid then r.close status settled settledAt else r }
  | .insertEvent event => { db with events := db.events ++ [event] }
  | .closeRunBudget runId scopeType status settled settledAt =>
    { db with
      runBudgets := db.runBudgets.map fun b ↦
        if b.runId = runId ∧ b.scopeType = scopeType then b.close status settled settledAt else b }
  | .insertAlert row => { db with alerts := db.alerts ++ [row] }

inductive BudgetLock where
  /-- `pg_advisory_xact_lock` -/
  | scope (scope : BudgetScope)
  | reservation (reservationId : String)
  | event (workspaceId actorAccountId scope key : String)
  | runBudget (runId : String) (scopeType : ScopeType)
deriving DecidableEq

def Event.lock (e : Event) : BudgetLock :=
  .event e.request.workspaceId e.request.actorAccountId e.request.idempotencyScope
    e.request.idempotencyKey

def BudgetWrite.keys : BudgetWrite → List BudgetLock
  | insertReservation row => [.reservation row.reservationId]
  | closeReservation rid _ _ _ => [.reservation rid]
  | insertEvent event => [event.lock]
  | closeRunBudget runId scopeType _ _ _ => [.runBudget runId scopeType]
  | insertAlert _ => []

/-! ## Statements -/

inductive BudgetError where
  | command (code detail : String) (status : ℕ)
  /-- An `EventStoreError`. -/
  | store (code detail : String)
  | value
  | integrity (constraint : String)
  | outOfRange
deriving DecidableEq

inductive Op where
  | now
  /-- `uuid.uuid4().hex` -/
  | uuidHex
  | lockScope (scope : BudgetScope)
  | usageFor (scope : BudgetScope) (day : ℤ) (runIds : List String)
  | reserved (scope : BudgetScope) (day : ℤ) (exclude : Option String)
  | insertReservation (row : ReservationRow)
  /-- `_load_reservation`, `FOR UPDATE` -/
  | loadReservation (reservationId : String)
  | closeReservation (reservationId : String) (status : ReservationStatus)
      (settled : Option ℤ) (settledAt : Time)
  | append (request : AppendRequest)
  | runIdsForDay (scheduleId : String) (day : ℤ)
  | openRunBudgets (runId : String)
  | closeRunBudget (runId : String) (scopeType : ScopeType) (status : ReservationStatus)
      (settled : Option ℤ) (settledAt : Time)
  | insertAlert (row : AlertRow)

abbrev Res : Op → Type
  | .now => Time
  | .uuidHex => String
  | .lockScope _ => Unit
  | .usageFor _ _ _ => Except BudgetError ℕ
  | .reserved _ _ _ => ℕ
  | .insertReservation _ => Except BudgetError Unit
  | .loadReservation _ => Option ReservationRow
  | .closeReservation _ _ _ _ => Except BudgetError Unit
  | .append _ => Except BudgetError ℕ
  | .runIdsForDay _ _ => List String
  | .openRunBudgets _ => List RunBudgetRow
  | .closeRunBudget _ _ _ _ _ => Except BudgetError Unit
  | .insertAlert _ => Unit

/-- What the environment contributes to a statement. -/
structure BudgetInput where
  now : Time := 0
  uuidHex : String := ""
  /-- What the Event store raises besides a conflict. -/
  appendError : Option BudgetError := none

abbrev Eff (R : Type) := Effect BudgetWrite BudgetLock R

def read {R : Type} (result : R) : Eff R := ⟨result, [], []⟩

/-- Whether an Event was recorded for the same workspace, actor, scope and key. -/
def Event.sameKey (e : Event) (r : AppendRequest) : Bool :=
  e.request.workspaceId = r.workspaceId && e.request.actorAccountId = r.actorAccountId &&
    e.request.idempotencyScope = r.idempotencyScope &&
    e.request.idempotencyKey = r.idempotencyKey

def Event.sameBody (e : Event) (r : AppendRequest) : Bool :=
  e.request.aggregateId = r.aggregateId && e.request.payload = r.payload

/-- `PostgresEventStore.append` -/
def execAppend (inp : BudgetInput) (n : ℕ) (db : BudgetTables) (r : AppendRequest) :
    Eff (Except BudgetError ℕ) :=
  match db.events.find? (·.sameKey r) with
  | some prior =>
    if prior.sameBody r then ⟨.ok prior.eventId, [], [(Event.mk n r).lock]⟩
    else ⟨.error (.store "IDEMPOTENCY_CONFLICT" "same idempotency key with a different body"), [],
      [(Event.mk n r).lock]⟩
  | none =>
    match inp.appendError with
    | some e => ⟨.error e, [], [(Event.mk n r).lock]⟩
    | none => ⟨.ok n, [.insertEvent ⟨n, r⟩], [(Event.mk n r).lock]⟩

/-- Whether a value fits a column of type `integer`, of 32 bits, or `bigint`, of 64. -/
def fitsColumn (bits : ℕ) (x : ℤ) : Bool := -2 ^ (bits - 1) ≤ x && x < 2 ^ (bits - 1)

/-- The statement in the given view, with the nonce `n` and the environment's `inp`. -/
def execStatement (inp : BudgetInput) (n : ℕ) (db : BudgetTables) : (o : Op) → Eff (Res o)
  | .now => read inp.now
  | .uuidHex => read inp.uuidHex
  | .lockScope scope => ⟨(), [], [.scope scope]⟩
  | .usageFor scope day runIds =>
    read ((db.usageFor scope day runIds).elim (.error .value) .ok)
  | .reserved scope day exclude => read (estimates (db.openReservations scope day exclude))
  | .insertReservation row =>
    if db.reservations.any (·.reservationId = row.reservationId) then
      ⟨.error (.integrity "budget_reservations_reservation_id_key"), [],
        [.reservation row.reservationId]⟩
    else if fitsColumn 64 row.estimatedCostUnits then
      ⟨.ok (), [.insertReservation row], [.reservation row.reservationId]⟩
    else ⟨.error .outOfRange, [], [.reservation row.reservationId]⟩
  | .loadReservation rid =>
    ⟨db.reservations.find? (·.reservationId = rid), [], [.reservation rid]⟩
  | .closeReservation rid status settled settledAt =>
    if settled.all (fitsColumn 64) then
      ⟨.ok (), [.closeReservation rid status settled settledAt], [.reservation rid]⟩
    else ⟨.error .outOfRange, [], [.reservation rid]⟩
  | .append r => execAppend inp n db r
  | .runIdsForDay sid day =>
    read (((db.runs.filter fun r ↦ r.scheduleId = sid && inDay day r.scheduledFor).insertionSort
      fun a b ↦ a.scheduledFor ≤ b.scheduledFor).map (·.runId))
  | .openRunBudgets runId =>
    read (db.runBudgets.filter fun b ↦ b.runId = runId && b.status = .reserved)
  | .closeRunBudget runId scopeType status settled settledAt =>
    if settled.all (fitsColumn 32) then
      ⟨.ok (), [.closeRunBudget runId scopeType status settled settledAt],
        [.runBudget runId scopeType]⟩
    else ⟨.error .outOfRange, [], [.runBudget runId scopeType]⟩
  | .insertAlert row => ⟨(), [.insertAlert row], []⟩

theorem execStatement_locked (inp : BudgetInput) (n : ℕ) (db : BudgetTables) (o : Op) :
    ∀ x ∈ (execStatement inp n db o).writes, ∀ k ∈ x.keys,
      k ∈ (execStatement inp n db o).locks := by
  cases o with
  | insertReservation =>
    rw [execStatement]
    split
    · simp
    · split <;> simp [BudgetWrite.keys]
  | append =>
    rw [execStatement, execAppend]
    split
    · split <;> simp
    · split <;> simp [BudgetWrite.keys, Event.lock]
  | closeRunBudget | closeReservation =>
    rw [execStatement]
    split <;> simp [BudgetWrite.keys]
  | insertAlert => simp [execStatement, BudgetWrite.keys]
  | _ => simp [execStatement, read]

def budgetDatabase : Database Res where
  Store := BudgetTables
  Write := BudgetWrite
  Key := BudgetLock
  Input := BudgetInput
  decEqKey := inferInstance
  apply := BudgetTables.apply
  keys := BudgetWrite.keys
  exec inp n _ db o := execStatement inp n db o
  locked inp n _ db o := execStatement_locked inp n db o

end AgentColab.Usage
