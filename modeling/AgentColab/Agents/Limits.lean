import AgentColab.Domain.Uuid
import AgentColab.Tasks.Task

/-!
# Agent limits

A request of an Agent is held to the limits of the Agent: requests in a minute, Tasks at once, turns
in a day, and cost. The first limit that is reached refuses it, which leaves an audit row; a request
that passes is counted in the row of its minute.

The counts are read without a lock, in the transaction of the command.
-/

namespace AgentColab.Agents

open AgentColab Tasks

/-! ## Tables -/

/-- Of a row of `tasks_projection`, what the limits read, and the number of its last Event. -/
structure TaskRow where
  taskId : String
  assigneeAccountId : Option Uuid
  workspaceId : Uuid
  status : TaskStatus
  lastAggregateSeq : ℕ := 0

/-- The limits that are configured, which are not negative. -/
structure Limits where
  requestsPerMinute : Option ℕ := none
  concurrentTasks : Option ℕ := none
  brainstormTurns : Option ℕ := none
  dailyCostUnits : Option ℕ := none
  perTaskCostUnits : Option ℕ := none
  perTaskWallMs : Option ℕ := none

/-- `AgentRow`, of which the limits are enforced. -/
structure Agent where
  agentId : String
  accountId : Uuid
  workspaceId : Uuid
  limits : Limits

structure LimitCheck where
  limit : String
  configured : ℕ
  current : ℤ

def LimitCheck.exceeded (c : LimitCheck) : Bool := (c.configured : ℤ) ≤ c.current

/-- The counters of an Agent by the start of their minute, the Tasks, and the audit rows
`agent.limit_exceeded`. -/
structure Db where
  windows : String → Time → Option ℕ := fun _ _ ↦ none
  tasks : List TaskRow := []
  audits : List (String × LimitCheck) := []
  taskIds : (tasks.map (·.taskId)).Nodup := by exact List.nodup_nil

/-! ## Counts -/

def minute : Time := 60000000

def hour : Time := 3600000000

/-- `_minute` -/
def minuteOf (now : Time) : Time := now / minute * minute

/-- `rate_window_count` -/
def Db.rateWindowCount (db : Db) (agentId : String) (now : Time) : ℕ :=
  (db.windows agentId (minuteOf now)).getD 0

/-- `_count_request`: windows that are more than an hour old are deleted. -/
def Db.countRequest (db : Db) (agentId : String) (now : Time) : Db :=
  { db with
    windows := fun g w ↦
      if g = agentId then
        if w < minuteOf now - hour then none
        else if w = minuteOf now then some ((db.windows g w).getD 0 + 1)
        else db.windows g w
      else db.windows g w }

/-- `NON_TERMINAL` -/
def nonTerminal : List TaskStatus := [.accepted, .running, .waiting, .implemented, .verifying]

def Agent.Occupied (agent : Agent) (t : TaskRow) : Prop :=
  t.assigneeAccountId = some agent.accountId ∧ t.workspaceId = agent.workspaceId ∧
    t.status ∈ nonTerminal

instance (agent : Agent) (t : TaskRow) : Decidable (agent.Occupied t) := by
  unfold Agent.Occupied
  infer_instance

/-- `concurrent_tasks` -/
def Db.concurrentTasks (db : Db) (agent : Agent) : ℕ := db.tasks.countP fun t ↦ agent.Occupied t

/-- The Task that is being accepted is one of them already. -/
def Db.assigned (db : Db) (agent : Agent) (taskId : String) : Bool :=
  db.tasks.any fun t ↦ t.taskId = taskId && t.assigneeAccountId = some agent.accountId &&
    t.status ∈ nonTerminal

/-! ## `enforce_limits` -/

/-- `KINDS` -/
inductive Kind where
  | request
  | taskAccept
  | brainstormTurn
  | taskCost
  | taskWallTime
deriving DecidableEq

/-- The other counts that are read: the turns of the day, the units of the day and of the Task, and
its time. -/
structure Usage where
  brainstormTurns : ℕ := 0
  daily : ℕ := 0
  task : ℕ := 0
  wallMs : ℕ := 0

def check (limit : String) (configured : Option ℕ) (current : ℤ) : List LimitCheck :=
  (configured.map fun n ↦ ⟨limit, n, current⟩).toList

/-- `evaluate` -/
def Db.evaluate (db : Db) (agent : Agent) (kind : Kind) (now : Time) (taskId : Option String)
    (excludeTaskId : Option String) (usage : Usage) : List LimitCheck :=
  let limits := agent.limits
  let onTask := (taskId.filter (· ≠ "")).isSome
  check "requests_per_minute" limits.requestsPerMinute (db.rateWindowCount agent.agentId now) ++
  (if kind = .taskAccept then
    check "concurrent_tasks" limits.concurrentTasks
      ((db.concurrentTasks agent : ℤ) - if excludeTaskId.any (db.assigned agent) then 1 else 0)
  else []) ++ (if kind = .brainstormTurn then
    check "brainstorm_turns" limits.brainstormTurns usage.brainstormTurns
  else []) ++ (if kind ∈ [.taskCost, .request, .taskAccept] then
    check "daily_cost_units" limits.dailyCostUnits usage.daily ++
    if onTask then check "per_task_cost_units" limits.perTaskCostUnits usage.task else []
  else []) ++ if kind = .taskWallTime && onTask then
    check "per_task_wall_ms" limits.perTaskWallMs usage.wallMs
  else []

/-- The part of `enforce_limits` that decides: the first limit that is reached. -/
def Db.refusal (db : Db) (agent : Agent) (kind : Kind) (now : Time) (taskId : Option String)
    (usage : Usage) : Option LimitCheck :=
  (db.evaluate agent kind now taskId (if kind = .taskAccept then taskId else none) usage).find?
    (·.exceeded)

/-! ## Requests -/

/-- A request, with the Task that it is about and what `accept_task` has loaded of it. -/
structure Request where
  kind : Kind
  now : Time
  taskId : Option String := none
  loadedSeq : ℕ := 0

/-- `accept_task` loads a Task that the Agent can accept. -/
def Db.acceptable (db : Db) (agent : Agent) (taskId : String) : Option ℕ :=
  (db.tasks.find? fun t ↦ t.taskId = taskId && t.status = .delegated &&
    t.assigneeAccountId = some agent.accountId).map (·.lastAggregateSeq)

def TaskRow.accept (taskId : String) (t : TaskRow) : TaskRow :=
  if t.taskId = taskId then
    { t with status := .accepted, lastAggregateSeq := t.lastAggregateSeq + 1 }
  else t

/-- `TASK_ACCEPTED` is appended after the Events that were loaded, and the row is written. -/
def Db.accept (db : Db) (taskId : String) (loadedSeq : ℕ) : Option Db :=
  if db.tasks.any fun t ↦ t.taskId = taskId && t.lastAggregateSeq = loadedSeq then
    some { db with
      tasks := db.tasks.map (TaskRow.accept taskId)
      taskIds := by
        have hids : (fun t : TaskRow ↦ t.taskId) ∘ TaskRow.accept taskId = (·.taskId) :=
          funext fun t ↦ by
            rw [Function.comp_apply, TaskRow.accept]
            split <;> rfl
        rw [List.map_map, hids]
        exact db.taskIds }
  else none

/-- What a request that has passed writes: its count, and the acceptance of its Task. -/
def Db.write (db : Db) (agent : Agent) (r : Request) : Option Db :=
  let db :=
    if agent.limits.requestsPerMinute.isSome then db.countRequest agent.agentId r.now else db
  match r.kind, r.taskId with
  | .taskAccept, some taskId => db.accept taskId r.loadedSeq
  | _, _ => some db

end AgentColab.Agents
