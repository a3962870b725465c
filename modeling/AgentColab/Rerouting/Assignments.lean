import AgentColab.Domain.Computation
import AgentColab.Tasks.Commands
import AgentColab.Work.Inbox

/-!
# Assignments and their work items

A delegation or a reassignment appends an Event to the stream of the Task, records the assignment
and, when the new assignee is an Agent, supersedes the open assignment items of the other Agents and
queues an item for this one.

A command is one transaction and runs alone. Of the Events the scope, the key and the actor are
kept, by which a command is replayed. What another package refuses is left to the environment.
-/

namespace AgentColab

namespace Rerouting

open Tasks (CommandError TaskStatus EventType nextStatus)
open Work (WorkItemError WorkItemState Action terminalStates assignmentKinds assignmentReroutes)

/-! ## Rows -/

/-- A row of `agents` with the public id of its account. -/
structure Agent where
  agentId : String
  accountUuid : String
  accountId : String

/-- The accounts of the Workspace by their public ids, and its Agents. An Agent has one account and
an account one Agent. -/
structure Config where
  accounts : List (String × String)
  agents : List Agent
  /-- The service account with the lowest public id. -/
  system : Option String
  agentIds : (agents.map Agent.agentId).Nodup
  agentAccounts : (agents.map Agent.accountUuid).Nodup
  joined : ∀ a ∈ agents, accounts.lookup a.accountId = some a.accountUuid

/-- `agent_for_account` -/
def Config.agentForAccount (cfg : Config) (uuid : String) : Option String :=
  (cfg.agents.find? (·.accountUuid = uuid)).map Agent.agentId

/-- The scope, the idempotency key and the actor of a command. -/
structure CommandKey where
  scope : String
  key : String
  actor : String
deriving DecidableEq

structure Task where
  taskId : String
  status : TaskStatus
  parentTaskId : Option String
  assigneeAccountId : Option String
  assignmentRevision : ℕ
  commands : List CommandKey

/-- A row of `task_assignments`. -/
structure AssignmentRow where
  taskId : String
  revision : ℕ
  delegatorAccountId : String
  assigneeAccountId : String
  reasonCode : String

/-- A row of `work_items`, with the assignment revision of its payload. -/
structure WorkItem where
  workItemId : String
  kind : String
  agentId : String
  taskId : Option String
  assignmentRevision : ℕ
  idempotencyKey : String
  deadline : Time
  status : WorkItemState
  deliveryCount : ℕ
  deliveredAt : Option Time
  ackedAt : Option Time
  acceptedAt : Option Time
deriving DecidableEq

/-- An item that `open_items` returns. -/
def WorkItem.Open (i : WorkItem) : Prop := i.status ∉ terminalStates

instance (i : WorkItem) : Decidable i.Open := by
  unfold WorkItem.Open
  infer_instance

def WorkItem.Assigns (i : WorkItem) (taskId : String) : Prop :=
  i.taskId = some taskId ∧ i.kind ∈ assignmentKinds

instance (i : WorkItem) (taskId : String) : Decidable (i.Assigns taskId) := by
  unfold WorkItem.Assigns
  infer_instance

/-- A Task that has been re-routed: the item that was the cause, the accounts that had been assigned
before, and the Task before and after. -/
structure Rerouted where
  trigger : Option WorkItem
  earlier : List String
  before : Task
  after : Task

/-- The re-routings that have been made are kept as a history. -/
structure World where
  tasks : String → Option Task
  /-- The Tasks of the projection. -/
  taskIds : List String
  assignments : List AssignmentRow
  /-- In the order of creation. -/
  items : List WorkItem
  history : List Rerouted

/-- What a command gets from other packages: the clock, the refusals, the eligible Agents for a
Task, the best first, and the identity of the item with a key. -/
structure Env where
  now : Time
  refuse : String → String → Option CommandError
  ranked : String → List String
  newWorkItemId : String → String

def Env.external (env : Env) (call taskId : String) : Except CommandError Unit :=
  match env.refuse call taskId with
  | some e => .error e
  | none => .ok ()

namespace World

/-! ## Items -/

def openItems (w : World) : List WorkItem := w.items.filter fun i ↦ i.Open

/-- `inbox.load` -/
def item (w : World) (workItemId : String) : Except WorkItemError WorkItem :=
  match w.items.find? (·.workItemId = workItemId) with
  | some i => .ok i
  | none => .error ⟨"WORK_ITEM_NOT_FOUND", workItemId⟩

/-- `_set` -/
def setItem (w : World) (workItemId : String) (f : WorkItem → WorkItem) : World :=
  { w with items := w.items.map fun i ↦ if i.workItemId = workItemId then f i else i }

/-- A change of the state of an item, with the columns that it sets. -/
def moveItem (w : World) (workItemId : String) (action : Action) (f : WorkItem → WorkItem) :
    Except WorkItemError World := do
  let i ← w.item workItemId
  let status ← Work.transition i.status action
  return w.setItem workItemId fun j ↦ { f j with status := status }

/-- `inbox.cancel` -/
def cancel (w : World) (workItemId : String) : Except WorkItemError World :=
  w.moveItem workItemId .cancel fun i ↦ i

/-- An item that cannot be cancelled is passed over. -/
def cancelOrSkip (w : World) (i : WorkItem) : World :=
  match w.cancel i.workItemId with
  | .ok w' => w'
  | .error _ => w

/-- `cancel_open_assignments`, and `_cancel_assignments` without an Agent to keep. -/
def cancelOpenAssignments (w : World) (taskId : String) (keepAgentId : Option String) : World :=
  (w.openItems.filter fun i ↦ i.Assigns taskId ∧ keepAgentId ≠ some i.agentId).foldl cancelOrSkip w

def assignKey (taskId : String) (revision : ℕ) : String :=
  "assign:" ++ taskId ++ ":" ++ toString revision

/-- `ASSIGNMENT_DEADLINE` -/
def assignmentDeadline : Time := 24 * 60 * 60 * 1000000

def newItem (env : Env) (t : Task) (agentId : String) : WorkItem where
  workItemId := env.newWorkItemId (assignKey t.taskId t.assignmentRevision)
  kind :=
    if (Tasks.orElse t.parentTaskId none).isSome then "subtask_assignment" else "task_assignment"
  agentId := agentId
  taskId := some t.taskId
  assignmentRevision := t.assignmentRevision
  idempotencyKey := assignKey t.taskId t.assignmentRevision
  deadline := env.now + assignmentDeadline
  status := .queued
  deliveryCount := 0
  deliveredAt := none
  ackedAt := none
  acceptedAt := none

/-- `inbox.enqueue`; a large payload is refused by the environment. -/
def enqueue (w : World) (env : Env) (taskId : String) (new : WorkItem) :
    Except CommandError World :=
  match w.items.find? (·.idempotencyKey = new.idempotencyKey) with
  | some i =>
    if i.agentId ≠ new.agentId ∨ i.kind ≠ new.kind then
      .error ⟨"IDEMPOTENCY_CONFLICT", "same key with a different work item", 409⟩
    else .ok w
  | none => do
    env.external "enqueue" taskId
    -- the primary key
    if ∃ i ∈ w.items, i.workItemId = new.workItemId then
      throw ⟨"IntegrityError", new.workItemId, 500⟩
    else return { w with items := w.items ++ [new] }

/-- `after_assignment` -/
def afterAssignment (cfg : Config) (env : Env) (w : World) (t : Task) : Except CommandError World :=
  match t.assigneeAccountId with
  | none => .ok w
  | some account =>
    match cfg.agentForAccount account with
    -- the early return: open items of other Agents are left
    | none => .ok w
    | some agentId =>
      (w.cancelOpenAssignments t.taskId (some agentId)).enqueue env t.taskId (newItem env t agentId)

/-! ## Tasks -/

/-- `load_task` -/
def load (w : World) (taskId : String) : Except CommandError Task :=
  match w.tasks taskId with
  | some t => .ok t
  | none => .error ⟨"TASK_NOT_FOUND", taskId, 404⟩

def setTask (w : World) (t : Task) : World :=
  { w with tasks := Function.update w.tasks t.taskId (some t) }

/-- `_account_uuid` -/
def accountUuid (cfg : Config) (accountId : String) : Except CommandError String :=
  match cfg.accounts.lookup accountId with
  | some uuid => .ok uuid
  | none => .error ⟨"ACCOUNT_NOT_FOUND", accountId, 404⟩

/-- `_transition` without the replay; `detail` is what the Event sets besides the status. -/
def transition (w : World) (env : Env) (c : CommandKey) (t : Task) (etype : EventType)
    (detail : Task → Task) : Except CommandError (World × Task) := do
  let status ← (nextStatus t.status etype).mapError Tasks.conflict
  env.external "append" t.taskId
  let t' := detail { t with status := status, commands := t.commands ++ [c] }
  return (w.setTask t', t')

/-- What `TASK_DELEGATED` and `TASK_REASSIGNED` set. -/
def assigned (uuid : String) (t : Task) : Task :=
  { t with assigneeAccountId := some uuid, assignmentRevision := t.assignmentRevision + 1 }

/-- `_record_assignment` -/
def recordAssignment (w : World) (t : Task) (actor uuid reasonCode : String) : World :=
  { w with
    assignments := w.assignments ++ [⟨t.taskId, t.assignmentRevision, actor, uuid, reasonCode⟩] }

/-- What `delegate_task` and `reassign_task` do, unless the command is a replay. -/
def assign (cfg : Config) (env : Env) (w : World) (c : CommandKey) (t : Task) (etype : EventType)
    (uuid reasonCode : String) : Except CommandError World := do
  let (w, t) ← w.transition env c t etype (assigned uuid)
  (w.recordAssignment t c.actor uuid reasonCode).afterAssignment cfg env t

def delegateTask (cfg : Config) (env : Env) (w : World) (actor key taskId assignee reasonCode :
    String) : Except CommandError World := do
  let t ← w.load taskId
  env.external "require_permission task.delegate" taskId
  let uuid ← accountUuid cfg assignee
  let c : CommandKey := ⟨"task:delegate", key, actor⟩
  if c ∈ t.commands then return w
  else
    let _ ← (nextStatus t.status .taskDelegated).mapError Tasks.conflict
    env.external "pre_delegate_checks" taskId
    assign cfg env w c t .taskDelegated uuid reasonCode

def reassignTask (cfg : Config) (env : Env) (w : World) (actor key taskId assignee reasonCode :
    String) : Except CommandError World := do
  let t ← w.load taskId
  env.external "require_permission task.reassign" taskId
  let uuid ← accountUuid cfg assignee
  let c : CommandKey := ⟨"task:reassign", key, actor⟩
  if c ∈ t.commands then return w
  else assign cfg env w c t .taskReassigned uuid reasonCode

/-- The commands that neither delegate nor reassign; `call` are the checks of the handler. -/
def plainCommand (env : Env) (w : World) (c : CommandKey) (taskId : String) (etype : EventType) :
    Except CommandError World := do
  let t ← w.load taskId
  env.external c.scope taskId
  if c ∈ t.commands then return w
  else
    let (w, _) ← w.transition env c t etype fun t ↦ t
    return w

end World

end Rerouting

end AgentColab
