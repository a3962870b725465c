import AgentColab.Rerouting.Assignments

/-!
# Re-routing

The rejection of an assignment, an acceptance that does not come in time, an Agent that is gone and
a spent budget lead to the same function: the next eligible Agent that has not been assigned yet
gets the Task, once, and otherwise the Task waits. It does not look at the item that has been
rejected or has timed out.
-/

namespace AgentColab.Rerouting

open Tasks (CommandError TaskStatus EventType)
open Work (WorkItemError WorkItemState NextAction assignmentKinds assignmentReroutes)

/-! ## Re-routing a Task -/

/-- `REROUTE_REASONS` -/
def rerouteReasons : List String :=
  ["CAPABILITY_UNSUPPORTED", "CAPACITY", "POLICY", "OTHER", "ACCEPT_TIMEOUT", "AGENT_OFFLINE",
    "AGENT_REVOKED", "AGENT_SUSPENDED", "BUDGET_EXCEEDED"]

/-- `REROUTABLE` -/
def reroutable : List TaskStatus := [.delegated, .accepted, .running, .waiting]

/-- `REROUTE_PREFIX` -/
def reroutePrefix : String := "REROUTE_"

/-- `LIKE 'REROUTE_%'`, where the underscore stands for any character. -/
def likeReroute (reasonCode : String) : Bool :=
  "REROUTE".toList.isPrefixOf reasonCode.toList && decide (7 < reasonCode.toList.length)

/-- `routing.candidates`, of the Agents that are eligible but for the exclusion. -/
def Config.candidates (cfg : Config) (ranked excluded : List String) : List Agent :=
  (ranked.filterMap fun id ↦ cfg.agents.find? (·.agentId = id)).filter fun a ↦
    a.accountUuid ∉ excluded ∧ a.accountId ∉ excluded

namespace World

/-- `reroute_count` -/
def rerouteCount (w : World) (taskId : String) : ℕ :=
  w.assignments.countP fun r ↦ r.taskId = taskId ∧ likeReroute r.reasonCode

/-- `previous_assignees` -/
def previousAssignees (w : World) (taskId : String) : List String :=
  (w.assignments.filter (·.taskId = taskId)).map AssignmentRow.assigneeAccountId

/-- The candidate of `reroute_task`. -/
def rerouteCandidate (cfg : Config) (env : Env) (w : World) (t : Task) : Option Agent :=
  if w.rerouteCount t.taskId < assignmentReroutes then
    (cfg.candidates (env.ranked t.taskId)
      (w.previousAssignees t.taskId ++ t.assigneeAccountId.toList)).head?
  else none

/-- `reroute_task` without a candidate. -/
def waitForCandidate (env : Env) (w : World) (actor : String) (t : Task) :
    Except CommandError World :=
  let w := w.cancelOpenAssignments t.taskId none
  if t.status = .waiting then .ok w
  else
    w.plainCommand env ⟨"task:wait", "reroute-wait:" ++ t.taskId ++ ":" ++
      toString (t.assignmentRevision + 1), actor⟩ t.taskId .taskWaiting

/-- `reroute_task` of a Task in a status that can be re-routed. -/
def rerouteTo (cfg : Config) (env : Env) (w : World) (actor reason : String) (t : Task) :
    Except CommandError World :=
  match w.rerouteCandidate cfg env t with
  | some a =>
    w.reassignTask cfg env actor
      ("reroute:" ++ t.taskId ++ ":" ++ toString (t.assignmentRevision + 1)) t.taskId a.accountId
      (reroutePrefix ++ reason)
  | none => w.waitForCandidate env actor t

def record (w : World) (trigger : Option WorkItem) (earlier : List String) (before : Task) :
    World :=
  { w with history := w.history ++
      [⟨trigger, earlier, before, (w.tasks before.taskId).getD before⟩] }

def rerouteTask (cfg : Config) (env : Env) (w : World) (actor taskId reason : String)
    (trigger : Option WorkItem) : Except CommandError World := do
  if reason ∉ rerouteReasons then throw ⟨"REROUTE_REASON_INVALID", reason, 400⟩
  else
    let t ← w.load taskId
    if t.status ∉ reroutable then return w
    else
      let w' ← w.rerouteTo cfg env actor reason t
      return w'.record trigger (w.previousAssignees taskId) t

/-! ## The triggers -/

/-- `_wrap` -/
def wrap (e : WorkItemError) : CommandError :=
  ⟨e.code, e.detail, if e.code ∈ ["WORK_ITEM_NOT_FOUND", "WORK_ITEM_NOT_OWNER"] then 404
    else if e.code.endsWith "_INVALID" then 422 else 409⟩

/-- `system_principal` -/
def systemPrincipal (cfg : Config) : Except CommandError String :=
  match cfg.system with
  | some actor => .ok actor
  | none => .error ⟨"SYSTEM_ACCOUNT_MISSING", "no service Account", 409⟩

def ownItem (w : World) (workItemId agentId : String) : Except WorkItemError WorkItem := do
  let i ← w.item workItemId
  if i.agentId ≠ agentId then
    throw ⟨"WORK_ITEM_NOT_OWNER", i.workItemId ++ " is not owned by " ++ agentId⟩
  else return i

/-- `inbox.reject` -/
def reject (w : World) (workItemId agentId reason : String) : Except WorkItemError World := do
  if reason ∉ Work.rejectionCodes then throw ⟨"WORK_ITEM_REJECTION_CODE_INVALID", reason⟩
  else
    let _ ← w.ownItem workItemId agentId
    w.moveItem workItemId .reject fun i ↦ i

/-- `on_work_rejected`, the hook of a rejection: without a system account nothing is re-routed, and
a Task that is gone is passed over. -/
def onWorkRejected (cfg : Config) (env : Env) (w : World) (i : WorkItem) (reason : String) :
    Except CommandError World :=
  match i.taskId, cfg.system with
  | some taskId, some actor =>
    if i.kind ∉ assignmentKinds then .ok w
    else
      match w.rerouteTask cfg env actor taskId reason (some i) with
      | .ok w' => .ok w'
      | .error e => if e.code = "TASK_NOT_FOUND" then .ok w else .error e
  | _, _ => .ok w

/-- `work_reject` -/
def workReject (cfg : Config) (env : Env) (w : World) (workItemId agentId reason : String) :
    Except CommandError World := do
  env.external "require_permission work.poll" workItemId
  let w ← (w.reject workItemId agentId reason).mapError wrap
  let i ← (w.item workItemId).mapError wrap
  w.onWorkRejected cfg env i reason

/-- What a sweep of the inbox leaves to the router, by the ids of the items. -/
structure SweepReport where
  rerouteRequired : List String := []
  waitingRequired : List String := []

/-- `requeue_for_redelivery` -/
def requeue (w : World) (workItemId : String) : Except WorkItemError World := do
  let i ← w.item workItemId
  let _ ← Work.transition i.status .redeliver
  return w.setItem workItemId fun j ↦ { j with status := .queued }

/-- The body of the loop of `sweep`. -/
def sweepOne (now : Time) (rerouteCounts : String → ℕ) (s : World × SweepReport) (i : WorkItem) :
    Except WorkItemError (World × SweepReport) :=
  match Work.nextAction i.status i.deliveredAt i.ackedAt now i.deliveryCount i.kind i.acceptedAt
      (rerouteCounts i.workItemId) i.deadline with
  -- a malformed row
  | .error _ => .ok s
  | .ok d =>
    match d.action with
    | .none => .ok s
    | .redeliver => (s.1.requeue i.workItemId).map fun w ↦ (w, s.2)
    | .expire => (s.1.moveItem i.workItemId .expire fun j ↦ j).map fun w ↦ (w, s.2)
    | .reroute =>
      .ok (s.1, { s.2 with rerouteRequired := s.2.rerouteRequired ++ [i.workItemId] })
    | .waiting =>
      .ok (s.1, { s.2 with waitingRequired := s.2.waitingRequired ++ [i.workItemId] })

/-- `sweep` -/
def sweep (w : World) (now : Time) (rerouteCounts : String → ℕ) :
    Except WorkItemError (World × SweepReport) :=
  w.openItems.foldlM (sweepOne now rerouteCounts) (w, {})

/-- The body of the loop of `process_sweep`. -/
def processOutcome (cfg : Config) (env : Env) (actor : String) (w : World) (workItemId : String) :
    Except CommandError World :=
  match w.item workItemId with
  | .error _ => .ok w
  | .ok i =>
    match i.taskId with
    | none => .ok w
    | some taskId => w.rerouteTask cfg env actor taskId "ACCEPT_TIMEOUT" (some i)

/-- `_sweep_work_items`: the sweep, and `process_sweep` of its report. -/
def sweepWorkItems (cfg : Config) (env : Env) (w : World) (rerouteCounts : String → ℕ) :
    Except CommandError World := do
  let actor ← systemPrincipal cfg
  let (w, report) ← (w.sweep env.now rerouteCounts).mapError wrap
  (report.rerouteRequired ++ report.waitingRequired).foldlM (processOutcome cfg env actor) w

/-- The Tasks that `on_agent_unavailable` selects. -/
def assignedTo (w : World) (uuid : String) : List String :=
  w.taskIds.filter fun id ↦ (w.tasks id).any fun t ↦
    t.assigneeAccountId = some uuid ∧ t.status ∈ reroutable

def onAgentUnavailable (cfg : Config) (env : Env) (w : World) (agentId reason : String) :
    Except CommandError World :=
  match cfg.agents.find? (·.agentId = agentId) with
  | none => .ok w
  | some a => do
    let actor ← systemPrincipal cfg
    (w.assignedTo a.accountUuid).foldlM (fun w id ↦ w.rerouteTask cfg env actor id reason none) w

def onBudgetExceeded (cfg : Config) (env : Env) (w : World) (taskId : String) :
    Except CommandError World := do
  let actor ← systemPrincipal cfg
  w.rerouteTask cfg env actor taskId "BUDGET_EXCEEDED" none

/-! ## What the owner of an item does -/

/-- The transition of `poll`: an item that has been delivered before takes the one from
`DELIVERED`. -/
def deliveryTransition (i : WorkItem) : Except WorkItemError WorkItemState :=
  if 0 < i.deliveryCount then Work.transition .delivered .redeliver
  else Work.transition i.status .deliver

/-- What `poll` does to an item. -/
def deliver (w : World) (now : Time) (workItemId agentId : String) :
    Except WorkItemError World := do
  let i ← w.ownItem workItemId agentId
  if i.status ≠ .queued then return w
  else
    let status ← deliveryTransition i
    return w.setItem workItemId fun j ↦
      { j with status := status, deliveryCount := j.deliveryCount + 1, deliveredAt := some now }

def ack (w : World) (now : Time) (workItemId agentId : String) : Except WorkItemError World := do
  let i ← w.ownItem workItemId agentId
  if i.status ∈ [WorkItemState.acked, .inProgress] then return w
  else w.moveItem workItemId .ack fun j ↦ { j with ackedAt := some now }

def startItem (w : World) (now : Time) (workItemId agentId : String) :
    Except WorkItemError World := do
  let i ← w.ownItem workItemId agentId
  if i.status = .inProgress then return w
  else w.moveItem workItemId .start fun j ↦ { j with acceptedAt := some now }

/-- `result`; one for an item that has ended is ignored, and one for a delivered item implies the
acknowledgement. -/
def result (w : World) (now : Time) (workItemId agentId : String) : Except WorkItemError World := do
  let i ← w.ownItem workItemId agentId
  if ¬ i.Open then return w
  else
    let w ← if i.status = .delivered then w.ack now workItemId agentId else pure w
    w.moveItem workItemId .result fun j ↦ j

/-- `CREATE_TASK` and `CREATE_SUBTASK`, as far as an assignment reads the Task. -/
def createTask (w : World) (taskId : String) (parentTaskId : Option String) :
    Except CommandError World :=
  match w.tasks taskId with
  | some _ => .error ⟨"SEQUENCE_CONFLICT", taskId, 409⟩
  | none => .ok
    { w.setTask ⟨taskId, .open', parentTaskId, none, 0, []⟩ with taskIds := w.taskIds ++ [taskId] }

end World

/-! ## Steps -/

inductive Label where
  | createTask (taskId : String) (parentTaskId : Option String)
  | delegate (actor key taskId assignee reasonCode : String)
  | reassign (actor key taskId assignee reasonCode : String)
  | command (c : CommandKey) (taskId : String) (etype : EventType)
  | deliver (workItemId agentId : String)
  | ack (workItemId agentId : String)
  | start (workItemId agentId : String)
  | result (workItemId agentId : String)
  | reject (workItemId agentId reason : String)
  | sweep (rerouteCounts : String → ℕ)
  | agentUnavailable (agentId reason : String)
  | budgetExceeded (taskId : String)

def assignmentEvents : List EventType := [.taskDelegated, .taskReassigned]

/-- A command, which is rolled back when it is refused. -/
def World.step (cfg : Config) (env : Env) (w : World) : Label → Except CommandError World
  | .createTask taskId parentTaskId => w.createTask taskId parentTaskId
  | .delegate actor key taskId assignee reasonCode =>
    w.delegateTask cfg env actor key taskId assignee reasonCode
  | .reassign actor key taskId assignee reasonCode =>
    w.reassignTask cfg env actor key taskId assignee reasonCode
  | .command c taskId etype =>
    if etype ∈ assignmentEvents then .error ⟨"COMMAND_UNKNOWN", etype.value, 404⟩
    else w.plainCommand env c taskId etype
  | .deliver workItemId agentId => (w.deliver env.now workItemId agentId).mapError World.wrap
  | .ack workItemId agentId => (w.ack env.now workItemId agentId).mapError World.wrap
  | .start workItemId agentId => (w.startItem env.now workItemId agentId).mapError World.wrap
  | .result workItemId agentId => (w.result env.now workItemId agentId).mapError World.wrap
  | .reject workItemId agentId reason => w.workReject cfg env workItemId agentId reason
  | .sweep rerouteCounts => w.sweepWorkItems cfg env rerouteCounts
  | .agentUnavailable agentId reason => w.onAgentUnavailable cfg env agentId reason
  | .budgetExceeded taskId => w.onBudgetExceeded cfg env taskId

def World.start : World where
  tasks := fun _ ↦ none
  taskIds := []
  assignments := []
  items := []
  history := []

inductive Run (cfg : Config) (C : World → Env → Label → Prop) : World → Prop
  | start : Run cfg C World.start
  | step {w w' : World} {env : Env} {l : Label} (h : Run cfg C w) (hC : C w env l)
      (hstep : w.step cfg env l = .ok w') : Run cfg C w'

/-! ## What is promised -/

/-- The re-routing has given the Task a new assignment. -/
def Rerouted.Reassigned (r : Rerouted) : Prop :=
  r.after.assignmentRevision ≠ r.before.assignmentRevision

instance (r : Rerouted) : Decidable r.Reassigned := by
  unfold Rerouted.Reassigned
  infer_instance

def WorkItem.OpenFor (i : WorkItem) (taskId : String) : Prop := i.Open ∧ i.Assigns taskId

instance (i : WorkItem) (taskId : String) : Decidable (i.OpenFor taskId) := by
  unfold WorkItem.OpenFor
  infer_instance

/-- What is promised of the items, and of what is done about them. -/
structure Follows (cfg : Config) (w : World) : Prop where
  /-- An open item belongs to the assignee and to the assignment revision of its Task. -/
  current : ∀ i ∈ w.items, ∀ t, i.OpenFor t → ∃ task, w.tasks t = some task ∧
    task.assigneeAccountId.bind cfg.agentForAccount = some i.agentId ∧
      i.assignmentRevision = task.assignmentRevision
  single : ∀ t, w.items.countP (fun i ↦ i.OpenFor t) ≤ 1
  /-- The rejection or the timeout of an item of an earlier revision has moved no Task. -/
  stale : ∀ r ∈ w.history, ∀ i, r.trigger = some i →
    i.assignmentRevision < r.before.assignmentRevision →
      r.after.assigneeAccountId = r.before.assigneeAccountId

structure Rationed (w : World) : Prop where
  once : ∀ t, w.history.countP (fun r ↦ r.before.taskId = t ∧ r.Reassigned) ≤ assignmentReroutes
  /-- No account that has been assigned is selected. -/
  fresh : ∀ r ∈ w.history, r.Reassigned → ∀ a, r.after.assigneeAccountId = some a →
    a ∉ r.earlier ∧ r.before.assigneeAccountId ≠ some a

/-- A reassignment that is made while an item of the Task is open names an Agent other than the one
that holds the item. -/
def Supersedes (cfg : Config) (w : World) (_ : Env) : Label → Prop
  | .reassign actor key taskId assignee _ =>
    (∃ t, w.tasks taskId = some t ∧ ⟨"task:reassign", key, actor⟩ ∈ t.commands) ∨
      ∀ i ∈ w.items, i.OpenFor taskId → ∃ uuid agentId, cfg.accounts.lookup assignee = some uuid ∧
        cfg.agentForAccount uuid = some agentId ∧ agentId ≠ i.agentId
  | _ => True

end AgentColab.Rerouting
