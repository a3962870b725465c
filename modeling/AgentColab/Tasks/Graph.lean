import AgentColab.Tasks.Task

/-!
# Task graph rules

A parent has children; the policy of its channel limits their number and their depth, and its join
policy says when enough of them are done.
-/

namespace AgentColab.Tasks

structure GraphError where
  code : String
  detail : String
deriving DecidableEq

structure GraphLimits where
  delegationDepth : ℤ := 4
  maxFanOut : ℤ := 8
  concurrentSubtasks : ℤ := 8

/-- `limits_from_policy`: an absent value and one that is not positive keep the default. -/
def limitsFromPolicy (delegationDepth maxFanOut concurrentSubtasks : Option ℤ) : GraphLimits :=
  let pick (value : Option ℤ) (default : ℤ) : ℤ :=
    match value with
    | some v => if v > 0 then v else default
    | none => default
  ⟨pick delegationDepth 4, pick maxFanOut 8, pick concurrentSubtasks 8⟩

structure ParentView where
  taskId : String
  workspaceId : String
  depth : ℤ
  status : TaskStatus

/-- Reject cycles, parents of another Workspace and overruns of a limit. -/
def validateNewChild (parent : ParentView) (childTaskId actorWorkspaceId : String)
    (ancestors : List String) (siblingCount activeSiblingCount : ℕ) (limits : GraphLimits) :
    Except GraphError Unit :=
  if childTaskId = parent.taskId ∨ childTaskId ∈ ancestors then
    .error ⟨"TASK_GRAPH_CYCLE", childTaskId ++ " is " ++ parent.taskId ++ " or an ancestor"⟩
  else if parent.workspaceId ≠ actorWorkspaceId then
    .error ⟨"TASK_WORKSPACE_MISMATCH", "parent belongs to another Workspace"⟩
  else if parent.status ∈ TaskStatus.terminal then
    .error ⟨"TASK_TERMINAL", "parent " ++ parent.taskId ++ " is terminal"⟩
  else if parent.depth + 1 > limits.delegationDepth then
    .error ⟨"TASK_DEPTH_EXCEEDED", s!"depth {parent.depth + 1} > {limits.delegationDepth}"⟩
  else if (siblingCount + 1 : ℤ) > limits.maxFanOut then
    .error ⟨"TASK_FANOUT_EXCEEDED", s!"fan-out {siblingCount + 1} > {limits.maxFanOut}"⟩
  else if (activeSiblingCount + 1 : ℤ) > limits.concurrentSubtasks then
    .error ⟨"TASK_CONCURRENCY_EXCEEDED",
      s!"concurrent sub-Tasks {activeSiblingCount + 1} > {limits.concurrentSubtasks}"⟩
  else .ok ()

/-! ## Joins -/

structure ChildView where
  taskId : String
  status : TaskStatus

/-- `DONE_STATUSES` -/
def TaskStatus.doneStatuses : List TaskStatus := [.verified, .completed]

def ChildView.done (c : ChildView) : Bool := c.status ∈ TaskStatus.doneStatuses

def ChildView.cancelled (c : ChildView) : Bool := c.status = .cancelled

inductive JoinMode where
  | all
  | any
  | quorum (n : ℤ)
deriving DecidableEq

/-- `_join_policy_label` -/
def JoinMode.label : JoinMode → String
  | all => "ALL"
  | any => "ANY"
  | quorum n => s!"QUORUM({n})"

structure JoinResult where
  mode : JoinMode
  satisfied : Bool
  satisfiedChildren : List String
  missing : List String := []
  quorum : Option ℤ := none
  detail : String := ""

/-- `join_mode` -/
def joinMode (policy : JoinPolicy) : Except GraphError JoinMode :=
  match (policy.mode.getD (policy.join.getD "ALL")).toUpper with
  | "ALL" => .ok .all
  | "ANY" => .ok .any
  | "QUORUM" =>
    match policy.quorum with
    | some n => if n < 1 then .error ⟨"TASK_JOIN_POLICY_INVALID", "QUORUM requires quorum >= 1"⟩
      else .ok (.quorum n)
    | none => .error ⟨"TASK_JOIN_POLICY_INVALID", "QUORUM requires quorum >= 1"⟩
  | mode => .error ⟨"TASK_JOIN_POLICY_INVALID", "unknown join mode " ++ mode⟩

/-- Whether the join condition of a parent is met. An unverified child never counts, and a required
child that was cancelled blocks `ALL` and `QUORUM`. -/
def evaluateJoin (policy : JoinPolicy) (children : List ChildView) :
    Except GraphError JoinResult := do
  let mode ← joinMode policy
  let done := (children.filter (·.done)).map (·.taskId)
  -- the last child of an id, as in a dictionary
  let byId (id : String) := children.reverse.find? (·.taskId = id)
  let missingRequired := policy.required.filter (· ∉ done)
  if children.isEmpty then return ⟨mode, false, [], [], none, "no sub-Tasks yet"⟩
  else match mode with
    | .all =>
      let pending := (children.filter fun c ↦ !c.done && !c.cancelled).map (·.taskId)
      let missing := (pending ++ missingRequired).eraseDups
      let blocked := policy.required.filter fun r ↦ (byId r).any (·.cancelled) && r ∉ missing
      let missing := missing ++ blocked
      return ⟨mode, missing.isEmpty && !done.isEmpty, done, missing, none, ""⟩
    | .any =>
      let missing := if done.isEmpty then (children.map (·.taskId)).eraseDups else []
      return ⟨mode, !done.isEmpty, done, missing, none, ""⟩
    | .quorum n =>
      let missing := if n ≤ done.length then missingRequired
        else (children.filter (!·.done)).map (·.taskId)
      return ⟨mode, (n ≤ done.length : Bool) && missingRequired.isEmpty, done, missing, some n, ""⟩

end AgentColab.Tasks
