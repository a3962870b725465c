import AgentColab.Domain.Clock
import Mathlib.Data.List.Basic

/-!
# The work item state machine and its timing model

Pure functions. A terminal status has no transition out of it, and `redeliver` is a transition from
`DELIVERED` to itself that a poll takes for an item that the sweep has put back. `expire` is a
transition from every status that is not terminal.
-/

namespace AgentColab.Work

inductive WorkItemState where
  | queued
  | delivered
  | acked
  | inProgress
  | resultReceived
  | rejected
  | expired
  | cancelled
deriving DecidableEq

def WorkItemState.value : WorkItemState → String
  | queued => "QUEUED"
  | delivered => "DELIVERED"
  | acked => "ACKED"
  | inProgress => "IN_PROGRESS"
  | resultReceived => "RESULT_RECEIVED"
  | rejected => "REJECTED"
  | expired => "EXPIRED"
  | cancelled => "CANCELLED"

/-- `TERMINAL_STATES` -/
def terminalStates : List WorkItemState := [.resultReceived, .rejected, .expired, .cancelled]

inductive Action where
  | deliver
  | redeliver
  | ack
  | start
  | result
  | reject
  | expire
  | cancel
deriving DecidableEq

def Action.value : Action → String
  | deliver => "deliver"
  | redeliver => "redeliver"
  | ack => "ack"
  | start => "start"
  | result => "result"
  | reject => "reject"
  | expire => "expire"
  | cancel => "cancel"

/-- `TRANSITIONS` -/
def transitions : WorkItemState → Action → Option WorkItemState
  | .queued, .deliver => some .delivered
  | .queued, .cancel => some .cancelled
  | .queued, .expire => some .expired
  | .delivered, .redeliver => some .delivered
  | .delivered, .ack => some .acked
  | .delivered, .reject => some .rejected
  | .delivered, .expire => some .expired
  | .delivered, .cancel => some .cancelled
  | .acked, .start => some .inProgress
  | .acked, .reject => some .rejected
  | .acked, .expire => some .expired
  | .acked, .cancel => some .cancelled
  | .acked, .result => some .resultReceived
  | .inProgress, .result => some .resultReceived
  | .inProgress, .reject => some .rejected
  | .inProgress, .expire => some .expired
  | .inProgress, .cancel => some .cancelled
  | _, _ => none

/-- `WorkItemError`; the other exceptions of the package carry the name of their class. -/
structure WorkItemError where
  code : String
  detail : String
deriving DecidableEq

def transition (state : WorkItemState) (action : Action) : Except WorkItemError WorkItemState :=
  if state ∈ terminalStates then
    .error ⟨"WORK_ITEM_TRANSITION_INVALID", state.value ++ " is terminal (" ++ action.value ++ ")"⟩
  else
    match transitions state action with
    | some state' => .ok state'
    | none => .error ⟨"WORK_ITEM_TRANSITION_INVALID", action.value ++ " from " ++ state.value⟩

variable {state : WorkItemState} {action : Action}

/-- **What a transition is.** It leaves a status that is not terminal, along the table. -/
theorem transition_eq_ok {state' : WorkItemState} : transition state action = .ok state' ↔
      state ∉ terminalStates ∧ transitions state action = some state' := by
  rw [transition]
  by_cases h : state ∈ terminalStates
  · simp [h]
  · cases ht : transitions state action <;> simp [h]

theorem transitions_resultReceived : transitions state action = some .resultReceived ↔
      action = .result ∧ (state = .acked ∨ state = .inProgress) := by
  cases state <;> cases action <;> simp [transitions]

theorem transition_expire (h : state ∉ terminalStates) :
    transition state .expire = .ok .expired := by
  refine transition_eq_ok.2 ⟨h, ?_⟩
  cases state <;> simp [terminalStates] at h <;> rfl

/-! ## Timing -/

inductive NextAction where
  | none
  | redeliver
  | expire
  | reroute
  | waiting
deriving DecidableEq

structure TimingDecision where
  action : NextAction
  reason : String
  dueAt : Option Time := Option.none

/-- `WORK_ITEM_ACK_TIMEOUT_S` -/
def ackTimeout : Time := 60 * 1000000

/-- `WORK_ITEM_MAX_REDELIVERIES` -/
def maxRedeliveries : ℕ := 3

/-- `TASK_ASSIGNMENT_ACCEPT_TIMEOUT_S` -/
def acceptTimeout : Time := 120 * 1000000

/-- `TASK_ASSIGNMENT_REROUTES` -/
def assignmentReroutes : ℕ := 1

/-- `ASSIGNMENT_KINDS` -/
def assignmentKinds : List String := ["task_assignment", "subtask_assignment"]

/-- The timer of an item that has been delivered and not acknowledged. -/
def ackTimer (deliveredAt : Option Time) (now : Time) (deliveryCount : ℕ) :
    Except WorkItemError TimingDecision :=
  match deliveredAt with
  | none => .error ⟨"WORK_ITEM_TIMING_INVALID", "DELIVERED without delivered_at"⟩
  | some t =>
    let due := t + ackTimeout
    if now < due then .ok ⟨.none, "awaiting ack", due⟩
    else if deliveryCount ≤ maxRedeliveries then
      .ok ⟨.redeliver, "ACK_TIMEOUT redelivery " ++ toString deliveryCount ++ " of 3", due⟩
    else .ok ⟨.expire, "ACK_TIMEOUT_EXHAUSTED", due⟩

/-- The timer of an assignment that has been acknowledged. -/
def acceptTimer (ackedAt acceptedAt : Option Time) (now : Time) (rerouteCount : ℕ) :
    Except WorkItemError TimingDecision :=
  if acceptedAt.isSome then .ok ⟨.none, "accepted", none⟩
  else
    match ackedAt with
    | none => .error ⟨"WORK_ITEM_TIMING_INVALID", "ACKED without acked_at"⟩
    | some t =>
      let due := t + acceptTimeout
      if now < due then .ok ⟨.none, "awaiting accept", due⟩
      else if rerouteCount < assignmentReroutes then .ok ⟨.reroute, "ACCEPT_TIMEOUT", due⟩
      else .ok ⟨.waiting, "ACCEPT_TIMEOUT_NO_CANDIDATE", due⟩

def nextAction (state : WorkItemState) (deliveredAt ackedAt : Option Time) (now : Time)
    (deliveryCount : ℕ) (kind : String) (acceptedAt : Option Time) (rerouteCount : ℕ)
    (deadline : Time) : Except WorkItemError TimingDecision :=
  if state ∈ terminalStates then .ok ⟨.none, "terminal", none⟩
  else if deadline ≤ now then .ok ⟨.expire, "DEADLINE_EXCEEDED", none⟩
  else if state = .delivered then ackTimer deliveredAt now deliveryCount
  else if (state = .acked ∨ state = .inProgress) ∧ kind ∈ assignmentKinds then
    acceptTimer ackedAt acceptedAt now rerouteCount
  else .ok ⟨.none, "no timer", none⟩

end AgentColab.Work
