import AgentColab.Domain.Clock
import Mathlib.Data.List.Induction
import Mathlib.Data.List.Sort
import Mathlib.Tactic.FinCases

/-!
# The Task state machine

The state of a Task is folded from its Events together with the results of the verifications
started on it. Only the transitions in `transitions` exist; `COMPLETED` and `CANCELLED` are
terminal.

Of an Event there are the parts of the envelope that are read, and the keys of its payload that the
fold looks up; a key that is absent is `none`. The instants are those that the texts in
`occurred_at` denote.
-/

namespace AgentColab.Tasks

open AgentColab List
open Except (ok)

inductive TaskStatus where
  | open'
  | delegated
  | accepted
  | running
  | waiting
  | implemented
  | verifying
  | verified
  | completed
  | cancelRequested
  | cancelled
deriving DecidableEq

def TaskStatus.value : TaskStatus → String
  | open' => "OPEN"
  | delegated => "DELEGATED"
  | accepted => "ACCEPTED"
  | running => "RUNNING"
  | waiting => "WAITING"
  | implemented => "IMPLEMENTED"
  | verifying => "VERIFYING"
  | verified => "VERIFIED"
  | completed => "COMPLETED"
  | cancelRequested => "CANCEL_REQUESTED"
  | cancelled => "CANCELLED"

/-- `TERMINAL` -/
def TaskStatus.terminal : List TaskStatus := [.completed, .cancelled]

/-- The types of Events that some Task code names. -/
inductive EventType where
  | taskCreated
  | subtaskCreated
  | taskDelegated
  | taskReassigned
  | taskAccepted
  | taskStarted
  | taskWaiting
  | taskProgressReported
  | implementationSubmitted
  | taskVerificationStarted
  | verificationPassed
  | verificationFailed
  | verificationBlocked
  | taskCompleted
  | taskCancelRequested
  | taskCancelled
  | taskJoinSatisfied
  | verifierAssigned
  | acceptanceCriteriaRevised
  | other (name : String)
deriving DecidableEq

def EventType.value : EventType → String
  | taskCreated => "TASK_CREATED"
  | subtaskCreated => "SUBTASK_CREATED"
  | taskDelegated => "TASK_DELEGATED"
  | taskReassigned => "TASK_REASSIGNED"
  | taskAccepted => "TASK_ACCEPTED"
  | taskStarted => "TASK_STARTED"
  | taskWaiting => "TASK_WAITING"
  | taskProgressReported => "TASK_PROGRESS_REPORTED"
  | implementationSubmitted => "IMPLEMENTATION_SUBMITTED"
  | taskVerificationStarted => "TASK_VERIFICATION_STARTED"
  | verificationPassed => "VERIFICATION_PASSED"
  | verificationFailed => "VERIFICATION_FAILED"
  | verificationBlocked => "VERIFICATION_BLOCKED"
  | taskCompleted => "TASK_COMPLETED"
  | taskCancelRequested => "TASK_CANCEL_REQUESTED"
  | taskCancelled => "TASK_CANCELLED"
  | taskJoinSatisfied => "TASK_JOIN_SATISFIED"
  | verifierAssigned => "VERIFIER_ASSIGNED"
  | acceptanceCriteriaRevised => "ACCEPTANCE_CRITERIA_REVISED"
  | other name => name

/-- `TRANSITIONS`. The last six are the re-routing of a lost assignee. -/
def transitions : TaskStatus → EventType → Option TaskStatus
  | .open', .taskDelegated => some .delegated
  | .delegated, .taskReassigned => some .delegated
  | .delegated, .taskAccepted => some .accepted
  | .accepted, .taskStarted => some .running
  | .running, .taskWaiting => some .waiting
  | .waiting, .taskStarted => some .running
  | .running, .taskProgressReported => some .running
  | .running, .implementationSubmitted => some .implemented
  | .implemented, .taskVerificationStarted => some .verifying
  | .verifying, .verificationPassed => some .verified
  | .verifying, .verificationFailed => some .running
  | .verifying, .verificationBlocked => some .waiting
  | .verified, .taskCompleted => some .completed
  | .open', .taskCancelled => some .cancelled
  | .delegated, .taskCancelled => some .cancelled
  | .accepted, .taskCancelled => some .cancelled
  | .running, .taskCancelRequested => some .cancelRequested
  | .waiting, .taskCancelRequested => some .cancelRequested
  | .implemented, .taskCancelRequested => some .cancelRequested
  | .verifying, .taskCancelRequested => some .cancelRequested
  | .cancelRequested, .taskCancelled => some .cancelled
  | .delegated, .taskWaiting => some .waiting
  | .accepted, .taskWaiting => some .waiting
  | .implemented, .taskWaiting => some .waiting
  | .accepted, .taskReassigned => some .delegated
  | .running, .taskReassigned => some .delegated
  | .waiting, .taskReassigned => some .delegated
  | _, _ => none

/-- `ANNOTATION_EVENTS`: they leave the status alone. -/
def annotationEvents : List EventType := [.taskJoinSatisfied]

/-- `CREATION_EVENTS` -/
def creationEvents : List EventType := [.taskCreated, .subtaskCreated]

/-- `VERIFICATION_RESULT_EVENTS` -/
def verificationResultEvents : List EventType :=
  [.verificationPassed, .verificationFailed, .verificationBlocked]

structure TaskTransitionError where
  code : String
  detail : String

/-- The status after an Event of this type, or a stable error. -/
def nextStatus (current : TaskStatus) (etype : EventType) : Except TaskTransitionError TaskStatus :=
  if current ∈ TaskStatus.terminal then
    .error ⟨"TASK_TERMINAL", current.value ++ " is terminal; " ++ etype.value ++ " rejected"⟩
  else match transitions current etype with
    | some target => .ok target
    | none =>
      .error ⟨"TASK_TRANSITION_INVALID", etype.value ++ " is not allowed in " ++ current.value⟩

variable {current target : TaskStatus} {etype : EventType}

theorem verified_of_transitions (h : transitions current etype = some .verified) :
    current = .verifying ∧ etype = .verificationPassed := by
  rw [transitions.eq_def] at h
  split at h <;> simp_all

theorem completed_of_transitions (h : transitions current etype = some .completed) :
    current = .verified ∧ etype = .taskCompleted := by
  rw [transitions.eq_def] at h
  split at h <;> simp_all

theorem transitions_terminal (h : current ∈ TaskStatus.terminal) (etype : EventType) :
    transitions current etype = none := by
  fin_cases h <;> cases etype <;> rfl

theorem verifying_of_result (htype : etype ∈ verificationResultEvents)
    (h : transitions current etype = some target) : current = .verifying ∧ target ≠ .verifying := by
  have : etype = .verificationPassed ∨ etype = .verificationFailed ∨
      etype = .verificationBlocked := by simpa [verificationResultEvents] using htype
  rcases this with rfl | rfl | rfl
  all_goals
    rw [transitions.eq_def] at h
    split at h <;> simp_all
    subst h
    decide

theorem nextStatus_eq_ok :
    nextStatus current etype = .ok target ↔ transitions current etype = some target := by
  rw [nextStatus]
  by_cases hterm : current ∈ TaskStatus.terminal
  · simp [hterm, transitions_terminal hterm]
  · rw [if_neg hterm]
    cases transitions current etype <;> simp

/-! ## Events -/

/-- `join_policy` -/
structure JoinPolicy where
  mode : Option String := none
  join : Option String := none
  quorum : Option ℤ := none
  required : List String := []
deriving DecidableEq

structure Payload where
  rootTaskId : Option String := none
  parentTaskId : Option String := none
  channelId : Option String := none
  title : Option String := none
  domain : Option String := none
  risk : Option String := none
  depth : Option ℤ := none
  joinPolicy : Option JoinPolicy := none
  assigneeAccountId : Option String := none
  assignmentRevision : Option ℤ := none
  policySnapshotHash : Option String := none
  summary : Option String := none
  criteriaRevision : Option ℤ := none
  verificationId : Option String := none
  satisfiedChildren : Option (List String) := none
  reasonCode : Option String := none
  documentId : Option String := none
deriving DecidableEq

structure Event where
  eventId : String
  workspaceId : String
  aggregateType : String
  aggregateId : String
  aggregateSeq : ℕ
  recordedSeq : ℕ
  type : EventType
  actorAccountId : String
  idempotencyScope : String
  idempotencyKey : String
  channelId : Option String := none
  taskId : Option String := none
  causedBy : Option String := none
  payload : Payload := {}
  occurredAt : Time
deriving DecidableEq

/-! ## The fold -/

/-- `PENDING`, or the result of the active verification. -/
inductive VerificationStatus where
  | pending
  | passed
  | failed
  | blocked
deriving DecidableEq

/-- `etype.removeprefix("VERIFICATION_")`, for a result. -/
def resultStatus : EventType → Option VerificationStatus
  | .verificationPassed => some .passed
  | .verificationFailed => some .failed
  | .verificationBlocked => some .blocked
  | _ => none

structure TaskState where
  taskId : String
  exists' : Bool := false
  status : TaskStatus := .open'
  workspaceId : Option String := none
  rootTaskId : Option String := none
  parentTaskId : Option String := none
  channelId : Option String := none
  title : String := ""
  domain : String := ""
  risk : String := "LOW"
  assigneeAccountId : Option String := none
  delegatedBy : Option String := none
  delegationDepth : ℤ := 0
  assignmentRevision : ℤ := 0
  policySnapshotHash : Option String := none
  criteriaRevision : ℤ := 0
  latestProgress : Option String := none
  activeVerificationId : Option String := none
  verificationStatus : Option VerificationStatus := none
  lastEventId : Option String := none
  lastAggregateSeq : ℕ := 0
  createdAt : Option Time := none
  updatedAt : Option Time := none
  joinPolicy : JoinPolicy := {}
  joinSatisfied : Bool := false
  joinSatisfiedChildren : List String := []

/-- An empty text counts as absent. -/
def orElse (a b : Option String) : Option String :=
  match a with
  | some "" => b
  | none => b
  | some x => some x

namespace TaskState

def create (state : TaskState) (event : Event) : TaskState :=
  { state with
    exists' := true
    status := .open'
    workspaceId := some event.workspaceId
    rootTaskId := some (event.payload.rootTaskId.getD state.taskId)
    parentTaskId := event.payload.parentTaskId
    channelId := orElse event.payload.channelId event.channelId
    title := event.payload.title.getD ""
    domain := event.payload.domain.getD ""
    risk := event.payload.risk.getD "LOW"
    delegationDepth := event.payload.depth.getD 0
    joinPolicy := event.payload.joinPolicy.getD {}
    createdAt := some event.occurredAt
    updatedAt := some event.occurredAt
    lastEventId := some event.eventId
    lastAggregateSeq := event.aggregateSeq }

/-- What a verification result sets that leads to the status `target`. -/
def result (state : TaskState) (event : Event) (target : TaskStatus) : TaskState :=
  { state with
    status := target
    verificationStatus := resultStatus event.type
    updatedAt := some event.occurredAt }

/-- What every Event of the Task aggregate sets. -/
def mark (state : TaskState) (event : Event) : TaskState :=
  { state with
    lastEventId := some event.eventId
    lastAggregateSeq := event.aggregateSeq
    updatedAt := some event.occurredAt }

def annotate (state : TaskState) (event : Event) : TaskState :=
  if event.type = .taskJoinSatisfied then
    { state.mark event with
      joinSatisfied := true
      joinSatisfiedChildren := event.payload.satisfiedChildren.getD [] }
  else state.mark event

/-- What an Event sets besides the status. -/
def detail (state : TaskState) (event : Event) : TaskState :=
  if event.type = .taskDelegated ∨ event.type = .taskReassigned then
    { state with
      assigneeAccountId := event.payload.assigneeAccountId
      delegatedBy := some event.actorAccountId
      assignmentRevision := event.payload.assignmentRevision.getD state.assignmentRevision
      policySnapshotHash := orElse event.payload.policySnapshotHash state.policySnapshotHash }
  else if event.type = .taskProgressReported then
    { state with latestProgress := event.payload.summary }
  else if event.type = .implementationSubmitted then
    { state with
      criteriaRevision := event.payload.criteriaRevision.getD state.criteriaRevision
      verificationStatus := none }
  else if event.type = .taskVerificationStarted then
    { state with
      activeVerificationId := event.payload.verificationId
      verificationStatus := some .pending }
  else state

/-- What an Event sets that leads to the status `target`. -/
def move (state : TaskState) (event : Event) (target : TaskStatus) : TaskState :=
  ({ state.mark event with status := target }).detail event

end TaskState

/-- Fold one Event into the state. Events that do not concern the Task are ignored. -/
def applyEvent (state : TaskState) (event : Event) : Except TaskTransitionError TaskState :=
  if event.type ∈ creationEvents then
    if event.aggregateId ≠ state.taskId then .ok state else .ok (state.create event)
  else if !state.exists' then .ok state
  else if event.type ∈ verificationResultEvents then
    if event.taskId ≠ some state.taskId then .ok state
    -- a stale or foreign verification
    else if event.payload.verificationId ≠ state.activeVerificationId then .ok state
    else match transitions state.status event.type with
      | none => .ok state
      | some target => .ok (state.result event target)
  else if event.aggregateId ≠ state.taskId ∨ event.aggregateType ≠ "task" then .ok state
  else if event.type ∈ annotationEvents then .ok (state.annotate event)
  else (nextStatus state.status event.type).map (state.move event)

def foldEvents (state : TaskState) (events : List Event) : Except TaskTransitionError TaskState :=
  events.foldlM applyEvent state

/-- `sorted(events, key=lambda e: int(e.get("recorded_seq", 0)))` -/
def recordedOrder (events : List Event) : List Event :=
  events.insertionSort fun a b ↦ a.recordedSeq ≤ b.recordedSeq

def fold (taskId : String) (events : List Event) : Except TaskTransitionError TaskState :=
  foldEvents { taskId := taskId } (recordedOrder events)

@[simp] theorem foldEvents_nil (state : TaskState) : foldEvents state [] = .ok state := rfl

variable {final init s s' state : TaskState} {post pre : List Event} {e : Event}

theorem foldEvents_append :
    foldEvents state (pre ++ post) = (foldEvents state pre).bind fun s ↦ foldEvents s post :=
  foldlM_append

theorem foldEvents_cons {event : Event} {events : List Event} : foldEvents state (event :: events) =
      (applyEvent state event).bind fun s ↦ foldEvents s events := rfl

theorem foldEvents_append_eq_ok : foldEvents state (pre ++ post) = .ok final ↔
      ∃ s, foldEvents state pre = .ok s ∧ foldEvents s post = .ok final := by
  rw [foldEvents_append]
  cases foldEvents state pre with
  | error => simp [Except.bind]
  | ok => simp [Except.bind]

theorem foldEvents_cons_eq_ok {event : Event} {events : List Event} :
    foldEvents state (event :: events) = .ok final ↔
      ∃ s, applyEvent state event = .ok s ∧ foldEvents s events = .ok final := by
  rw [foldEvents_cons]
  cases applyEvent state event with
  | error => simp [Except.bind]
  | ok => simp [Except.bind]

/-! ## What one Event can do -/

/-- The ways in which an Event is folded. -/
inductive Applied (s : TaskState) (e : Event) : TaskState → Prop where
  | ignored : Applied s e s
  | created (type : e.type ∈ creationEvents) (own : e.aggregateId = s.taskId) :
    Applied s e (s.create e)
  | decided (target : TaskStatus) (type : e.type ∈ verificationResultEvents)
      (own : e.taskId = some s.taskId) (active : e.payload.verificationId = s.activeVerificationId)
      (legal : transitions s.status e.type = some target) : Applied s e (s.result e target)
  | annotated (type : e.type ∈ annotationEvents) (own : e.aggregateId = s.taskId) :
    Applied s e (s.annotate e)
  | moved (target : TaskStatus) (own : e.aggregateId = s.taskId) (kind : e.aggregateType = "task")
      (create : e.type ∉ creationEvents) (result : e.type ∉ verificationResultEvents)
      (legal : transitions s.status e.type = some target) : Applied s e (s.move e target)

theorem applied_of_applyEvent (h : applyEvent s e = .ok s') : Applied s e s' := by
  rw [applyEvent] at h
  split_ifs at h with hcreate hown hexists hresult htask hactive hother hannotate
  · obtain rfl := ok.inj h
    exact .ignored
  · obtain rfl := ok.inj h
    exact .created hcreate (not_not.1 hown)
  · obtain rfl := ok.inj h
    exact .ignored
  · obtain rfl := ok.inj h
    exact .ignored
  · obtain rfl := ok.inj h
    exact .ignored
  · cases hlegal : transitions s.status e.type with
    | none =>
      rw [hlegal] at h
      obtain rfl := ok.inj h
      exact .ignored
    | some target =>
      rw [hlegal] at h
      obtain rfl := ok.inj h
      exact .decided target hresult (not_not.1 htask) (not_not.1 hactive) hlegal
  · obtain rfl := ok.inj h
    exact .ignored
  · obtain rfl := ok.inj h
    exact .annotated hannotate (by tauto)
  · cases hnext : nextStatus s.status e.type with
    | error => simp [hnext, Except.map] at h
    | ok target =>
      rw [hnext] at h
      obtain rfl := ok.inj h
      exact .moved target (by tauto) (by tauto) hcreate hresult (nextStatus_eq_ok.1 hnext)

section Fields

variable (s : TaskState) (e : Event) (target : TaskStatus)

@[simp] theorem status_create : (s.create e).status = .open' := rfl

@[simp] theorem status_result : (s.result e target).status = target := rfl

@[simp] theorem status_annotate : (s.annotate e).status = s.status := by
  rw [TaskState.annotate]
  split_ifs <;> rfl

@[simp] theorem status_move : (s.move e target).status = target := by
  rw [TaskState.move, TaskState.detail]
  split_ifs <;> rfl

@[simp] theorem taskId_move : (s.move e target).taskId = s.taskId := by
  rw [TaskState.move, TaskState.detail]
  split_ifs <;> rfl

@[simp] theorem taskId_annotate : (s.annotate e).taskId = s.taskId := by
  rw [TaskState.annotate]
  split_ifs <;> rfl

@[simp] theorem verificationStatus_annotate :
    (s.annotate e).verificationStatus = s.verificationStatus := by
  rw [TaskState.annotate]
  split_ifs <;> rfl

@[simp] theorem activeVerificationId_annotate :
    (s.annotate e).activeVerificationId = s.activeVerificationId := by
  rw [TaskState.annotate]
  split_ifs <;> rfl

theorem activeVerificationId_move (h : e.type ≠ .taskVerificationStarted) :
    (s.move e target).activeVerificationId = s.activeVerificationId := by
  rw [TaskState.move, TaskState.detail]
  split_ifs <;> rfl

theorem verificationStatus_move (h : e.type ≠ .taskVerificationStarted)
    (h' : e.type ≠ .implementationSubmitted) :
    (s.move e target).verificationStatus = s.verificationStatus := by
  rw [TaskState.move, TaskState.detail]
  split_ifs <;> rfl

end Fields

theorem taskId_of_applied (h : Applied s e s') : s'.taskId = s.taskId := by
  rcases h with _ | _ | ⟨target, -, -, -, -⟩ | _ | ⟨target, -, -, -, -, -⟩
  · rfl
  · rfl
  · rfl
  · exact taskId_annotate s e
  · exact taskId_move s e target

theorem taskId_of_foldEvents {events : List Event} (h : foldEvents s events = .ok s') :
    s'.taskId = s.taskId := by
  induction events generalizing s with
  | nil =>
    obtain rfl := ok.inj h
    rfl
  | cons e _ ih =>
    obtain ⟨s₁, h₁, h₂⟩ := foldEvents_cons_eq_ok.1 h
    rw [ih h₂, taskId_of_applied (applied_of_applyEvent h₁)]

/-! ## Safety of the fold -/

/-- A status that is only reached through a passed verification. -/
def TaskStatus.needsPass : List TaskStatus := [.verified, .completed]

open TaskStatus (terminal needsPass open')

/-- The passing result of the active verification is among the Events. -/
def PassRecorded (init s : TaskState) (events : List Event) : Prop :=
  ∃ pre e post before, events = pre ++ e :: post ∧ foldEvents init pre = .ok before ∧
    e.type = .verificationPassed ∧ e.taskId = some s.taskId ∧
    e.payload.verificationId = before.activeVerificationId ∧
    before.activeVerificationId = s.activeVerificationId

theorem PassRecorded.append {events : List Event} (h : PassRecorded init s events)
    (htask : s'.taskId = s.taskId) (hactive : s'.activeVerificationId = s.activeVerificationId) :
    PassRecorded init s' (events ++ [e]) := by
  obtain ⟨pre, p, post, before, rfl, hbefore, htype, hown, hid, hact⟩ := h
  exact ⟨pre, p, post ++ [e], before, by simp, hbefore, htype, by rw [htask, hown], hid,
    by rw [hactive, hact]⟩

/-- What a pass is worth, one Event at a time: `VERIFIED` is entered by a passing result only, and
`COMPLETED` from `VERIFIED` only. -/
theorem passed_step {events : List Event} (hfold : foldEvents init events = .ok s) (h : s.status ∈
    needsPass → s.verificationStatus = some .passed ∧ PassRecorded init s events)
    (hs' : Applied s e s') (hneeds : s'.status ∈ needsPass) :
    s'.verificationStatus = some .passed ∧ PassRecorded init s' (events ++ [e]) := by
  rcases hs' with _ | _ | ⟨target, htype, hown, hactive, hlegal⟩ | _ |
    ⟨target, -, -, -, hresult, hlegal⟩
  · obtain ⟨hv, hp⟩ := h hneeds
    exact ⟨hv, hp.append rfl rfl⟩
  · rw [status_create] at hneeds
    exact absurd hneeds (by decide)
  · rw [status_result] at hneeds
    have hpassed : e.type = .verificationPassed := by
      rcases mem_pair.1 hneeds with rfl | rfl
      · exact (verified_of_transitions hlegal).2
      · rw [(completed_of_transitions hlegal).2] at htype
        exact absurd htype (by decide)
    refine ⟨by rw [TaskState.result, hpassed]; rfl, events, e, [], s, rfl, hfold, hpassed, hown,
      hactive, rfl⟩
  · rw [status_annotate] at hneeds
    obtain ⟨hv, hp⟩ := h hneeds
    exact ⟨(verificationStatus_annotate s e).trans hv,
      hp.append (taskId_annotate s e) (activeVerificationId_annotate s e)⟩
  · -- the only other way in is the completion of a verified Task
    rw [status_move] at hneeds
    rcases mem_pair.1 hneeds with rfl | rfl
    · rw [(verified_of_transitions hlegal).2] at hresult
      exact absurd hresult (by decide)
    · obtain ⟨hverified, htype⟩ := completed_of_transitions hlegal
      obtain ⟨hv, hp⟩ := h (by rw [hverified]; decide)
      exact ⟨(verificationStatus_move s e .completed (by simp [htype]) (by simp [htype])).trans hv,
        hp.append (taskId_move s e .completed)
          (activeVerificationId_move s e .completed (by simp [htype]))⟩

theorem passed_of_foldEvents (hinit : init.status ∉ needsPass) (events : List Event) :
    ∀ s, foldEvents init events = .ok s → s.status ∈ needsPass →
        s.verificationStatus = some .passed ∧ PassRecorded init s events := by
  induction events using List.reverseRecOn with
  | nil =>
    intro s h hneeds
    obtain rfl := ok.inj h
    exact absurd hneeds hinit
  | append_singleton _ e ih =>
    intro s' h hneeds
    obtain ⟨s, hs, he⟩ := foldEvents_append_eq_ok.1 h
    obtain ⟨s₁, happly, hnil⟩ := foldEvents_cons_eq_ok.1 he
    obtain rfl := ok.inj hnil
    exact passed_step hs (ih s hs) (applied_of_applyEvent happly) hneeds

theorem terminal_step (hterm : s.status ∈ terminal) (hcreate : e.type ∉ creationEvents)
    (h : Applied s e s') : s'.status = s.status := by
  rcases h with _ | ⟨htype, -⟩ | ⟨target, -, -, -, hlegal⟩ | _ | ⟨target, -, -, -, -, hlegal⟩
  · rfl
  · exact absurd htype hcreate
  · rw [transitions_terminal hterm] at hlegal
    cases hlegal
  · exact status_annotate s e
  · rw [transitions_terminal hterm] at hlegal
    cases hlegal

theorem terminal_of_foldEvents {events : List Event}
    (hcreate : ∀ e ∈ events, e.type ∉ creationEvents) :
    ∀ {s s' : TaskState}, s.status ∈ terminal → foldEvents s events = .ok s' →
      s'.status = s.status := by
  induction events with
  | nil =>
    intro s s' _ h
    obtain rfl := ok.inj h
    rfl
  | cons e _ ih =>
    intro s s' hterm h
    obtain ⟨s₁, h₁, h₂⟩ := foldEvents_cons_eq_ok.1 h
    have hsame := terminal_step hterm (hcreate e mem_cons_self) (applied_of_applyEvent h₁)
    rw [ih (fun x hx ↦ hcreate x (mem_cons_of_mem e hx)) (hsame ▸ hterm) h₂, hsame]

theorem stale_of_applied (htype : e.type ∈ verificationResultEvents)
    (hstale : e.payload.verificationId ≠ s.activeVerificationId) (h : applyEvent s e = .ok s') :
    s' = s := by
  have hcreate : e.type ∉ creationEvents := by
    have : e.type = .verificationPassed ∨ e.type = .verificationFailed ∨
        e.type = .verificationBlocked := by simpa [verificationResultEvents] using htype
    rcases this with h | h | h <;> rw [h] <;> decide
  rw [applyEvent, if_neg hcreate] at h
  split_ifs at h <;> exact (ok.inj h).symm

/-- **Safety of the fold.** In every prefix of an accepted stream with one creation: a verified or
completed Task has a recorded pass of its active verification, a terminal status is final, and a
result of another verification changes nothing. -/
theorem fold_safety {taskId : String} {events : List Event} {creation : Event} {rest : List Event}
    {final : TaskState} (horder : recordedOrder events = creation :: rest)
    (honly : ∀ e ∈ rest, e.type ∉ creationEvents) (haccepted : fold taskId events = .ok final)
    (pre post : List Event) (hsplit : recordedOrder events = pre ++ post) :
    ∃ s, foldEvents { taskId := taskId } pre = .ok s ∧ (s.status ∈ needsPass →
        s.verificationStatus = some .passed ∧ PassRecorded { taskId := taskId } s pre) ∧
      (s.status ∈ terminal → ∀ mid, mid <+: post →
        ∃ s', foldEvents s mid = .ok s' ∧ s'.status = s.status) ∧
      ∀ e, e ∈ post.head? → e.type ∈ verificationResultEvents →
        e.payload.verificationId ≠ s.activeVerificationId → ∃ s', applyEvent s e = .ok s' ∧
          s'.status = s.status ∧ s'.verificationStatus = s.verificationStatus := by
  rw [fold, hsplit] at haccepted
  obtain ⟨s, hs, hpost⟩ := foldEvents_append_eq_ok.1 haccepted
  have hopen : open' ∉ needsPass := by decide
  refine ⟨s, hs, passed_of_foldEvents hopen pre s hs, ?_, ?_⟩
  · rintro hterm mid ⟨post', rfl⟩
    obtain ⟨s', hs', -⟩ := foldEvents_append_eq_ok.1 hpost
    refine ⟨s', hs', terminal_of_foldEvents ?_ hterm hs'⟩
    -- the creation is in the part before a terminal status
    cases pre with
    | nil =>
      obtain rfl := ok.inj hs
      exact absurd hterm (show open' ∉ terminal by decide)
    | cons =>
      rw [horder, cons_append, List.cons.injEq] at hsplit
      intro e he
      exact honly e (by rw [hsplit.2]; simp [he])
  · intro e he htype hstale
    cases post with
    | nil => cases he
    | cons x =>
      obtain rfl : x = e := by simpa using he
      obtain ⟨s', hs', -⟩ := foldEvents_cons_eq_ok.1 hpost
      obtain rfl := stale_of_applied htype hstale hs'
      exact ⟨s', hs', rfl, rfl⟩

namespace Sample

def event (seq : ℕ) (type : EventType) (payload : Payload) : Event where
  eventId := "evt-" ++ toString seq
  workspaceId := "ws-1"
  aggregateType := if type ∈ verificationResultEvents then "verification_run" else "task"
  aggregateId := if type ∈ verificationResultEvents then "vr-1" else "task-1"
  aggregateSeq := seq
  recordedSeq := seq
  type := type
  actorAccountId := "human-1"
  idempotencyScope := "task:step"
  idempotencyKey := toString seq
  taskId := some "task-1"
  payload := payload
  occurredAt := seq

def events : List Event := [event 1 .taskCreated {},
  event 2 .taskDelegated { assigneeAccountId := some "agent-1" }, event 3 .taskAccepted {},
  event 4 .taskStarted {}, event 5 .implementationSubmitted {},
  event 6 .taskVerificationStarted { verificationId := some "vr-1" },
  event 7 .verificationPassed { verificationId := some "vr-1" }, event 8 .taskCompleted {}]

end Sample

theorem fold_safety_completed : ∃ s, foldEvents { taskId := "task-1" } Sample.events = .ok s ∧
      (s.status ∈ needsPass → s.verificationStatus = some .passed ∧
        PassRecorded { taskId := "task-1" } s Sample.events) := by
  have horder : recordedOrder Sample.events = Sample.events := by decide
  obtain ⟨s, hs, hpass, -, -⟩ := fold_safety horder (by decide)
    (show fold "task-1" Sample.events = .ok _ by rw [fold, horder]; rfl) Sample.events []
    (by rw [horder, append_nil])
  exact ⟨s, hs, hpass⟩

end AgentColab.Tasks
