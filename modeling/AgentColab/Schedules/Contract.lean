import AgentColab.Domain.Clock
import Mathlib.Data.List.Sort
import Mathlib.Algebra.Order.Field.Rat

/-!
# The Schedule and ScheduleRun state contract

Transition tables, cancel rules, concurrency, missed-run materialization and retry decisions, as
pure functions. Nothing here reads a row or a clock.

A `timedelta` is compared in microseconds, so a bound given in seconds is multiplied out.
-/

namespace AgentColab.Schedules

open AgentColab List

/-- Microseconds in `n` seconds. -/
def seconds (n : ℤ) : Time := n * 1000000

/-- A refusal with a stable code. -/
structure ScheduleContractError where
  code : String
  detail : String
deriving DecidableEq

/-! ## Statuses -/

inductive ScheduleStatus where
  | draft
  | enabled
  | paused
  | disabled
deriving DecidableEq

def ScheduleStatus.value : ScheduleStatus → String
  | draft => "DRAFT"
  | enabled => "ENABLED"
  | paused => "PAUSED"
  | disabled => "DISABLED"

inductive RunStatus where
  | pending
  | due
  | claimed
  | taskCreated
  | running
  | verifying
  | succeeded
  | failed
  | skipped
  | timedOut
  | cancelRequested
  | cancelled
deriving DecidableEq

def RunStatus.value : RunStatus → String
  | pending => "PENDING"
  | due => "DUE"
  | claimed => "CLAIMED"
  | taskCreated => "TASK_CREATED"
  | running => "RUNNING"
  | verifying => "VERIFYING"
  | succeeded => "SUCCEEDED"
  | failed => "FAILED"
  | skipped => "SKIPPED"
  | timedOut => "TIMED_OUT"
  | cancelRequested => "CANCEL_REQUESTED"
  | cancelled => "CANCELLED"

inductive RunKind where
  | scheduled
  | manual
  | retry
deriving DecidableEq

inductive ConcurrencyPolicy where
  | forbid
  | allow
  | replace
deriving DecidableEq

inductive MissedRunPolicy where
  | skip
  | runOnce
  | backfillLimited
deriving DecidableEq

def MissedRunPolicy.value : MissedRunPolicy → String
  | skip => "SKIP"
  | runOnce => "RUN_ONCE"
  | backfillLimited => "BACKFILL_LIMITED"

inductive SkipCode where
  | skippedConcurrency
  | skippedReplaceCancelTimeout
  | skippedPolicy
  | skippedAgentUnavailable
  | budgetExceeded

def SkipCode.value : SkipCode → String
  | skippedConcurrency => "SKIPPED_CONCURRENCY"
  | skippedReplaceCancelTimeout => "SKIPPED_REPLACE_CANCEL_TIMEOUT"
  | skippedPolicy => "SKIPPED_POLICY"
  | skippedAgentUnavailable => "SKIPPED_AGENT_UNAVAILABLE"
  | budgetExceeded => "BUDGET_EXCEEDED"

/-! ## Transitions -/

/-- `SCHEDULE_TRANSITIONS` -/
def ScheduleStatus.transitions : ScheduleStatus → List ScheduleStatus
  | draft => [enabled, disabled]
  | enabled => [paused, disabled]
  | paused => [enabled, disabled]
  | disabled => []

namespace RunStatus

/-- `RUN_TERMINAL` -/
def terminal : List RunStatus := [succeeded, failed, skipped, timedOut, cancelled]

/-- `RUN_PENDING` -/
def pendingStatuses : List RunStatus := [pending, due]

/-- `RUN_RUNNING` -/
def runningStatuses : List RunStatus := [claimed, taskCreated, running, verifying]

/-- `RUN_TRANSITIONS` -/
def transitions : RunStatus → List RunStatus
  | pending => [due, cancelled, skipped]
  | due => [claimed, cancelled, skipped]
  -- back to DUE when the lease expires and the claim is released
  | claimed => [taskCreated, skipped, failed, cancelRequested, due]
  | taskCreated => [running, failed, cancelRequested, timedOut]
  | running => [verifying, succeeded, failed, timedOut, cancelRequested]
  | verifying => [succeeded, failed, timedOut, cancelRequested]
  | cancelRequested => [cancelled, timedOut]
  | succeeded => []
  | failed => []
  | skipped => []
  | timedOut => []
  | cancelled => []

theorem transitions_eq_nil {s : RunStatus} : s.transitions = [] ↔ s ∈ terminal := by
  cases s <;> decide

end RunStatus

def scheduleTransition (current target : ScheduleStatus) :
    Except ScheduleContractError ScheduleStatus :=
  if target ∈ current.transitions then .ok target
  else .error ⟨"SCHEDULE_TRANSITION_INVALID", s!"{current.value} -> {target.value}"⟩

def runTransition (current target : RunStatus) : Except ScheduleContractError RunStatus :=
  if current ∈ RunStatus.terminal then
    .error ⟨"RUN_TERMINAL_CONFLICT", s!"{current.value} is terminal"⟩
  else if target ∈ current.transitions then .ok target
  else .error ⟨"RUN_TRANSITION_INVALID", s!"{current.value} -> {target.value}"⟩

theorem runTransition_eq_ok {current target s : RunStatus}
    (h : runTransition current target = .ok s) : target ∈ current.transitions ∧ s = target := by
  rw [runTransition] at h
  split_ifs at h with hterm hedge
  exact ⟨hedge, (Except.ok.inj h).symm⟩

/-- Pending Runs cancel at once, running Runs are asked to, terminal Runs conflict. -/
def cancelRun (current : RunStatus) : Except ScheduleContractError RunStatus :=
  if current ∈ RunStatus.terminal then
    .error ⟨"RUN_TERMINAL_CONFLICT", s!"cannot cancel {current.value}"⟩
  else if current ∈ RunStatus.pendingStatuses then .ok .cancelled
  else if current ∈ RunStatus.runningStatuses then .ok .cancelRequested
  else if current = .cancelRequested then
    .error ⟨"RUN_CANCEL_ALREADY_REQUESTED", "cancel already requested"⟩
  else .error ⟨"RUN_TRANSITION_INVALID", s!"cancel from {current.value}"⟩

/-! ## Concurrency -/

inductive ConcurrencyDecision where
  | start
  | skip
  | replaceCancelExisting

structure ConcurrencyOutcome where
  decision : ConcurrencyDecision
  errorCode : Option SkipCode := none

/-- Whether a new Run may start while one of its Schedule is active. `replaceCancelConfirmed` is
`none` before the cancel was confirmed or its window ran out. -/
def decideConcurrency (policy : ConcurrencyPolicy) (previousRunActive : Bool)
    (replaceCancelConfirmed : Option Bool := none) : ConcurrencyOutcome :=
  if !previousRunActive then ⟨.start, none⟩
  else match policy with
    | .allow => ⟨.start, none⟩
    | .forbid => ⟨.skip, some .skippedConcurrency⟩
    | .replace => match replaceCancelConfirmed with
      | none => ⟨.replaceCancelExisting, none⟩
      | some true => ⟨.start, none⟩
      | some false => ⟨.skip, some .skippedReplaceCancelTimeout⟩

/-- `SCHEDULE_REPLACE_CANCEL_TIMEOUT_S` -/
def replaceCancelTimeoutS : ℤ := 60

/-- Whether the cancel of the existing Run was confirmed within the REPLACE timeout. -/
def replaceCancelConfirmed (requestedAt : Time) (confirmedAt : Option Time) : Bool :=
  match confirmedAt with
  | none => false
  | some at' => at' - requestedAt ≤ seconds replaceCancelTimeoutS

/-! ## Missed Runs -/

structure MissedOccurrence where
  occurrenceKey : String
  scheduledFor : Time

structure MissedRunPlan where
  toCreate : List MissedOccurrence
  skipped : List MissedOccurrence
  warning : Option String := none

/-- `sorted(missed, key=lambda m: m.scheduled_for)` -/
def sortMissed (missed : List MissedOccurrence) : List MissedOccurrence :=
  missed.insertionSort fun a b ↦ a.scheduledFor ≤ b.scheduledFor

/-- The warning of a backfill that left something out. -/
def backfillWarning (outside dropped chosen ordered : ℕ) (limit : ℤ) : String :=
  s!"BACKFILL_TRUNCATED: {outside} outside window, {dropped} beyond limit {limit}; " ++
    s!"created {chosen} of {ordered} missed occurrences"

/-- What BACKFILL_LIMITED makes of the missed occurrences, the oldest first. -/
def backfillPlan (ordered : List MissedOccurrence) (windowStart : Time) (backfillLimit : ℤ) :
    MissedRunPlan :=
  let inWindow := ordered.filter fun m ↦ windowStart ≤ m.scheduledFor
  let outside := ordered.filter fun m ↦ m.scheduledFor < windowStart
  let chosen := inWindow.take backfillLimit.toNat
  let dropped := inWindow.drop backfillLimit.toNat
  ⟨chosen, outside ++ dropped, if outside.isEmpty && dropped.isEmpty then none
    else some (backfillWarning outside.length dropped.length chosen.length ordered.length
      backfillLimit)⟩

/-- Materialize missed occurrences after a restart. -/
def planMissedRuns (policy : MissedRunPolicy) (missed : List MissedOccurrence) (nowUtc : Time)
    (backfillWindowSeconds backfillLimit : ℤ) : Except ScheduleContractError MissedRunPlan :=
  let ordered := sortMissed missed
  match ordered.getLast?, policy with
  | none, _ => .ok ⟨[], ordered, none⟩
  | some _, .skip => .ok ⟨[], ordered, none⟩
  | some last, .runOnce => .ok ⟨[last], ordered.dropLast, none⟩
  | some _, .backfillLimited =>
    if backfillWindowSeconds < 0 || backfillLimit < 0 then
      .error ⟨"BACKFILL_INVALID", "window and limit must be >= 0"⟩
    else .ok (backfillPlan ordered (nowUtc - seconds backfillWindowSeconds) backfillLimit)

variable {limit : ℤ} {m : MissedOccurrence}

theorem mem_backfillPlan {ordered : List MissedOccurrence} {windowStart : Time} :
    m ∈ (backfillPlan ordered windowStart limit).toCreate ∨
      m ∈ (backfillPlan ordered windowStart limit).skipped ↔ m ∈ ordered := by
  have hin : m ∈ ordered.filter (fun m ↦ windowStart ≤ m.scheduledFor) ↔
      m ∈ (ordered.filter fun m ↦ windowStart ≤ m.scheduledFor).take limit.toNat ∨
        m ∈ (ordered.filter fun m ↦ windowStart ≤ m.scheduledFor).drop limit.toNat := by
    rw [← mem_append, take_append_drop]
  simp only [backfillPlan, mem_append]
  rw [or_left_comm, ← hin, mem_filter, mem_filter, ← and_or_left]
  simp [lt_or_ge]

/-- **Nothing is forgotten.** Every missed occurrence is created or skipped, and nothing else
is. -/
theorem mem_planMissedRuns {policy : MissedRunPolicy} {missed : List MissedOccurrence}
    {nowUtc : Time} {window : ℤ} {plan : MissedRunPlan}
    (h : planMissedRuns policy missed nowUtc window limit = .ok plan) :
    m ∈ plan.toCreate ∨ m ∈ plan.skipped ↔ m ∈ missed := by
  have hord : m ∈ sortMissed missed ↔ m ∈ missed := (perm_insertionSort _ _).mem_iff
  rw [← hord]
  unfold planMissedRuns at h
  cases hlast : (sortMissed missed).getLast? with
  | none =>
    simp only [hlast] at h
    obtain rfl := Except.ok.inj h
    simp
  | some =>
    obtain ⟨init, hinit⟩ := List.getLast?_eq_some_iff.1 hlast
    cases policy with
    | skip =>
      simp only [hlast] at h
      obtain rfl := Except.ok.inj h
      simp
    | runOnce =>
      simp only [hlast] at h
      obtain rfl := Except.ok.inj h
      rw [hinit]
      simp [or_comm]
    | backfillLimited =>
      simp only [hlast] at h
      split_ifs at h with hneg
      obtain rfl := Except.ok.inj h
      exact mem_backfillPlan

/-! ## Retries -/

/-- `SCHEDULE_RETRY_MAX_ATTEMPTS` -/
def retryMaxAttempts : ℤ := 3

/-- `SCHEDULE_RETRY_BACKOFF_S` -/
def retryBackoffS : List ℤ := [1, 5, 25]

/-- `SCHEDULE_RETRY_JITTER_MAX_RATIO` -/
def retryJitterMaxRatio : ℚ := 1 / 5

/-- A retry policy. The bounds on the attempts and the jitter are checked at construction. -/
structure RetryPolicy where
  maxAttempts : ℤ := retryMaxAttempts
  backoffSeconds : List ℤ := retryBackoffS
  jitterRatio : ℚ := retryJitterMaxRatio
  maxAttempts_mem : 1 ≤ maxAttempts ∧ maxAttempts ≤ retryMaxAttempts := by decide
  jitterRatio_mem : 0 ≤ jitterRatio ∧ jitterRatio ≤ retryJitterMaxRatio := by decide

/-- `RetryPolicy(**kwargs)` -/
def RetryPolicy.make (maxAttempts : ℤ) (backoffSeconds : List ℤ) (jitterRatio : ℚ) :
    Except ScheduleContractError RetryPolicy :=
  if hmax : 1 ≤ maxAttempts ∧ maxAttempts ≤ retryMaxAttempts then
    if hjit : 0 ≤ jitterRatio ∧ jitterRatio ≤ retryJitterMaxRatio then
      .ok ⟨maxAttempts, backoffSeconds, jitterRatio, hmax, hjit⟩
    else .error ⟨"RETRY_POLICY_INVALID", "jitter_ratio outside 0..0.2"⟩
  else .error ⟨"RETRY_POLICY_INVALID", s!"max_attempts must be 1..{retryMaxAttempts}"⟩

/-- `transient_error_codes` -/
def transientErrorCodes : List String := ["TRANSIENT", "TIMEOUT_TRANSIENT", "PROVIDER_UNAVAILABLE"]

inductive RetryOutcome where
  | retry (nextAttemptNo : ℕ) (delayMinS delayMaxS : ℚ)
  | failPermanent
  | failExhausted

/-- Attempt `attemptNo` (1-based) failed with `errorCode`: the next step. An empty list of backoffs
has no last element. -/
def decideRetry (policy : RetryPolicy) (attemptNo : ℕ) (errorCode : String) : Option RetryOutcome :=
  if errorCode ∉ transientErrorCodes then some .failPermanent
  else if policy.maxAttempts ≤ attemptNo then some .failExhausted
  else
    (policy.backoffSeconds[min (attemptNo - 1) (policy.backoffSeconds.length - 1)]?).map
      fun base ↦ .retry (attemptNo + 1) base (base * (1 + policy.jitterRatio))

end AgentColab.Schedules
