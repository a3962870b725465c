import Mathlib.Tactic.FinCases

/-!
# The VerificationRun state machine

A run is planned, assigned, started and closed by a verdict. A failed or blocked run is brought back
by a fix or a recheck, and any run that is not terminal can be cancelled.
-/

namespace AgentColab.Verification

inductive VerificationStatus where
  | planned
  | assigned
  | running
  | passed
  | failed
  | blocked
  | cancelled
  | fixSubmitted
  | recheckAssigned
deriving DecidableEq

def VerificationStatus.value : VerificationStatus → String
  | planned => "PLANNED"
  | assigned => "ASSIGNED"
  | running => "RUNNING"
  | passed => "PASSED"
  | failed => "FAILED"
  | blocked => "BLOCKED"
  | cancelled => "CANCELLED"
  | fixSubmitted => "FIX_SUBMITTED"
  | recheckAssigned => "RECHECK_ASSIGNED"

inductive Verdict where
  | passed
  | failed
  | blocked
deriving DecidableEq

def Verdict.value : Verdict → String
  | passed => "PASSED"
  | failed => "FAILED"
  | blocked => "BLOCKED"

/-- `VerificationStatus(result)` -/
def Verdict.status : Verdict → VerificationStatus
  | passed => .passed
  | failed => .failed
  | blocked => .blocked

/-- A verdict carries the result that was submitted. -/
inductive VerificationOp where
  | assign
  | start
  | verdict (result : Verdict)
  | fix
  | recheck
  | cancel
deriving DecidableEq

def VerificationOp.value : VerificationOp → String
  | assign => "assign"
  | start => "start"
  | verdict _ => "verdict"
  | fix => "fix"
  | recheck => "recheck"
  | cancel => "cancel"

namespace VerificationStatus

/-- `TERMINAL` -/
def terminal : List VerificationStatus := [passed, cancelled]

/-- `TRANSITIONS` -/
def transitions : VerificationStatus → VerificationOp → Option VerificationStatus
  | planned, .assign => some assigned
  | assigned, .start => some running
  | recheckAssigned, .start => some running
  | running, .verdict result => some result.status
  | failed, .fix => some fixSubmitted
  | blocked, .fix => some fixSubmitted
  | fixSubmitted, .recheck => some recheckAssigned
  | blocked, .recheck => some recheckAssigned
  | planned, .cancel => some cancelled
  | assigned, .cancel => some cancelled
  | running, .cancel => some cancelled
  | failed, .cancel => some cancelled
  | blocked, .cancel => some cancelled
  | fixSubmitted, .cancel => some cancelled
  | recheckAssigned, .cancel => some cancelled
  | _, _ => none

end VerificationStatus

structure VerificationError where
  code : String
  detail : String

def nextStatus (current : VerificationStatus) (op : VerificationOp) :
    Except VerificationError VerificationStatus :=
  if current ∈ VerificationStatus.terminal then
    .error ⟨"VERIFICATION_TERMINAL", current.value ++ " is terminal"⟩
  else match current.transitions op with
    | some target => .ok target
    | none => .error ⟨"VERIFICATION_TRANSITION_INVALID",
      op.value ++ " is not allowed in " ++ current.value⟩

variable {current target : VerificationStatus} {op : VerificationOp}

theorem nextStatus_eq_ok :
    nextStatus current op = .ok target ↔ current.transitions op = some target := by
  cases current <;> cases op <;> simp [nextStatus, VerificationStatus.terminal,
    VerificationStatus.transitions]

theorem running_of_transitions (h : current.transitions op = some .running) : op = .start := by
  rw [VerificationStatus.transitions.eq_def] at h
  split at h <;> simp_all
  next result => cases result <;> cases h

theorem terminal_of_transitions (h : current.transitions op = some target)
    (ht : target ∈ VerificationStatus.terminal) :
    op = .verdict .passed ∧ current = .running ∨ op = .cancel := by
  rw [VerificationStatus.transitions.eq_def] at h
  split at h <;> simp_all [VerificationStatus.terminal]
  all_goals
    subst h
    rcases ht with ht | ht
    all_goals first | exact absurd ht (by decide) | skip
  next result => cases result <;> simp_all [Verdict.status]
  next result => cases result <;> simp_all [Verdict.status]

end AgentColab.Verification
