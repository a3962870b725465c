import AgentColab.Tasks.Commands

/-!
# Verification commands

A run is a row with a status. Its creation and its verdicts are Events; the other moves change the
status only. The verdict on a run whose target is a Task goes through the Task package, so that the
Task moves in the same transaction.
-/

namespace AgentColab.Verification

open AgentColab Transaction Tasks

variable (cfg : Config)

/-- `_run_or_error` -/
def loadRun (verificationId : String) : Body VerificationRun := do
  match ← ask (.loadRun verificationId) with
  | some run => return run
  | none => throw ⟨"VERIFICATION_NOT_FOUND", verificationId, 404⟩

/-- The Task that a run moves: `run.target_type == "task" and run.task_id`. -/
def targetTask (run : VerificationRun) : Option String :=
  if run.targetType = "task" then orElse run.taskId none else none

/-- `_replay` -/
def replay (ctx : Context) (verificationId scope : String) : Body (Option Tasks.Event) := do
  return (← ask (.stream "verification_run" verificationId)).find? fun e ↦
    e.idempotencyScope = scope && e.idempotencyKey = ctx.idempotencyKey &&
      e.actorAccountId = ctx.accountUuid

/-- `_event` -/
def appendRunEvent (ctx : Context) (run : VerificationRun) (etype : EventType) (scope : String) :
    Body Tasks.AppendResult := do
  let stream ← ask (.stream "verification_run" run.verificationId)
  Tasks.append {
    aggregateType := "verification_run"
    aggregateId := run.verificationId
    type := etype
    actorAccountId := ctx.accountUuid
    idempotencyScope := scope
    idempotencyKey := ctx.idempotencyKey
    payload := { verificationId := some run.verificationId }
    taskId := run.taskId
    causedBy := stream.getLast?.map (·.eventId)
    expectedSeq := Tasks.nextSeq stream }

/-- `_transition` -/
def moveRun (run : VerificationRun) (op : VerificationOp) : Body VerificationStatus :=
  orRaise ((nextStatus run.status op).mapError fun e ↦ ⟨e.code, e.detail, 409⟩)

structure CreateVerificationRun where
  targetType : String
  targetId : String
  implementerAccountId : String
  verifierAccountId : String
  implementerCredentialFingerprint : String
  verifierCredentialFingerprint : String
  taskId : Option String := none

def newVerificationId (ctx : Context) : String :=
  "vr-" ++ ((cfg.uuid5 (cfg.workspaceId ++ "|" ++ ctx.accountUuid ++ "|" ++
    ctx.idempotencyKey)).take 20).toString

def createVerificationRun (ctx : Context) (cmd : CreateVerificationRun) : Body Unit := do
  external "require_permission verification.assign"
  if cmd.targetType ∉ ["phase", "task"] then
    throw ⟨"VERIFICATION_TARGET_INVALID", cmd.targetType, 400⟩
  else
  let implementer ← accountUuid cmd.implementerAccountId
  let verifier ← accountUuid cmd.verifierAccountId
  external "check_independence"
  let vid := newVerificationId cfg ctx
  let existing ← ask (.loadRun vid)
  let prior ← replay ctx vid "verification_run:create"
  if existing.isSome && prior.isSome then pure ()
  else
  let run : VerificationRun := {
    verificationId := vid
    targetType := cmd.targetType
    targetId := cmd.targetId
    taskId := cmd.taskId
    implementerAccountId := implementer
    verifierAccountId := verifier
    implementerCredentialFingerprint := cmd.implementerCredentialFingerprint
    verifierCredentialFingerprint := cmd.verifierCredentialFingerprint }
  orRaise (← ask (.insertRun run))
  let _ ← appendRunEvent ctx run .verifierAssigned "verification_run:create"
  external "record_offer"

inductive Mover where
  | anyone
  | verifier
  | implementer

def Mover.check (ctx : Context) (run : VerificationRun) : Mover → Body Unit
  | anyone => pure ()
  | verifier =>
    if ctx.accountUuid ≠ run.verifierAccountId then
      throw ⟨"VERIFIER_MISMATCH", "only the assigned verifier may do this", 409⟩
    else pure ()
  | implementer =>
    if ctx.accountUuid ≠ run.implementerAccountId then
      throw ⟨"IMPLEMENTER_MISMATCH", "only the implementer may do this", 409⟩
    else pure ()

/-- `_simple_move`: whether the status was changed now. No Event is appended. -/
def simpleMove (ctx : Context) (verificationId : String) (op : VerificationOp)
    (scope permission : String) (mover : Mover) : Body Bool := do
  let run ← loadRun verificationId
  mover.check ctx run
  external ("require_permission " ++ permission)
  match ← replay ctx verificationId scope with
  | some _ => return false
  | none =>
    let target ← moveRun run op
    ask (.setRunStatus verificationId target)
    external "append_audit"
    return true

def assignVerifier (ctx : Context) (verificationId : String) : Body Unit := do
  let _ ← simpleMove ctx verificationId .assign "verification_run:assign" "verification.assign"
    .anyone

/-- The Task of the run enters `VERIFYING`, if it is `IMPLEMENTED`. -/
def enterTaskVerifying (ctx : Context) (verificationId : String) : Body Unit := do
  let run ← loadRun verificationId
  match targetTask run with
  | none => pure ()
  | some taskId =>
    let state ← loadTask taskId
    if state.status = .implemented then
      let _ ← startTaskVerification ctx taskId verificationId

def startVerification (ctx : Context) (verificationId : String) : Body Unit := do
  if ← simpleMove ctx verificationId .start "verification_run:start" "verification.submit"
      .verifier then
    enterTaskVerifying ctx verificationId

def submitFix (ctx : Context) (verificationId : String) : Body Unit := do
  let _ ← simpleMove ctx verificationId .fix "verification_run:fix" "task.submit" .implementer

def requestRecheck (ctx : Context) (verificationId : String) : Body Unit := do
  let _ ← simpleMove ctx verificationId .recheck "verification_run:recheck" "verification.assign"
    .anyone

def cancelVerification (ctx : Context) (verificationId : String) : Body Unit := do
  let _ ← simpleMove ctx verificationId .cancel "verification_run:cancel" "verification.assign"
    .anyone

/-- The verdict of the run as an Event: through the Task package if the target is a Task. -/
def verdictEvent (ctx : Context) (run : VerificationRun) (result : Verdict) : Body Unit := do
  match targetTask run with
  | some taskId =>
    let _ ← recordVerificationResult ctx taskId run.verificationId result
  | none =>
    let _ ← appendRunEvent ctx run (resultType result) "verification_run:result"

def submitVerdict (ctx : Context) (verificationId : String) (result : Verdict) : Body Unit := do
  let run ← loadRun verificationId
  external "check_submitter"
  if ctx.accountUuid ≠ run.verifierAccountId then
    throw ⟨"VERIFIER_MISMATCH", "only the assigned verifier may submit", 409⟩
  else
  external "require_permission verification.submit"
  match ← replay ctx verificationId "verification_run:result" with
  | some _ => pure ()
  | none =>
    external "validate_verdict"
    let _ ← moveRun run (.verdict result)
    verdictEvent ctx run result
    external "append_revision"
    ask (.setRunResult verificationId (run.currentRevision + 1) result)
    external "on_verification_terminal"

/-! ## Calls -/

inductive TaskCall where
  | createTask (cmd : CreateTask)
  | createSubtask (cmd : CreateSubtask)
  | delegate (taskId assignee reasonCode : String)
  | reassign (taskId assignee reasonCode : String)
  | accept (taskId : String)
  | start (taskId : String)
  | progress (taskId summary : String)
  | wait (taskId reasonCode : String)
  | submit (taskId : String) (criteriaRevision : ℤ)
  | verify (taskId verificationId : String)
  | recordResult (taskId verificationId : String) (result : Verdict)
  | complete (taskId documentId : String)
  | requestCancel (taskId reasonCode : String)
  | cancel (taskId reasonCode : String)
  | reviseCriteria (taskId : String) (criteriaRevision : ℤ)

inductive RunCall where
  | create (cmd : CreateVerificationRun)
  | assign (verificationId : String)
  | start (verificationId : String)
  | verdict (verificationId : String) (result : Verdict)
  | fix (verificationId : String)
  | recheck (verificationId : String)
  | cancel (verificationId : String)

/-- A command of either package, or the scheduler at work on its Runs. -/
inductive Call where
  | task (ctx : Context) (call : TaskCall)
  | run (ctx : Context) (call : RunCall)
  | schedule (runs : List ScheduleRun)

def taskBody (ctx : Context) : TaskCall → Body Answer
  | .createTask cmd => createTask cfg ctx cmd
  | .createSubtask cmd => createSubtask cfg ctx cmd
  | .delegate t assignee reason => delegateTask ctx t assignee reason
  | .reassign t assignee reason => reassignTask ctx t assignee reason
  | .accept t => acceptTask ctx t
  | .start t => startTask ctx t
  | .progress t summary => reportProgress ctx t summary
  | .wait t reason => markWaiting ctx t reason
  | .submit t revision => submitImplementation ctx t revision
  | .verify t vid => startTaskVerification ctx t vid
  | .recordResult t vid result => recordVerificationResult ctx t vid result
  | .complete t document => completeTask ctx t document
  | .requestCancel t reason => Tasks.requestCancel ctx t reason
  | .cancel t reason => cancelTask ctx t reason
  | .reviseCriteria t revision => Tasks.reviseCriteria ctx t revision

def runBody (ctx : Context) : RunCall → Body Unit
  | .create cmd => createVerificationRun cfg ctx cmd
  | .assign vid => assignVerifier ctx vid
  | .start vid => startVerification ctx vid
  | .verdict vid result => submitVerdict ctx vid result
  | .fix vid => submitFix ctx vid
  | .recheck vid => requestRecheck ctx vid
  | .cancel vid => cancelVerification ctx vid

def body : Call → Body Unit
  | .task ctx call => do
    let _ ← taskBody cfg ctx call
  | .run ctx call => runBody cfg ctx call
  | .schedule runs => ask (.setScheduleRuns runs)

end AgentColab.Verification
