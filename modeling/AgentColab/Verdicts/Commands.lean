import AgentColab.Verdicts.Statements

/-!
# Verification commands

The handlers of the command bus that write runs and revisions, and the sweep of the offers that
were not accepted in time. A verdict is checked twice against self-verification: by the command, on
the identity of the submitter and the aliases of the moment, and by the guard of the `INSERT`.
-/

namespace AgentColab.Verdicts

open Transaction
open Verification (Verdict VerificationStatus VerificationOp nextStatus)

/-- What the commands take from libraries: the text of a hash, and of a schema error. -/
structure Config where
  uuid5 : String → String
  schemaError : List (String × Json) → String

structure CommandContext where
  workspaceId : String
  accountId : String
  accountUuid : String
  credentialFingerprint : String
  idempotencyKey : String

variable (cfg : Config) (ctx : CommandContext)

def orRaise {α : Type} : Except CommandError α → Body α
  | .ok a => pure a
  | .error e => throw e

/-- A verification error becomes a command error with the same code. -/
def orVerdictError {α : Type} : Except VerdictError α → Body α
  | .ok a => pure a
  | .error e => throw ⟨e.code, e.detail, e.status⟩

/-- Call another package; what it raises is raised. -/
def external (call : External) : Body (Option String) := do
  orRaise (← ask (.external call))

/-- `_account` -/
def account (accountId : String) : Body String := do
  match ← external (.account accountId) with
  | some uuid => return uuid
  | none => throw ⟨"ACCOUNT_NOT_FOUND", accountId, 404⟩

/-- `load_run` -/
def loadRun (verificationId : String) : Body RunRow := do
  match ← ask (.loadRun verificationId) with
  | some run => return run
  | none => throw ⟨"VERIFICATION_NOT_FOUND", verificationId, 404⟩

/-- `_run_or_error` -/
def runOrError (verificationId : String) : Body RunRow := do
  let run ← loadRun verificationId
  if run.workspaceId = ctx.workspaceId then return run
  else throw ⟨"VERIFICATION_NOT_FOUND", verificationId, 404⟩

/-- `_transition` -/
def moveRun (run : RunRow) (op : VerificationOp) : Body VerificationStatus :=
  orRaise ((nextStatus run.status op).mapError fun e ↦ ⟨e.code, e.detail, 409⟩)

def RunRow.targetTask (run : RunRow) : Option String :=
  if run.targetType = "task" then run.taskId.filter (· ≠ "") else none

/-! ## Creation -/

structure CreateVerificationRun where
  targetType : String
  targetId : String
  implementerAccountId : String
  verifierAccountId : String
  implementerCredentialFingerprint : String
  verifierCredentialFingerprint : String
  criteriaVersion : String := "v8.0"
  implementerAgentId : Option String := none
  verifierAgentId : Option String := none
  taskId : Option String := none
  autoAssign : Bool := false

/-- `resolve_auto_assign` -/
def resolveAutoAssign (cmd : CreateVerificationRun) : Body CreateVerificationRun := do
  match cmd.taskId.filter (· ≠ "") with
  | none => throw ⟨"VERIFICATION_TARGET_INVALID", "auto_assign needs task_id", 400⟩
  | some taskId =>
    let chosen ← orRaise (← ask (.resolveAutoAssign cmd.implementerAccountId taskId))
    return { cmd with
      verifierAccountId := chosen.accountId
      verifierCredentialFingerprint := chosen.credentialFingerprint
      verifierAgentId := chosen.agentId }

/-- The verifier is the one of the command, or the one that the assignment engine picks. -/
def withVerifier (cmd : CreateVerificationRun) : Body CreateVerificationRun :=
  if cmd.autoAssign ∧ cmd.verifierAccountId = "" then resolveAutoAssign cmd else pure cmd

/-- The identities that a command names. -/
def parties (cmd : CreateVerificationRun) : Body Parties := do
  let implementer ← account cmd.implementerAccountId
  let verifier ← account cmd.verifierAccountId
  return {
    implementer := ⟨implementer, cmd.implementerCredentialFingerprint, cmd.implementerAgentId⟩
    verifier := ⟨verifier, cmd.verifierCredentialFingerprint, cmd.verifierAgentId⟩ }

/-- An audit of a rejection is committed on its own, before the command raises. -/
def orRejected {α : Type} (action : VerdictError → String) : Except VerdictError α → Body α
  | .ok a => pure a
  | .error e => do
    let _ ← external (.auditAutonomous (action e) e.code)
    throw ⟨e.code, e.detail, e.status⟩

/-- The id of a run: a retry of the command finds the same run. -/
def newVerificationId : String :=
  "vr-" ++ ((cfg.uuid5 (ctx.workspaceId ++ "|" ++ ctx.accountUuid ++ "|" ++
    ctx.idempotencyKey)).take 20).toString

/-- An `IntegrityError` of the `INSERT`. -/
def notIndependentDb (e : CommandError) : CommandError :=
  ⟨"VERIFIER_NOT_INDEPENDENT_DB", e.detail, 409⟩

def newRun (cmd : CreateVerificationRun) (verificationId : String) (parties : Parties) :
    RunRow where
  verificationId := verificationId
  workspaceId := ctx.workspaceId
  targetType := cmd.targetType
  targetId := cmd.targetId
  taskId := cmd.taskId
  parties := parties
  criteriaVersion := cmd.criteriaVersion

def createVerificationRun (cmd : CreateVerificationRun) : Body Unit := do
  let _ ← external (.requirePermission "verification.assign")
  if cmd.targetType ∉ ["phase", "task"] then
    throw ⟨"VERIFICATION_TARGET_INVALID", cmd.targetType, 400⟩
  else
  let cmd ← withVerifier cmd
  let parties ← parties cmd
  let graph ← ask (.aliasGraph ctx.workspaceId)
  orRejected (fun _ ↦ "verification.create_rejected")
    (checkIndependence parties.implementer parties.verifier graph)
  let verificationId := newVerificationId cfg ctx
  let existing ← ask (.loadRun verificationId)
  let replay ← external (.replay verificationId "verification_run:create")
  if existing.isSome ∧ replay.isSome then return ()
  else
  orRaise ((← ask (.insertRun (newRun ctx cmd verificationId parties))).mapError notIndependentDb)
  let _ ← external (.appendEvent "VERIFIER_ASSIGNED" "verification_run:create")
  if cmd.autoAssign then
    let _ ← external (.recordOffer verificationId)
    return ()

/-! ## Moves -/

/-- Who may make a move. -/
inductive Mover where
  | anyone
  | verifier
  | implementer

def Mover.check (run : RunRow) : Mover → Body Unit
  | anyone => pure ()
  | verifier =>
    if ctx.accountUuid = run.parties.verifier.accountId then pure ()
    else throw ⟨"VERIFIER_MISMATCH", "only the assigned verifier may do this", 409⟩
  | implementer =>
    if ctx.accountUuid = run.parties.implementer.accountId then pure ()
    else throw ⟨"IMPLEMENTER_MISMATCH", "only the implementer may do this", 409⟩

/-- `_simple_move`: whether it was a replay. -/
def simpleMove (verificationId : String) (op : VerificationOp) (scope permission : String)
    (mover : Mover) : Body Bool := do
  let run ← runOrError ctx verificationId
  mover.check ctx run
  let _ ← external (.requirePermission permission)
  match ← external (.replay verificationId scope) with
  | some _ => return true
  | none =>
    let target ← moveRun run op
    ask (.setStatus verificationId target)
    let _ ← external (.audit ("verification." ++ op.value))
    return false

def assignVerifier (verificationId : String) : Body Unit := do
  let _ ← simpleMove ctx verificationId .assign "verification_run:assign" "verification.assign"
    .anyone

def startVerification (verificationId : String) : Body Unit := do
  let replayed ← simpleMove ctx verificationId .start "verification_run:start"
    "verification.submit" .verifier
  if replayed then return ()
  else
  let _ ← external (.enterTaskVerifying verificationId)
  return ()

def submitFix (verificationId : String) : Body Unit := do
  let _ ← simpleMove ctx verificationId .fix "verification_run:fix" "task.submit" .implementer

def requestRecheck (verificationId : String) : Body Unit := do
  let _ ← simpleMove ctx verificationId .recheck "verification_run:recheck" "verification.assign"
    .anyone

def cancelVerification (verificationId : String) : Body Unit := do
  let _ ← simpleMove ctx verificationId .cancel "verification_run:cancel" "verification.assign"
    .anyone

/-! ## Verdicts -/

structure SubmitVerdict where
  verificationId : String
  result : String
  report : List (String × Json) := []

/-- `_task_verdict_event` or `_event`: the id of the Event. -/
def verdictEvent (run : RunRow) (result : Verdict) : Body String := do
  match run.targetTask with
  | some taskId => return (← external (.taskVerdict taskId result)).getD ""
  | none =>
    return (← external
      (.appendEvent ("VERIFICATION_" ++ result.value) "verification_run:result")).getD ""

def newRevision (run : RunRow) (report : List (String × Json)) (result : Verdict)
    (eventId : String) : RevisionRow where
  verificationId := run.verificationId
  revision := run.currentRevision + 1
  result := result
  submittedByAccountId := ctx.accountUuid
  submitterCredentialFingerprint := ctx.credentialFingerprint
  report := report
  eventId := eventId

def newFinding (run : RunRow) (f : Finding) : FindingRow where
  findingId := run.verificationId ++ ":" ++ toString (run.currentRevision + 1) ++ ":" ++ f.id
  verificationId := run.verificationId
  revision := run.currentRevision + 1
  severity := f.severity
  summary := f.summary

/-- `append_revision` -/
def appendRevision (run : RunRow) (report : List (String × Json)) (result : Verdict)
    (findings : List Finding) (eventId : String) : Body Unit := do
  let inserted ← orRaise (← ask (.insertRevision (newRevision ctx run report result eventId)))
  if inserted ≠ 1 then
    throw ⟨"SELF_VERIFICATION_FORBIDDEN", "rejected by the revision guard", 409⟩
  else
  Prog.forEach findings fun f ↦ do
    orRaise (← ask (.insertFinding (newFinding run f)))
  ask (.setResult run.verificationId (run.currentRevision + 1) result)

def documentVerdict (run : RunRow) : Body Unit := do
  match run.targetTask with
  | some taskId =>
    let _ ← external (.onVerificationTerminal taskId)
    return ()
  | none => return ()

def selfSubmitAction (e : VerdictError) : String :=
  if e.code = "SELF_VERIFICATION_FORBIDDEN" then "verification.self_submit_rejected"
  else "verification.submit_rejected"

def submitVerdict (cmd : SubmitVerdict) : Body Unit := do
  let run ← runOrError ctx cmd.verificationId
  let graph ← ask (.aliasGraph ctx.workspaceId)
  orRejected selfSubmitAction
    (checkSubmitter run.parties ctx.accountUuid ctx.credentialFingerprint graph)
  let _ ← external (.requirePermission "verification.submit")
  match ← external (.replay cmd.verificationId "verification_run:result") with
  | some _ => return ()
  | none =>
    let report := reportOrDefault cmd.report cmd.result run.criteriaVersion
    let verdict ← orVerdictError (validateVerdict cfg.schemaError report cmd.result)
    let _ ← moveRun run (.verdict verdict.result)
    let eventId ← verdictEvent run verdict.result
    appendRevision ctx run report verdict.result verdict.findings eventId
    documentVerdict run

/-! ## Callers of the commands -/

/-- An offer that was not accepted in time. -/
structure Offer where
  verificationId : String
  taskId : String

/-- The statuses that show that an offer was accepted. -/
def acceptedStatuses : List VerificationStatus :=
  [.running, .passed, .failed, .blocked, .fixSubmitted]

/-- The next candidate is asked for a run of the same scope. -/
def reassign (ctx : CommandContext) (run : RunRow) (taskId : String) : Body Unit := do
  let rank ← external (.nextRank taskId)
  let implementer ← external (.publicId run.parties.implementer.accountId)
  createVerificationRun cfg
    { ctx with idempotencyKey := "vr-next:" ++ taskId ++ ":" ++ rank.getD "" } {
      targetType := run.targetType
      targetId := run.targetId
      implementerAccountId := implementer.getD run.parties.implementer.accountId
      verifierAccountId := ""
      implementerCredentialFingerprint := run.parties.implementer.credentialFingerprint
      verifierCredentialFingerprint := ""
      criteriaVersion := run.criteriaVersion
      implementerAgentId := run.parties.implementer.agentId
      taskId := run.taskId
      autoAssign := true }

/-- `mark_waiting` may find the Task elsewhere. -/
def onExhausted (run : RunRow) (taskId : String) : Body Unit := do
  let _ ← external (.exhausted run.verificationId)
  let _ ← external (.setOffer run.verificationId "exhausted")
  Prog.tryCatch (do let _ ← external (.markWaiting taskId)) fun e ↦
    if e.code ∈ ["TASK_TRANSITION_INVALID", "TASK_TERMINAL"] then pure () else throw e

def timeOut (offer : Offer) : Body Unit := do
  let run ← loadRun offer.verificationId
  if run.status ∈ acceptedStatuses then
    let _ ← external (.setOffer run.verificationId "accepted")
    return ()
  else
  let _ ← external (.setOffer run.verificationId "timed_out")
  cancelVerification { ctx with idempotencyKey := "vr-timeout:" ++ run.verificationId }
    run.verificationId
  Prog.tryCatch (reassign cfg ctx run offer.taskId) fun e ↦
    if e.code ≠ "VERIFIER_NONE_ELIGIBLE" then throw e else onExhausted run offer.taskId

/-- `sweep_timeouts` -/
def sweepTimeouts (offers : List Offer) : Body Unit := Prog.forEach offers (timeOut cfg ctx)

/-- The review after a break-glass session: what the creation raises is recorded and dropped. -/
def createPosthocReview (cmd : CreateVerificationRun) : Body Unit :=
  Prog.tryCatch (createVerificationRun cfg ctx cmd) fun e ↦ do
    let _ ← external (.audit ("breakglass.posthoc_pending:" ++ e.code))
    return ()

inductive Call where
  | create (cmd : CreateVerificationRun)
  | assign (verificationId : String)
  | start (verificationId : String)
  | verdict (cmd : SubmitVerdict)
  | fix (verificationId : String)
  | recheck (verificationId : String)
  | cancel (verificationId : String)
  | sweepTimeouts (offers : List Offer)
  | posthocReview (cmd : CreateVerificationRun)
  /-- An administrator changes the aliases. -/
  | setAliases (rows : List AliasRow)

def body : Call → Body Unit
  | .create cmd => createVerificationRun cfg ctx cmd
  | .assign vid => assignVerifier ctx vid
  | .start vid => startVerification ctx vid
  | .verdict cmd => submitVerdict cfg ctx cmd
  | .fix vid => submitFix ctx vid
  | .recheck vid => requestRecheck ctx vid
  | .cancel vid => cancelVerification ctx vid
  | .sweepTimeouts offers => sweepTimeouts cfg ctx offers
  | .posthocReview cmd => createPosthocReview cfg ctx cmd
  | .setAliases rows => ask (.setAliases rows)

end AgentColab.Verdicts
