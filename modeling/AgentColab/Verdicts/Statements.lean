import AgentColab.Transaction.Serial
import AgentColab.Verdicts.Report

/-!
# The tables of verification and the statements on them

A run pins the identities of its implementer and its verifier; its status, its result and the number
of its last revision are updated. Revisions and findings are only added to. What the other packages
answer, and whether they raise, is the environment's choice.
-/

namespace AgentColab.Verdicts

open Transaction
open Verification (Verdict VerificationStatus)
open Approvals (AliasGraph)

/-! ## Tables -/

/-- A row of `verification_runs`. -/
structure RunRow where
  verificationId : String
  workspaceId : String
  targetType : String
  targetId : String
  taskId : Option String := none
  parties : Parties
  criteriaVersion : String
  status : VerificationStatus := .planned
  currentRevision : ℕ := 0
  result : Option Verdict := none

/-- A row of `verification_revisions`. -/
structure RevisionRow where
  verificationId : String
  revision : ℕ
  result : Verdict
  submittedByAccountId : String
  submitterCredentialFingerprint : String
  report : List (String × Json)
  eventId : String

/-- A row of `verification_findings`. -/
structure FindingRow where
  findingId : String
  verificationId : String
  revision : ℕ
  severity : Severity
  summary : String

/-- A row of `account_aliases`, with the Workspace of the Account. -/
structure AliasRow where
  workspaceId : String
  accountId : String
  aliasOfAccountId : String

structure Store where
  runs : List RunRow := []
  revisions : List RevisionRow := []
  findings : List FindingRow := []
  aliases : List AliasRow := []

namespace Store

variable (s : Store)

def run (verificationId : String) : Option RunRow :=
  s.runs.find? (·.verificationId = verificationId)

def revisionsOf (verificationId : String) : List RevisionRow :=
  s.revisions.filter (·.verificationId = verificationId)

/-- `alias_graph`: a later row of an Account replaces an earlier one. -/
def graph (workspaceId : String) : AliasGraph :=
  ((s.aliases.filter (·.workspaceId = workspaceId)).map fun row ↦
    (row.accountId, row.aliasOfAccountId)).reverse

end Store

/-! ## Statements -/

/-- A call whose effect is not on these tables. -/
inductive External where
  | requirePermission (permission : String)
  | account (accountId : String)
  | publicId (accountUuid : String)
  | replay (verificationId scope : String)
  | audit (action : String)
  | auditAutonomous (action errorCode : String)
  | appendEvent (type scope : String)
  | taskVerdict (taskId : String) (result : Verdict)
  | enterTaskVerifying (verificationId : String)
  | recordOffer (verificationId : String)
  | onVerificationTerminal (taskId : String)
  | nextRank (taskId : String)
  | setOffer (verificationId status : String)
  | exhausted (verificationId : String)
  | markWaiting (taskId : String)

structure CommandError where
  code : String
  detail : String
  status : ℕ := 409

/-- The Verifier that the assignment engine has picked. -/
structure VerifierCandidate where
  accountId : String
  credentialFingerprint : String
  agentId : Option String := none

inductive Op where
  | loadRun (verificationId : String)
  | aliasGraph (workspaceId : String)
  | insertRun (row : RunRow)
  | insertRevision (row : RevisionRow)
  | insertFinding (row : FindingRow)
  | setStatus (verificationId : String) (status : VerificationStatus)
  | setResult (verificationId : String) (revision : ℕ) (result : Verdict)
  | setAliases (rows : List AliasRow)
  | resolveAutoAssign (implementerAccountId : String) (taskId : String)
  | external (call : External)

abbrev Res : Op → Type
  | .loadRun _ => Option RunRow
  | .aliasGraph _ => AliasGraph
  -- an error is an `IntegrityError`
  | .insertRun _ => Except CommandError Unit
  -- how many rows were inserted
  | .insertRevision _ => Except CommandError ℕ
  | .insertFinding _ => Except CommandError Unit
  | .setStatus _ _ => Unit
  | .setResult _ _ _ => Unit
  | .setAliases _ => Unit
  | .resolveAutoAssign _ _ => Except CommandError VerifierCandidate
  | .external _ => Except CommandError (Option String)

def RunRow.withStatus (row : RunRow) (status : VerificationStatus) : RunRow :=
  { row with status }

/-- `append_revision` sets the status of the run to the result. -/
def RunRow.withResult (row : RunRow) (revision : ℕ) (result : Verdict) : RunRow :=
  { row with currentRevision := revision, result := some result, status := result.status }

inductive Write where
  | insertRun (row : RunRow)
  | insertRevision (row : RevisionRow)
  | insertFinding (row : FindingRow)
  | updateRun (verificationId : String) (change : RunRow → RunRow)
  | setAliases (rows : List AliasRow)

inductive Lock where
  | run (verificationId : String)
  | revision (verificationId : String) (revision : ℕ)
  | finding (findingId : String)
  | aliases
  | chain
deriving DecidableEq

def Write.keys : Write → List Lock
  | .insertRun row => [.run row.verificationId]
  | .insertRevision row => [.revision row.verificationId row.revision]
  | .insertFinding row => [.finding row.findingId]
  | .updateRun vid _ => [.run vid]
  | .setAliases _ => [.aliases]

def Store.apply (s : Store) : Write → Store
  | .insertRun row => { s with runs := s.runs ++ [row] }
  | .insertRevision row => { s with revisions := s.revisions ++ [row] }
  | .insertFinding row => { s with findings := s.findings ++ [row] }
  | .updateRun vid change =>
    { s with runs := s.runs.map fun row ↦ if row.verificationId = vid then change row else row }
  | .setAliases rows => { s with aliases := rows }

/-! ## Execution -/

/-- The `CHECK` constraints on a new run. -/
def RunRow.checked (row : RunRow) : Bool :=
  let implementer := row.parties.implementer
  let verifier := row.parties.verifier
  implementer.accountId ≠ verifier.accountId &&
    (implementer.agentId.isNone || verifier.agentId.isNone ||
      verifier.agentId ≠ implementer.agentId) &&
    implementer.credentialFingerprint ≠ verifier.credentialFingerprint &&
    ["phase", "task"].contains row.targetType

/-- The condition of the guarded `INSERT`: no run that this submitter has implemented. -/
def Store.selfSubmitted (s : Store) (row : RevisionRow) : Bool :=
  s.runs.any fun run ↦ run.verificationId = row.verificationId &&
    (run.parties.implementer.accountId = row.submittedByAccountId ||
      run.parties.implementer.credentialFingerprint = row.submitterCredentialFingerprint)

abbrev Eff (R : Type) := Effect Write Lock R

def read {R : Type} (result : R) : Eff R := ⟨result, [], []⟩

def integrityError (constraint : String) : CommandError :=
  { code := "INTEGRITY_ERROR", detail := constraint }

def execInsertRun (s : Store) (row : RunRow) : Eff (Except CommandError Unit) :=
  if (s.run row.verificationId).isSome then read (.error (integrityError "verification_id"))
  else if !row.checked then read (.error (integrityError "ck_vr"))
  else ⟨.ok (), [.insertRun row], [.run row.verificationId]⟩

def execInsertRevision (s : Store) (row : RevisionRow) : Eff (Except CommandError ℕ) :=
  if s.selfSubmitted row then read (.ok 0)
  else if s.revisions.any fun r ↦ r.verificationId = row.verificationId &&
      r.revision = row.revision then read (.error (integrityError "verification_id, revision"))
  else ⟨.ok 1, [.insertRevision row], [.chain, .revision row.verificationId row.revision]⟩

def execInsertFinding (s : Store) (row : FindingRow) : Eff (Except CommandError Unit) :=
  if s.findings.any (·.findingId = row.findingId) then
    read (.error (integrityError "finding_id"))
  else ⟨.ok (), [.insertFinding row], [.finding row.findingId]⟩

/-- What the environment answers to a call. -/
structure Input where
  external : External → Except CommandError (Option String) := fun _ ↦ .ok none
  candidate : Except CommandError VerifierCandidate :=
    .error ⟨"VERIFIER_NONE_ELIGIBLE", "no eligible Verifier", 409⟩

def execStatement (inp : Input) (_ : ℕ) (_ : Lock → Bool) (s : Store) : (o : Op) → Eff (Res o)
  | .loadRun vid => ⟨s.run vid, [], if (s.run vid).isSome then [.run vid] else []⟩
  | .aliasGraph ws => read (s.graph ws)
  | .insertRun row => execInsertRun s row
  | .insertRevision row => execInsertRevision s row
  | .insertFinding row => execInsertFinding s row
  | .setStatus vid status => ⟨(), [.updateRun vid (·.withStatus status)], [.run vid]⟩
  | .setResult vid revision result =>
    ⟨(), [.updateRun vid (·.withResult revision result)], [.run vid]⟩
  | .setAliases rows => ⟨(), [.setAliases rows], [.aliases]⟩
  | .resolveAutoAssign _ _ => read inp.candidate
  | .external call => read (inp.external call)

theorem execStatement_locked (inp : Input) (n : ℕ) (held : Lock → Bool) (s : Store) (o : Op) :
    ∀ x ∈ (execStatement inp n held s o).writes, ∀ k ∈ x.keys,
      k ∈ (execStatement inp n held s o).locks := by
  cases o with
  | insertRun =>
    simp only [execStatement, execInsertRun]
    split_ifs <;> simp [read, Write.keys]
  | insertRevision =>
    simp only [execStatement, execInsertRevision]
    split_ifs <;> simp [read, Write.keys]
  | insertFinding =>
    simp only [execStatement, execInsertFinding]
    split_ifs <;> simp [read, Write.keys]
  | _ => simp [execStatement, read, Write.keys]

abbrev database : Database Res where
  Store := Store
  Write := Write
  Key := Lock
  Input := Input
  decEqKey := inferInstance
  apply := Store.apply
  keys := Write.keys
  exec := execStatement
  locked := execStatement_locked

abbrev Body (α : Type) := Prog Res CommandError α

def ask (o : Op) : Body (Res o) := Prog.issue o

end AgentColab.Verdicts
