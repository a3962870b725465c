import AgentColab.Events.Json
import AgentColab.Verdicts.Independence
import AgentColab.Verification.Run

/-!
# Verdict reports

A verdict comes with a report, a dict that the server reads by the schema `verification-verdict.v1`:
the result, the version of the criteria, the tests, the findings and the residual risks.
`readReport` answers exactly for the reports that the schema admits.
-/

namespace AgentColab.Verdicts

open Verification (Verdict)

/-! ## The schema -/

/-- `object[key]` -/
def member (object : List (String × Json)) (key : String) : Option Json :=
  (object.find? (·.1 = key)).map (·.2)

def text? : Json → Option String
  | .str s => some s
  | _ => none

/-- A text with `minLength` 1. -/
def nonemptyText? : Json → Option String
  | .str s => if s = "" then none else some s
  | _ => none

def items? : Json → Option (List Json)
  | .arr items => some items
  | _ => none

def members? : Json → Option (List (String × Json))
  | .obj members => some members
  | _ => none

def texts? (v : Json) : Option (List String) := do
  (← items? v).mapM text?

/-- A property that is not required: it is read if it is there. -/
def optional {α : Type} (read : Json → Option α) (object : List (String × Json)) (key : String) :
    Option Unit :=
  match member object key with
  | none => some ()
  | some v => (read v).map fun _ ↦ ()

/-- One of the values of an `enum`. -/
def enum? {α : Type} (values : List (String × α)) (v : Json) : Option α := do
  let s ← text? v
  (values.find? (·.1 = s)).map (·.2)

def verdict? : Json → Option Verdict :=
  enum? [("PASSED", .passed), ("FAILED", .failed), ("BLOCKED", .blocked)]

inductive TestResult where
  | pass
  | fail
  | notRun
  | notApplicable
deriving DecidableEq

def testResult? : Json → Option TestResult :=
  enum? [("PASS", .pass), ("FAIL", .fail), ("NOT_RUN", .notRun), ("NOT_APPLICABLE", .notApplicable)]

structure TestOutcome where
  id : String
  result : TestResult
  evidenceRef : String
deriving DecidableEq

def readTest (v : Json) : Option TestOutcome := do
  let object ← members? v
  let id ← member object "id" >>= nonemptyText?
  let result ← member object "result" >>= testResult?
  let evidenceRef ← member object "evidence_ref" >>= text?
  optional text? object "note"
  return { id, result, evidenceRef }

inductive Severity where
  | critical
  | high
  | medium
  | low
deriving DecidableEq

def severity? : Json → Option Severity :=
  enum? [("Critical", .critical), ("High", .high), ("Medium", .medium), ("Low", .low)]

structure Finding where
  id : String
  severity : Severity
  summary : String
deriving DecidableEq

def readFinding (v : Json) : Option Finding := do
  let object ← members? v
  let id ← member object "id" >>= nonemptyText?
  let severity ← member object "severity" >>= severity?
  let summary ← member object "summary" >>= nonemptyText?
  optional texts? object "affected"
  optional texts? object "reproduction"
  optional text? object "expected"
  optional text? object "actual"
  optional text? object "evidence_ref"
  optional text? object "impact"
  optional text? object "fix_condition"
  return { id, severity, summary }

structure Report where
  result : Verdict
  criteriaVersion : String
  tests : List TestOutcome
  findings : List Finding
  residualRisks : List String
deriving DecidableEq

def readReport (object : List (String × Json)) : Option Report := do
  let result ← member object "result" >>= verdict?
  let criteriaVersion ← member object "criteria_version" >>= nonemptyText?
  optional text? object "environment_fingerprint"
  optional text? object "started_at"
  optional text? object "completed_at"
  let tests ← (← member object "tests" >>= items?).mapM readTest
  let findings ← (← member object "findings" >>= items?).mapM readFinding
  let residualRisks ← member object "residual_risks" >>= texts?
  return { result, criteriaVersion, tests, findings, residualRisks }

/-! ## Validation -/

namespace Report

/-- The findings of severity `Critical`, `High` or `Medium`. -/
def blocking (r : Report) : List String :=
  (r.findings.filter (·.severity ∈ [Severity.critical, .high, .medium])).map (·.id)

/-- What a report that says `PASSED` has to show. -/
def Justified (r : Report) : Prop :=
  r.blocking = [] ∧ ∀ t ∈ r.tests, t.result ∈ [TestResult.pass, .notApplicable]

instance (r : Report) : Decidable r.Justified := inferInstanceAs (Decidable (_ ∧ _))

/-- The report has a test of this name. -/
def Judges (r : Report) (criterion : String) : Prop := ∃ t ∈ r.tests, t.id = criterion

end Report

/-- `validate_verdict`. The path and the text of a schema error are the schema library's. -/
def validateVerdict (schemaError : List (String × Json) → String)
    (report : List (String × Json)) (result : String) : Except VerdictError Report :=
  match readReport report with
  | none => .error { code := "VERDICT_REPORT_INVALID", detail := schemaError report, status := 400 }
  | some r =>
    if r.result.value ≠ result then
      .error { code := "VERDICT_RESULT_MISMATCH"
               detail := "report.result must equal the submitted result", status := 400 }
    else if result = "PASSED" ∧ ¬r.Justified then
      .error ⟨"VERDICT_PASS_NOT_JUSTIFIED",
        "PASSED requires every test PASS/NOT_APPLICABLE and no open Medium+ finding", 400⟩
    else .ok r

/-- The validator accepts a report that the schema admits, that says what was submitted and that
justifies it. -/
theorem validateVerdict_eq_ok {schemaError : List (String × Json) → String}
    {report : List (String × Json)} {result : String} {r : Report} :
    validateVerdict schemaError report result = .ok r ↔
      readReport report = some r ∧ r.result.value = result ∧
        (r.result = .passed → r.Justified) := by
  rw [validateVerdict]
  rcases readReport report with - | r'
  · simp
  · have hpassed : r'.result.value = "PASSED" ↔ r'.result = .passed := by
      cases r'.result <;> simp [Verdict.value]
    constructor
    · intro h
      dsimp only at h
      split_ifs at h with hresult hjustified
      cases h
      refine ⟨rfl, not_not.1 hresult, fun hr ↦ ?_⟩
      by_contra hnot
      exact hjustified ⟨not_not.1 hresult ▸ hpassed.2 hr, hnot⟩
    · rintro ⟨hr, rfl, hjustified⟩
      cases hr
      dsimp only
      rw [if_neg (not_not.2 rfl), if_neg]
      rintro ⟨hresult, hnot⟩
      exact hnot (hjustified (hpassed.1 hresult))

def defaultReport (result criteriaVersion : String) : List (String × Json) :=
  [("result", .str result), ("criteria_version", .str criteriaVersion), ("tests", .arr []),
    ("findings", .arr []), ("residual_risks", .arr [])]

/-- `dict(cmd.report) or {…}` -/
def reportOrDefault (report : List (String × Json)) (result criteriaVersion : String) :
    List (String × Json) :=
  if report.isEmpty then defaultReport result criteriaVersion else report

end AgentColab.Verdicts
