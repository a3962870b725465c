import AgentColab.Digest.Sha256
import AgentColab.Documents.Sources
import Mathlib

/-!
# The skeleton of a document

The skeleton is rendered from the sources alone: ten sections in a fixed order, each a list of
entries. The narrative is the entry of one of them. The text is redacted, by any function, before it
is digested, and the digest of the body is the last entry of the provenance.
-/

namespace AgentColab.Documents

/-! ## Texts -/

/-- `str.rstrip()` -/
def rstrip (s : String) : String :=
  String.ofList (s.toList.reverse.dropWhile isSpace).reverse

/-- `str.rstrip("\n")` -/
def rstripNewlines (s : String) : String :=
  String.ofList (s.toList.reverse.dropWhile (· = '\n')).reverse

/-- `s[:n]` -/
def takeChars (n : ℕ) (s : String) : String := String.ofList (s.toList.take n)

/-- `str(value)` of a text that may be absent. -/
def pyStr (s : Option String) : String := s.getD "None"

/-- `str(value)` of a number that may be absent. -/
def pyInt (n : Option ℤ) : String := (n.map fun n ↦ toString n).getD "None"

/-- `sorted({…})` -/
def sortedSet (xs : List String) : List String := xs.dedup.insertionSort (· ≤ ·)

/-! ## The template -/

inductive SectionKey where
  | purpose
  | participants
  | inputs
  | process
  | discussion
  | results
  | verification
  | shortcomings
  | followup
  | provenance
deriving DecidableEq

/-- `SECTIONS` -/
def sectionKeys : List SectionKey :=
  [.purpose, .participants, .inputs, .process, .discussion, .results, .verification,
    .shortcomings, .followup, .provenance]

def SectionKey.heading : SectionKey → String
  | purpose => "Purpose and Scope"
  | participants => "Participants and Roles"
  | inputs => "Inputs and Resources Used"
  | process => "Process and Key Events"
  | discussion => "Discussion, Alternatives, Decisions and Rationale"
  | results => "Results and Artifacts"
  | verification => "Verification Method and Results"
  | shortcomings => "Shortcomings, Risks and Open Questions"
  | followup => "Follow-up Work"
  | provenance => "Provenance"

/-- `EMPTY_MARKER` -/
def emptyMarker : String := "_none recorded_"

def sectionLines (entries : List String) (key : SectionKey) : List String :=
  ["## " ++ key.heading, ""] ++ (if entries = [] then [emptyMarker] else entries.map rstrip) ++ [""]

/-- `render` -/
def render (title : String) (sections : SectionKey → List String) : String :=
  rstripNewlines ("\n".intercalate (["# " ++ title, ""] ++
    sectionKeys.flatMap fun key ↦ sectionLines (sections key) key)) ++ "\n"

/-! ## The entries -/

/-- `STAGES` -/
inductive Stage where
  | draftPreVerification
  | attemptFinalized
  | finalized

def Stage.value : Stage → String
  | draftPreVerification => "DRAFT_PRE_VERIFICATION"
  | attemptFinalized => "ATTEMPT_FINALIZED"
  | finalized => "FINALIZED"

/-- `GENERATOR` -/
def generator : String := "agent-colab.documents.builder/layer-1"

/-- `TEMPLATE_VERSION` -/
def templateVersion : String := "task-skeleton-v1"

/-- `_acct` -/
def acct (src : TaskSources) (accountUuid : Option String) : String :=
  match Tasks.orElse accountUuid none with
  | none => "unknown"
  | some uuid => (src.accounts uuid).getD uuid

/-- What `_event_line` says of an Event of this type. -/
def eventSummary (src : TaskSources) (e : SourceEvent) : String :=
  if e.type = .taskProgressReported then ": " ++ e.payload.summary.getD ""
  else if e.type = .taskDelegated ∨ e.type = .taskReassigned then
    ": assignee " ++ acct src e.payload.assigneeAccountId ++ " (revision " ++
      pyInt e.payload.assignmentRevision ++ ")"
  else if e.type = .taskWaiting then ": " ++ e.payload.reasonCode.getD ""
  else if "VERIFICATION_".toList.isPrefixOf e.type.value.toList then
    ": " ++ e.aggregateId ++ " revision " ++ pyInt e.revision
  else ""

/-- What `_event_line` says of sensitive content. -/
def sensitiveNote (src : TaskSources) (e : SourceEvent) : String :=
  match Tasks.orElse e.sensitivePayloadKeyRef none with
  | none => ""
  | some ref =>
    if (src.sensitiveKeys ref).getD "unknown" = "destroyed" then
      " [sensitive content: redacted by crypto-shredding]"
    else " [sensitive content: encrypted, not rendered]"

/-- `_event_line` -/
def eventLine (src : TaskSources) (e : SourceEvent) : String :=
  "- " ++ isoformatUtc e.occurredAt ++ " `" ++ e.type.value ++ "` [[evt:" ++ e.eventId ++
    "]] by " ++ acct src (some e.actorAccountId) ++ eventSummary src e ++ sensitiveNote src e

/-- A value of `_resources`. -/
inductive ResourceValue where
  | text (s : String)
  | number (n : ℤ)
  | names (names : List String)
deriving DecidableEq

/-- `_fmt` -/
def ResourceValue.fmt : ResourceValue → String
  | text s => s
  | number n => toString n
  | names [] => "none"
  | names xs => ", ".intercalate xs

structure Resources where
  agents : ResourceValue
  models : ResourceValue
  tools : ResourceValue
  inputTokens : ResourceValue
  outputTokens : ResourceValue
  toolCalls : ResourceValue
  wallMs : ResourceValue
  costUnits : ResourceValue
  artifacts : ResourceValue
  sources : ResourceValue
deriving DecidableEq

def unavailableNoUsage : ResourceValue := .text "UNAVAILABLE_NO_USAGE_REPORTED"

def namesOr (marker : String) : List String → ResourceValue
  | [] => .text marker
  | xs => .names xs

/-- `_resources` -/
def resourcesOf (usage : List Usage) (artifactIds : List String) : Resources :=
  let artifacts := namesOr "UNAVAILABLE_NO_ARTIFACTS" artifactIds
  if usage = [] then {
    agents := unavailableNoUsage
    models := unavailableNoUsage
    tools := unavailableNoUsage
    inputTokens := unavailableNoUsage
    outputTokens := unavailableNoUsage
    toolCalls := unavailableNoUsage
    wallMs := unavailableNoUsage
    costUnits := unavailableNoUsage
    artifacts := artifacts
    sources := unavailableNoUsage }
  else {
    agents := namesOr "UNAVAILABLE_NOT_REPORTED"
      (sortedSet (usage.filterMap fun u ↦ Tasks.orElse u.agentId none))
    models := namesOr "UNAVAILABLE_NOT_REPORTED"
      (sortedSet (usage.filterMap fun u ↦ Tasks.orElse u.model none))
    tools := .text "UNAVAILABLE_NOT_REPORTED"
    inputTokens := .number (usage.map Usage.inputTokens).sum
    outputTokens := .number (usage.map Usage.outputTokens).sum
    toolCalls := .number (usage.map Usage.toolCalls).sum
    wallMs := .number (usage.map Usage.wallMs).sum
    costUnits := .number (usage.map Usage.costUnits).sum
    artifacts := artifacts
    sources := .names (sortedSet (usage.map Usage.source)) }

def resources (src : TaskSources) : Resources :=
  resourcesOf src.usage (src.artifacts.map fun a ↦ a.artifact.artifactId)

/-- `res.items()` -/
def Resources.items (res : Resources) : List (String × ResourceValue) :=
  [("agents", res.agents), ("models", res.models), ("tools", res.tools),
    ("input_tokens", res.inputTokens), ("output_tokens", res.outputTokens),
    ("tool_calls", res.toolCalls), ("wall_ms", res.wallMs), ("cost_units", res.costUnits),
    ("artifacts", res.artifacts), ("sources", res.sources)]

/-- `unavailable` -/
def Resources.unavailable (res : Resources) : List String :=
  (res.items.filter fun kv ↦
    match kv.2 with
    | .text s => "UNAVAILABLE_".toList.isPrefixOf s.toList
    | _ => false).map Prod.fst

/-! ## The sections -/

/-- The run that the document is about, with its latest revision. -/
structure Verdict where
  run : SourceRun
  latest : Revision

def purposeEntries (src : TaskSources) : List String :=
  ["- Task: `" ++ src.taskId ++ "` — " ++ src.state.title,
    "- Domain: " ++ (if src.state.domain = "" then "unspecified" else src.state.domain) ++
      "; risk: " ++ src.state.risk,
    "- Root Task: `" ++ (Tasks.orElse src.state.rootTaskId none).getD src.taskId ++ "`" ++
      (match Tasks.orElse src.state.parentTaskId none with
        | none => ""
        | some parent => "; parent Task: `" ++ parent ++ "`"),
    "- Status at source freeze (recorded_seq " ++ toString src.freeze.upToRecordedSeq ++ "): " ++
      src.state.status.value]

def participantEntries (src : TaskSources) : List String :=
  ["- Creator: " ++
      acct src ((Tables.taskEvents src.taskId src.events).head?.map fun e ↦ e.actorAccountId)] ++
    src.assignments.map (fun a ↦
      "- Assignment revision " ++ toString a.revision ++ ": delegator " ++
        acct src (some a.delegator) ++ " → assignee " ++ acct src (some a.assignee) ++ " (" ++
          a.reasonCode ++ ")") ++ src.verifications.map fun v ↦
      "- Verification `" ++ v.run.verificationId ++ "`: implementer " ++
        acct src (some v.run.implementer) ++ ", verifier " ++ acct src (some v.run.verifier) ++
          " (independent identities, snapshot " ++ takeChars 16 v.run.snapshotHash ++ "…)"

def latestCriteria (src : TaskSources) : List Criterion :=
  src.criteria.filter fun c ↦ ∀ d ∈ src.criteria, d.revision ≤ c.revision

def inputEntries (src : TaskSources) : List String :=
  (resources src).items.map (fun kv ↦ "- " ++ kv.1 ++ ": " ++ kv.2.fmt) ++
    if src.criteria = [] then []
    else "- Acceptance criteria (latest revision):" :: (latestCriteria src).map fun c ↦
      "  - `" ++ c.criteriaId ++ "` (" ++ c.checkType ++ ", " ++
        (if c.required then "required" else "optional") ++ "): " ++ c.statement

def narrativePlaceholder : String :=
  "_Narrative layer not generated (development plan §10.4 layer 2, Phase 6)._"

/-- An empty narrative counts as absent. -/
def discussionEntries (narrative : Option String) : List String :=
  [(Tasks.orElse narrative none).getD narrativePlaceholder]

def resultEntries (src : TaskSources) : List String :=
  ((Tables.taskEvents src.taskId src.events).filter fun e ↦
      e.type = .implementationSubmitted).map (fun e ↦
    "- Implementation submitted [[evt:" ++ e.eventId ++ "]] with " ++
      toString e.evidenceRefs.length ++ " evidence ref(s): " ++
        (ResourceValue.names e.evidenceRefs).fmt) ++ src.artifacts.map fun a ↦
      "- Artifact [[art:" ++ a.artifact.artifactId ++ "]] (" ++ a.artifact.mime ++ ", " ++
        toString a.artifact.size ++ " bytes, sha256 " ++ a.artifact.sha256 ++ ", " ++
          a.artifact.status ++ ", relation " ++ a.relation ++ ")"

def verdictEntries (v : Verdict) : List String :=
  ["- Verification [[vr:" ++ v.run.run.verificationId ++ "]] revision " ++
      toString v.latest.revision ++ ": **" ++ v.latest.result ++ "** (report sha256 " ++
        v.latest.reportSha256 ++ ", revision hash " ++ takeChars 16 v.latest.contentHash ++ "…)"] ++
    v.latest.report.tests.map (fun t ↦
      "  - " ++ pyStr t.id ++ ": " ++ pyStr t.result ++ " (" ++ t.evidenceRef.getD "-" ++ ")") ++
    (v.run.findings.filter fun f ↦ f.revision = v.latest.revision).map (fun f ↦
      "  - Finding " ++ f.findingId ++ " [" ++ f.severity ++ "]: " ++ f.summary) ++
    if v.run.revisions.length ≤ 1 then []
    else ["- Earlier attempts: " ++ ", ".intercalate (v.run.revisions.dropLast.map fun r ↦
      "revision " ++ toString r.revision ++ " " ++ r.result)]

def verificationEntries (src : TaskSources) (verdict : Option Verdict) : List String :=
  (if src.criteria = [] then []
    else ["- Method: acceptance criteria of the Task (see Inputs) are the verification baseline " ++
      "(§7D)."]) ++ match verdict with
    | none =>
      ["- Verifier assigned: " ++ (match Tasks.orElse src.state.activeVerificationId none with
            | none => "none yet"
            | some active => "`" ++ active ++ "`"),
        "- Result: PENDING (pre-verification draft)"]
    | some v => verdictEntries v

def riskEntries (v : Verdict) : List String :=
  (if v.latest.report.residualRisks = [] then
      ["- Residual risks: none recorded by the verifier"]
    else v.latest.report.residualRisks.map fun r ↦ "- Residual risk: " ++ r) ++
    if v.latest.result = "PASSED" then []
    else ["- Verification " ++ v.latest.result ++
      ": the Task is not complete; a new revision is required."]

def shortcomingEntries (src : TaskSources) (verdict : Option Verdict) : List String :=
  (verdict.map riskEntries).getD [] ++ (if (resources src).unavailable = [] then []
      else ["- Resource data unavailable for: " ++ ", ".intercalate (resources src).unavailable]) ++
    if src.events.any fun e ↦ (Tasks.orElse e.sensitivePayloadKeyRef none).isSome then
      ["- Some Events carry encrypted sensitive content that is intentionally not rendered."]
    else []

def followupEntries (src : TaskSources) : List String :=
  if src.state.status ∈ Tasks.TaskStatus.terminal then []
  else ["- Task `" ++ src.taskId ++ "` remains " ++ src.state.status.value ++
    "; completion requires a PASSED verification and a FINALIZED document."]

/-- `", ".join(…)`, or `none` for an empty list. -/
def refList (kind : String) (ids : List String) : String :=
  if ids = [] then "none" else ", ".intercalate (ids.map fun id ↦ "[[" ++ kind ++ ":" ++ id ++ "]]")

def eventIds (src : TaskSources) : List String := src.events.map fun e ↦ e.eventId

def artifactIds (src : TaskSources) : List String :=
  src.artifacts.map fun a ↦ a.artifact.artifactId

def verificationIdsOf (src : TaskSources) : List String :=
  src.verifications.map fun v ↦ v.run.verificationId

/-- What a document is built for. -/
structure Target where
  stage : Stage
  documentId : String
  version : ℕ

def provenanceEntries (src : TaskSources) (d : Target) : List String :=
  ["- Source: task `" ++ src.taskId ++ "` (workspace " ++ src.workspaceId ++ "); channel: " ++
      (match src.channel with
        | none => "n/a"
        | some c => "`" ++ c.channelId ++ "` (" ++ c.channelType ++ ", external " ++
            (Tasks.orElse c.externalChannelId none).getD "n/a" ++ ")"),
    "- Source freeze: recorded_seq ≤ " ++ toString src.freeze.upToRecordedSeq ++ "; Events: " ++
      toString (eventIds src).length, "- Event IDs: " ++ refList "evt" (eventIds src),
    "- Artifact IDs: " ++ refList "art" (artifactIds src),
    "- Verification IDs: " ++ refList "vr" (verificationIdsOf src),
    "- Generator: " ++ generator ++ "; template " ++ templateVersion ++ "; document `" ++
      d.documentId ++ "` version " ++ toString d.version ++ " (" ++ d.stage.value ++ ")"]

def sectionsOf (src : TaskSources) (verdict : Option Verdict) (narrative : Option String)
    (provenance : List String) : SectionKey → List String
  | .purpose => purposeEntries src
  | .participants => participantEntries src
  | .inputs => inputEntries src
  | .process => src.events.map (eventLine src)
  | .discussion => discussionEntries narrative
  | .results => resultEntries src
  | .verification => verificationEntries src verdict
  | .shortcomings => shortcomingEntries src verdict
  | .followup => followupEntries src
  | .provenance => provenance

/-! ## Building -/

/-- `_select_run` and the checks of the stage. -/
def selectVerdict (src : TaskSources) (stage : Stage) (verificationId : Option String) :
    Except BuildError (Option Verdict) := do
  let run ← match verificationId with
    | none => pure none
    | some id =>
      match src.verifications.find? fun v ↦ v.run.verificationId = id with
      | some run => pure (some run)
      | none => throw (.document "VERIFICATION_NOT_FOUND" id)
  match stage, run, run.bind fun r ↦ r.revisions.getLast? with
  | .draftPreVerification, none, _ => return none
  -- a draft with a run has no latest revision, and its assertion fails
  | .draftPreVerification, some _, _ => throw (.document "AssertionError" "latest is not None")
  | .finalized, some run, some latest =>
    if latest.result ≠ "PASSED" then
      throw (.document "VERIFICATION_NOT_PASSED" (pyStr verificationId ++ ": " ++ latest.result))
    else return some ⟨run, latest⟩
  | .attemptFinalized, some run, some latest =>
    if latest.result = "PASSED" then
      throw (.document "DOCUMENT_STAGE_INVALID" "PASSED verdicts finalize, not attempt-finalize")
    else return some ⟨run, latest⟩
  | _, _, _ =>
    throw (.document "VERIFICATION_NOT_TERMINAL" ((Tasks.orElse verificationId none).getD "-"))

structure RedactionCount where
  rule : String
  count : ℕ
  sampleHash : String

/-- `redaction.redact` -/
abbrev Redaction := String → String × List RedactionCount

structure VerificationMeta where
  verificationId : String
  revision : ℤ
  result : String
  findings : ℕ
  residualRisks : ℕ

structure Manifest where
  documentId : String
  version : ℕ
  status : Stage
  sourceId : String
  sourceFreezeEventSeq : ℕ
  sha256 : String
  bodySha256 : String
  rootTaskId : Option String
  channel : Option Channel
  eventIds : List String
  artifactIds : List String
  verificationIds : List String
  revisionIds : List String
  sensitiveEventIds : List String
  verification : Option VerificationMeta
  resources : Resources
  redactions : List RedactionCount

/-- `BuiltDocument`, of a Task. -/
structure TaskDocument where
  markdown : String
  manifest : Manifest

/-- `hashlib.sha256(text.encode("utf-8")).hexdigest()` -/
def textSha256 (text : String) : String := Sha256.hexDigest text.toUTF8.toList

def verificationMeta (v : Verdict) : VerificationMeta where
  verificationId := v.run.run.verificationId
  revision := v.latest.revision
  result := v.latest.result
  findings := (v.run.findings.filter fun f ↦ f.revision = v.latest.revision).length
  residualRisks := v.latest.report.residualRisks.length

def documentTitle (src : TaskSources) : String :=
  if src.state.title = "" then src.taskId else src.state.title

def document (redact : Redaction) (src : TaskSources) (d : Target) (verdict : Option Verdict)
    (narrative : Option String) : TaskDocument :=
  let provenance := provenanceEntries src d
  let sections := sectionsOf src verdict narrative
  let bodySha := textSha256 (redact (render (documentTitle src) (sections provenance))).1
  let redacted := redact (render (documentTitle src)
    (sections (provenance ++ ["- Body SHA-256 (all sections above this line): " ++ bodySha])))
  { markdown := redacted.1
    manifest := {
      documentId := d.documentId
      version := d.version
      status := d.stage
      sourceId := src.taskId
      sourceFreezeEventSeq := src.freeze.upToRecordedSeq
      sha256 := textSha256 redacted.1
      bodySha256 := bodySha
      rootTaskId := src.state.rootTaskId
      channel := src.channel
      eventIds := eventIds src
      artifactIds := artifactIds src
      verificationIds := verificationIdsOf src
      revisionIds := src.verifications.flatMap fun v ↦ v.revisions.map Revision.revisionId
      sensitiveEventIds := (src.events.filter fun e ↦
        (Tasks.orElse e.sensitivePayloadKeyRef none).isSome).map fun e ↦ e.eventId
      verification := verdict.map verificationMeta
      resources := resources src
      redactions := redacted.2 } }

/-- `build_skeleton` -/
def buildSkeleton (redact : Redaction) (src : TaskSources) (d : Target)
    (verificationId narrative : Option String) : Except BuildError TaskDocument :=
  (selectVerdict src d.stage verificationId).map fun verdict ↦
    document redact src d verdict narrative

end AgentColab.Documents
