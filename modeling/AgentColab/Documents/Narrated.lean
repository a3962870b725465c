import AgentColab.Documents.Narrative
import AgentColab.Documents.Rendered

/-!
# Documents with a narrative

A Task document and the document of another subject are rendered alike: the narrative is the only
entry of the discussion, and the digest of the body is the last entry of the provenance.

The section builders of the other subjects are any function of their sources.
-/

namespace AgentColab.Documents

open List
open Except (ok)

/-! ## Other subjects -/

inductive SubjectKind where
  | brainstorm
  | scheduleRun
  | schedulePeriod
deriving DecidableEq

def SubjectKind.value : SubjectKind → String
  | brainstorm => "brainstorm"
  | scheduleRun => "schedule_run"
  | schedulePeriod => "schedule_period"

structure SubjectSources where
  subjectKind : SubjectKind
  subjectId : String
  workspaceId : String
  title : String
  manifestHash : String
  eventIds : List String
  artifactIds : List String
  decisionIds : List String
  /-- The runs among the rows of the subject. -/
  runRows : List String
  usage : List Usage
  /-- What the section builder of the subject type gives. -/
  sections : SectionKey → List String

/-- `run_ids` -/
def SubjectSources.runIds (src : SubjectSources) : List String :=
  if src.subjectKind = .scheduleRun then [src.subjectId] else src.runRows

def SubjectSources.resources (src : SubjectSources) : Resources :=
  resourcesOf src.usage src.artifactIds

/-- `provenance_lines` -/
def subjectProvenance (src : SubjectSources) (documentId : String) (version : ℕ) : List String :=
  ["- Source: " ++ src.subjectKind.value ++ " `" ++ src.subjectId ++ "` (workspace " ++
      src.workspaceId ++ ")", "- Source freeze manifest hash: " ++ src.manifestHash,
    "- Event IDs: " ++ refList "evt" src.eventIds,
    "- Artifact IDs: " ++ refList "art" src.artifactIds,
    "- Decision IDs: " ++ refList "dec" src.decisionIds,
    "- Schedule Run IDs: " ++ refList "run" src.runIds,
    "- Generator: agent-colab.documents.finalizer/layer-1; template " ++ templateVersion ++
      "; document `" ++ documentId ++ "` version " ++ toString version ++
        " (DRAFT_PRE_VERIFICATION)"]

/-- The sections that are rendered: the resources come before the inputs, and an accepted narrative
is all of the discussion. -/
def subjectSections (src : SubjectSources) (narrative : Option String) (provenance : List String) :
    SectionKey → List String
  | .inputs => (src.resources.items.map fun kv ↦ "- " ++ kv.1 ++ ": " ++ kv.2.fmt) ++
      src.sections .inputs
  | .discussion =>
    match Tasks.orElse narrative none with
    | none => src.sections .discussion
    | some body => [body]
  | .provenance => provenance
  | key => src.sections key

/-- `skeleton_facts`: the figures of a manifest. -/
def skeletonFacts (events artifacts : ℕ) (findings : Option ℕ) (res : Resources) :
    List (String × ℤ) :=
  [("event_count", (events : ℤ)), ("artifact_count", (artifacts : ℤ))] ++
    (findings.map fun n ↦ ("finding_count", (n : ℤ))).toList ++
    [("cost_units", res.costUnits), ("input_tokens", res.inputTokens),
      ("output_tokens", res.outputTokens), ("tool_calls", res.toolCalls)].filterMap fun kv ↦
        match kv.2 with
        | .number n => some (kv.1, n)
        | _ => none

/-- `from_manifest` -/
def manifestRefs (events artifacts verifications decisions runs : List String) : List Ref :=
  events.map (("evt", ·)) ++ artifacts.map (("art", ·)) ++ verifications.map (("vr", ·)) ++
    decisions.map (("dec", ·)) ++ runs.map (("run", ·))

/-- `build_subject_skeleton` -/
def buildSubject (redact : Redaction) (src : SubjectSources) (documentId : String) (version : ℕ)
    (narrative : Option String) : Built :=
  let provenance := subjectProvenance src documentId version
  let sections := subjectSections src narrative
  let bodySha := textSha256 (redact (render src.title (sections provenance))).1
  { markdown := (redact (render src.title (sections
      (provenance ++ ["- Body SHA-256 (all sections above this line): " ++ bodySha])))).1
    refs := manifestRefs src.eventIds src.artifactIds [] src.decisionIds src.runIds
    facts := skeletonFacts src.eventIds.length src.artifactIds.length none src.resources }

/-! ## Any subject -/

def TaskDocument.built (b : TaskDocument) : Built where
  markdown := b.markdown
  refs := manifestRefs b.manifest.eventIds b.manifest.artifactIds b.manifest.verificationIds [] []
  facts := skeletonFacts b.manifest.eventIds.length b.manifest.artifactIds.length
    (b.manifest.verification.map VerificationMeta.findings) b.manifest.resources

/-- What a document is built of. -/
inductive Subject where
  | task (src : TaskSources) (d : Target) (verificationId : Option String)
  | other (src : SubjectSources) (documentId : String) (version : ℕ)

def Subject.build (redact : Redaction) (narrative : Option String) :
    Subject → Except BuildError Built
  | task src d verificationId =>
    (buildSkeleton redact src d verificationId narrative).map TaskDocument.built
  | other src documentId version => .ok (buildSubject redact src documentId version narrative)

/-- What is rendered: the title, the sections and the provenance without the digest. -/
structure Layout where
  title : String
  sections : Option String → List String → SectionKey → List String
  provenance : List String

/-- The text that is rendered. -/
def Layout.markdown (l : Layout) (redact : Redaction) (narrative : Option String) : String :=
  (redact (render l.title (l.sections narrative (l.provenance ++ [checksumLine
    (textSha256 (redact (render l.title (l.sections narrative l.provenance))).1)])))).1

def Subject.layout : Subject → Except BuildError Layout
  | task src d verificationId => (selectVerdict src d.stage verificationId).map fun verdict ↦
      ⟨documentTitle src, sectionsOf src verdict, provenanceEntries src d⟩
  | other src documentId version =>
    .ok ⟨src.title, subjectSections src, subjectProvenance src documentId version⟩

/-- The narrative is in the discussion and the provenance is that of its argument. -/
structure Layout.Formed (l : Layout) : Prop where
  provenance : ∀ narrative lines, l.sections narrative lines .provenance = lines
  independent : ∀ narrative lines lines' key, key ≠ .provenance →
    l.sections narrative lines key = l.sections narrative lines' key
  others : ∀ narrative lines key, key ≠ .discussion → key ≠ .provenance →
    l.sections narrative lines key = l.sections none lines key
  nonempty : l.provenance ≠ []

section

variable {hide : Redaction} {subject : Subject} {narrative : Option String}

theorem Subject.formed {l : Layout} (h : subject.layout = .ok l) : l.Formed := by
  cases subject with
  | task src d verificationId =>
    rw [layout] at h
    cases hverdict : selectVerdict src d.stage verificationId with
    | error =>
      rw [hverdict] at h
      cases h
    | ok =>
    rw [hverdict] at h
    obtain rfl := ok.inj h
    refine ⟨fun _ _ ↦ rfl, fun narrative lines lines' key hkey ↦ ?_,
      fun narrative lines key hkey _ ↦ ?_, cons_ne_nil _ _⟩
    · cases key <;> first | rfl | exact absurd rfl hkey
    · cases key <;> first | rfl | exact absurd rfl hkey
  | other =>
    obtain rfl := ok.inj h
    refine ⟨fun _ _ ↦ rfl, fun narrative lines lines' key hkey ↦ ?_,
      fun narrative lines key hkey _ ↦ ?_, cons_ne_nil _ _⟩
    · cases key <;> first | rfl | exact absurd rfl hkey
    · cases key <;> first | rfl | exact absurd rfl hkey

/-- **A document is what its layout renders.** -/
theorem Subject.build_ok {built : Built} (h : subject.build hide narrative = .ok built) :
    ∃ l, subject.layout = .ok l ∧ built.markdown = l.markdown hide narrative := by
  cases subject with
  | task src d verificationId =>
    rw [build, buildSkeleton] at h
    cases hverdict : selectVerdict src d.stage verificationId with
    | error =>
      rw [hverdict] at h
      cases h
    | ok verdict =>
      rw [hverdict] at h
      obtain rfl := ok.inj h
      have hlayout : (task src d verificationId).layout =
          .ok ⟨documentTitle src, sectionsOf src verdict, provenanceEntries src d⟩ := by
        rw [layout, hverdict]
        rfl
      exact ⟨_, hlayout, rfl⟩
  | other =>
    obtain rfl := ok.inj h
    exact ⟨_, rfl, rfl⟩

theorem refs_document (src : TaskSources) (d : Target) (verdict : Option Verdict)
    (narrative : Option String) : (document hide src d verdict narrative).built.refs =
      manifestRefs (eventIds src) (artifactIds src) (verificationIdsOf src) [] [] := rfl

theorem refs_buildSubject (src : SubjectSources) (documentId : String) (version : ℕ)
    (narrative : Option String) : (buildSubject hide src documentId version narrative).refs =
      manifestRefs src.eventIds src.artifactIds [] src.decisionIds src.runIds := rfl

theorem Subject.build_narrative {built : Built} (h : subject.build hide none = .ok built)
    (narrative : Option String) :
    ∃ doc, subject.build hide narrative = .ok doc ∧ doc.refs = built.refs := by
  cases subject with
  | task src d verificationId =>
    rw [build, buildSkeleton] at h
    cases hverdict : selectVerdict src d.stage verificationId with
    | error =>
      rw [hverdict] at h
      cases h
    | ok verdict =>
      rw [hverdict] at h
      obtain rfl := ok.inj h
      have hbuild : (task src d verificationId).build hide narrative =
          .ok (document hide src d verdict narrative).built := by
        rw [build, buildSkeleton, hverdict]
        rfl
      exact ⟨_, hbuild, (refs_document ..).trans (refs_document ..).symm⟩
  | other =>
    obtain rfl := ok.inj h
    exact ⟨_, rfl, (refs_buildSubject ..).trans (refs_buildSubject ..).symm⟩

/-! ## What the narrative changes -/

/-- No text begins a line as a heading does. -/
def Layout.Plain (l : Layout) (narrative : Option String) : Prop :=
  headless false l.title.toList = true ∧
    ∀ key, ∀ entry ∈ l.sections narrative l.provenance key, headless true entry.toList = true

def digestText (uni : Unicode) (body : String) : List Char :=
  cleaned uni none ("(all sections above this line): ".toList ++ (textSha256 body).toList ++ ['\n'])

/-- The documents are the same texts of the same sections, but for the discussion and the digest. -/
def SameButDiscussion (uni : Unicode) (skeleton doc : String) : Prop :=
  ∃ (header : List Char) (text text' : SectionKey → List Char),
    skeleton.toList = header ++ sectionKeys.flatMap text ∧
    doc.toList = header ++ sectionKeys.flatMap text' ∧
    (∀ key, headingLine key ++ ['\n'] <+: text key ∧ headingLine key ++ ['\n'] <+: text' key) ∧
    (∀ key, key ≠ .discussion → key ≠ .provenance → text' key = text key) ∧
    ∃ common body body', text .provenance = common ++ digestText uni body ∧
      text' .provenance = common ++ digestText uni body'

def mandatoryHeadings : List String := sectionKeys.map SectionKey.heading

variable {uni : Unicode} {l : Layout}

def Layout.body (l : Layout) (redact : Redaction) (narrative : Option String) : String :=
  (redact (render l.title (l.sections narrative l.provenance))).1

def Layout.text (l : Layout) (uni : Unicode) (narrative : Option String) (key : SectionKey) :
    List Char :=
  cleaned uni none (sectionText (l.sections narrative (l.provenance ++
    [checksumLine (textSha256 (l.body (redact uni) narrative))]) key) key)

theorem Layout.Formed.toList_markdown (h : l.Formed) (narrative : Option String) :
    (l.markdown (redact uni) narrative).toList =
      cleaned uni none (headerText l.title) ++ sectionKeys.flatMap (l.text uni narrative) := by
  rw [markdown, redact_fst]
  exact cleaned_render (h.provenance _ _) (endsPlain_checksumLine _)

theorem Layout.prefix_text (key : SectionKey) :
    headingLine key ++ ['\n'] <+: l.text uni narrative key := by
  rw [text, sectionText_eq, cleaned_headingLine]
  exact ⟨_, by rw [append_assoc]; rfl⟩

theorem Layout.Formed.text_of_ne (h : l.Formed) {key : SectionKey} (hdiscussion : key ≠ .discussion)
    (hprovenance : key ≠ .provenance) (narrative : Option String) :
    l.text uni narrative key = l.text uni none key := by
  rw [text, h.others _ _ key hdiscussion hprovenance,
    h.independent none _ (l.provenance ++ [checksumLine (textSha256 (l.body (redact uni) none))])
      key hprovenance, ← text]

theorem Layout.Formed.text_provenance (h : l.Formed) (narrative : Option String) :
    l.text uni narrative .provenance =
      cleaned uni none (sectionText l.provenance .provenance ++ "- Body SHA-256 ".toList) ++
        digestText uni (l.body (redact uni) narrative) := by
  rw [text, h.provenance]
  exact cleaned_checksum h.nonempty (endsPlain_checksumLine _)

/-- **A narrative changes its section and the digest**, whatever its text is. -/
theorem Layout.Formed.sameButDiscussion (h : l.Formed) (narrative : Option String) :
    SameButDiscussion uni (l.markdown (redact uni) none) (l.markdown (redact uni) narrative) :=
  ⟨_, _, _, h.toList_markdown none, h.toList_markdown narrative,
    fun key ↦ ⟨prefix_text key, prefix_text key⟩,
    fun _ hdiscussion hprovenance ↦ h.text_of_ne hdiscussion hprovenance narrative,
    _, _, _, h.text_provenance none, h.text_provenance narrative⟩

theorem Layout.Formed.plain_of_discussion (h : l.Formed) (hplain : l.Plain none)
    (hdiscussion : ∀ entry ∈ l.sections narrative l.provenance .discussion,
      headless true entry.toList = true) : l.Plain narrative := by
  refine ⟨hplain.1, fun key entry hentry ↦ ?_⟩
  by_cases hkey : key = .discussion
  · exact hdiscussion entry (hkey ▸ hentry)
  · by_cases hprovenance : key = .provenance
    · subst hprovenance
      rw [h.provenance] at hentry
      exact hplain.2 .provenance entry (by rwa [h.provenance])
    · rw [h.others _ _ key hkey hprovenance] at hentry
      exact hplain.2 key entry hentry

/-- **The headings are the mandatory ones** where no text begins a line as a heading does. -/
theorem Layout.Formed.headingsOf_markdown (h : l.Formed) (hplain : l.Plain narrative) :
    headingsOf (l.markdown (redact uni) narrative).toList = mandatoryHeadings := by
  rw [markdown, redact_fst]
  refine headingsOf_render (h.provenance _ _) (endsPlain_checksumLine _) hplain.1
    fun key entry hentry ↦ ?_
  by_cases hkey : key = .provenance
  · subst hkey
    rw [h.provenance] at hentry
    rcases mem_append.1 hentry with hentry | hentry
    · exact hplain.2 .provenance entry (by rwa [h.provenance])
    · obtain rfl := mem_singleton.1 hentry
      exact headless_checksumLine _
  · rw [h.independent _ _ l.provenance key hkey] at hentry
    exact hplain.2 key entry hentry

end

/-! ## Narratives that are accepted -/

namespace Told

/-- Nothing outside ASCII occurs. -/
def uni : Unicode where
  alnum := fun _ ↦ false
  lower := fun s ↦ String.ofList (s.toList.map Char.toLower)

/-- A session with one Event. -/
def src (title : String) : SubjectSources where
  subjectKind := .brainstorm
  subjectId := "b1"
  workspaceId := "ws"
  title := title
  manifestHash := "ab"
  eventIds := ["e1"]
  artifactIds := []
  decisionIds := []
  runRows := []
  usage := []
  sections := fun _ ↦ []

def subject (title : String) : Subject := .other (src title) "d" 1

def skeleton (title : String) : Built := buildSubject (redact uni) (src title) "d" 1 none

def layout (title : String) : Layout :=
  ⟨title, subjectSections (src title), subjectProvenance (src title) "d" 1⟩

def plain : String := "It began [[evt:e1]]."

/-- A paragraph with a line that begins as a heading does. -/
def injected : String := "See [[evt:e1]].\n## Provenance [[evt:e1]]"

theorem endsPlain_generator :
    ∃ lines line, (layout "T").provenance = lines ++ [line] ∧ EndsPlain line :=
  ⟨(layout "T").provenance.dropLast, (layout "T").provenance.getLast (cons_ne_nil _ _),
    (dropLast_append_getLast _).symm, ')', by decide +kernel, rfl⟩

theorem heading_injected : "Provenance [[evt:e1]]" ∈
    headingsOf (cleaned uni none (sectionText [injected] .discussion)) := by
  decide +kernel

theorem heading_mem (sections : SectionKey → List String) {lines : List String} {line : String}
    (hlast : sections .provenance = lines ++ [line]) (hline : EndsPlain line)
    (hdiscussion : sections .discussion = [injected]) : "Provenance [[evt:e1]]" ∈
      headingsOf (cleaned uni none (render "T" sections).toList) := by
  rw [headingsOf_sections hlast hline]
  refine mem_append_right _ (mem_flatMap.2 ⟨.discussion, by decide, ?_⟩)
  rw [hdiscussion]
  exact heading_injected

theorem discussion_injected (lines : List String) :
    (layout "T").sections (some injected) lines .discussion = [injected] := by
  rfl

theorem heading_markdown : "Provenance [[evt:e1]]" ∈
    headingsOf ((layout "T").markdown (redact uni) (some injected)).toList := by
  have hlayout : (subject "T").layout = .ok (layout "T") := rfl
  rw [Layout.markdown, redact_fst]
  exact heading_mem _ ((Subject.formed hlayout).provenance _ _) (endsPlain_checksumLine _)
    (discussion_injected _)

theorem heading_body : "Provenance [[evt:e1]]" ∈
    headingsOf ((layout "T").body (redact uni) (some injected)).toList := by
  have hlayout : (subject "T").layout = .ok (layout "T") := rfl
  obtain ⟨lines, line, hlast, hline⟩ := endsPlain_generator
  rw [Layout.body, redact_fst]
  exact heading_mem _ (((Subject.formed hlayout).provenance _ _).trans hlast) hline
    (discussion_injected _)

theorem plain_append {a b : String} (ha : '#' ∉ a.toList) (hb : '#' ∉ b.toList) :
    '#' ∉ (a ++ b).toList := by
  rw [String.toList_append, mem_append]
  exact not_or_intro ha hb

theorem plain_resources : ∀ kv ∈ (src "T").resources.items,
    '#' ∉ kv.1.toList ∧ '#' ∉ kv.2.fmt.toList := by
  have hreport : '#' ∉ unavailableNoUsage.fmt.toList := by decide
  simp only [Resources.items, forall_mem_cons]
  exact ⟨⟨by simp, hreport⟩, ⟨by simp, hreport⟩, ⟨by simp, hreport⟩,
    ⟨by simp, hreport⟩, ⟨by simp, hreport⟩, ⟨by simp, hreport⟩,
    ⟨by simp, hreport⟩, ⟨by simp, hreport⟩, ⟨by simp, by decide⟩, ⟨by simp, hreport⟩,
    fun _ h ↦ absurd h not_mem_nil⟩

theorem plain_provenance : ∀ entry ∈ subjectProvenance (src "T") "d" 1, '#' ∉ entry.toList := by
  simp only [subjectProvenance, forall_mem_cons]
  refine ⟨?_, ?_, ?_, ?_, ?_, ?_, ?_, fun _ h ↦ absurd h not_mem_nil⟩
  all_goals
    simp only [String.toList_append, mem_append, not_or]
    decide

theorem plain_skeleton : (layout "T").Plain none := by
  refine ⟨by decide, fun key entry hentry ↦ headless_of_not_mem ?_⟩
  cases key with
  | inputs =>
    rcases mem_append.1 hentry with hentry | hentry
    · obtain ⟨kv, hkv, rfl⟩ := List.mem_map.1 hentry
      obtain ⟨hkey, hvalue⟩ := plain_resources kv hkv
      exact plain_append (plain_append (plain_append (by simp) hkey)
        (by simp)) hvalue
    · exact absurd hentry not_mem_nil
  | provenance => exact plain_provenance entry hentry
  | _ => exact absurd hentry not_mem_nil

theorem plain_told : (layout "T").Plain (some plain) := by
  have hlayout : (subject "T").layout = .ok (layout "T") := rfl
  refine (Subject.formed hlayout).plain_of_discussion plain_skeleton fun entry hentry ↦ ?_
  obtain rfl : entry = plain := mem_singleton.1 hentry
  decide

/-- The title of a session cites what is not in its manifest. -/
def cited : String := "See [[evt:e2]]."

theorem title_cited : ("evt", "e2") ∈ citationsIn (skeleton "[[evt:e2]]").markdown.toList := by
  have hlayout : (subject "[[evt:e2]]").layout = .ok (layout "[[evt:e2]]") := rfl
  have hformed := Subject.formed hlayout
  have hheader : cleaned uni none (headerText "[[evt:e2]]") =
      "# [[evt:e2]]".toList ++ '\n' :: ['\n'] := by
    decide
  have hmarkdown : (skeleton "[[evt:e2]]").markdown.toList =
      cleaned uni none (headerText "[[evt:e2]]") ++
        sectionKeys.flatMap ((layout "[[evt:e2]]").text uni none) :=
    hformed.toList_markdown none
  rw [mem_citationsIn, hmarkdown, hheader, append_assoc, cons_append, citationsOf_cut rfl]
  exact mem_append_left _ (by decide)

theorem lint_cited {known : List Ref} (h : ("evt", "e2") ∈ known) :
    (lint uni cited.toList known (skeleton "[[evt:e2]]").facts).ok = true := by
  have hparagraphs : (paragraphsOf cited.toList).zipIdx = [(cited.toList, 0)] := by decide
  have hcitations : citationsOf cited.toList = [("evt", "e2")] := by decide
  have hcontradictions : contradictions uni cited.toList (skeleton "[[evt:e2]]").facts = [] := by
    decide
  rw [LintResult.ok, lint, hparagraphs, foldl_cons, foldl_nil, LintResult.paragraph,
    hcitations, hcontradictions]
  simp [LintResult.cite, h]

theorem accepted_cited :
    (generate uni (skeleton "[[evt:e2]]") (some (.draft cited))).status = .accepted := by
  have hknown : ("evt", "e2") ∈ (skeleton "[[evt:e2]]").knownRefs := mem_append_right _ title_cited
  have hnonempty : stripChars isSpace cited.toList ≠ [] := by decide
  rw [generate.eq_def]
  dsimp only
  rw [if_neg hnonempty, if_pos (lint_cited hknown)]

end Told

open Told (subject uni plain skeleton layout injected cited)

end AgentColab.Documents
