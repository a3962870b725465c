import AgentColab.Documents.Freeze
import AgentColab.Documents.Rendered

/-!
# Verdicts in drafts

A draft leaves out the verdict of a run, but not its Event: the type stands in the process, and the
status that it leads to in the purpose and in the follow-up. With the rest blurred, the sources give
the same draft.
-/

namespace AgentColab.Documents

open List
open Tables (mergedEvents taskEvents verificationIds)
open Tasks (verificationResultEvents)

/-! ## Blurring -/

/-- The Event without what its payload says of the report of a verdict. -/
def SourceEvent.blur (e : SourceEvent) : SourceEvent :=
  { e with
    payload := { e.payload with
      reasonCode := if e.type ∈ verificationResultEvents then none else e.payload.reasonCode }
    evidenceRefs := if e.type ∈ verificationResultEvents then [] else e.evidenceRefs }

/-- The Event without its verdict, of which it does not say which of the three it is. -/
def SourceEvent.veil (e : SourceEvent) : SourceEvent :=
  { e.blur with
    type := if e.type ∈ verificationResultEvents then .verificationPassed else e.type }

/-- The revision without its verdict and report. -/
def Revision.blur (r : Revision) : Revision :=
  { r with result := "", report := ⟨[], []⟩, reportSha256 := "", contentHash := "" }

def Tables.blur (db : Tables) : Tables :=
  { db with
    events := db.events.map SourceEvent.blur
    revisions := db.revisions.map Revision.blur
    findings := [] }

def TaskSources.blur (src : TaskSources) : TaskSources :=
  { src with
    events := src.events.map SourceEvent.blur
    verifications := src.verifications.map fun v ↦ ⟨v.run, v.revisions.map Revision.blur, []⟩ }

/-- The history without the verdicts, reports and findings of its revisions. -/
def Tables.veil (db : Tables) : Tables :=
  { db.blur with events := db.events.map SourceEvent.veil }

/-- The histories differ only in the verdicts, reports and findings of revisions. -/
def DifferInVerdicts (db db' : Tables) : Prop := db'.veil = db.veil

def draftAt (redact : Redaction) (db : Tables) (f : SourceFreeze) (documentId : String)
    (version : ℕ) (narrative : Option String) : Except BuildError TaskDocument :=
  documentAt redact db f ⟨.draftPreVerification, documentId, version⟩ none narrative

/-- The types of the Events up to the freeze. -/
def Tables.typesOf (db : Tables) (f : SourceFreeze) : List Tasks.EventType :=
  (db.eventsOf f).map fun e ↦ e.type

variable {db db' : Tables} {f : SourceFreeze} {e : SourceEvent}

/-! ## What the draft reads -/

theorem sorted_map {α : Type} {r : α → α → Prop} [DecidableRel r] {p : α → Bool} (g : α → α)
    (hr : ∀ a b, r a b ↔ r (g a) (g b)) (hp : ∀ a, p (g a) = p a) (l : List α) :
    ((l.map g).filter p).insertionSort r = ((l.filter p).insertionSort r).map g := by
  have hcomp : p ∘ g = p := funext hp
  rw [map_insertionSort r r g _ fun a _ b _ ↦ hr a b, filter_map, hcomp]

theorem eventsOf_blur : db.blur.eventsOf f = (db.eventsOf f).map SourceEvent.blur :=
  sorted_map SourceEvent.blur (fun _ _ ↦ Iff.rfl) (fun _ ↦ rfl) _

theorem taskEvents_blur (taskId : String) (events : List SourceEvent) :
    taskEvents taskId (events.map SourceEvent.blur) =
      (taskEvents taskId events).map SourceEvent.blur :=
  filter_map

theorem fold_blur (taskId : String) (events : List SourceEvent) :
    Tasks.fold taskId ((events.map SourceEvent.blur).map SourceEvent.toEvent) =
      Tasks.fold taskId (events.map SourceEvent.toEvent) := by
  have hsort (g : SourceEvent → Tasks.Event) (hg : ∀ e, (g e).recordedSeq = e.recordedSeq) :
      Tasks.recordedOrder (events.map g) =
        (events.insertionSort fun a b ↦ a.recordedSeq ≤ b.recordedSeq).map g :=
    (map_insertionSort _ _ _ _ fun a _ b _ ↦ by rw [hg, hg]).symm
  rw [map_map, Tasks.fold, Tasks.fold, hsort (SourceEvent.toEvent ∘ SourceEvent.blur) fun _ ↦ rfl,
    hsort SourceEvent.toEvent fun _ ↦ rfl, Tasks.foldEvents, Tasks.foldEvents, foldlM_map,
    foldlM_map]
  rfl

theorem stateOf_blur : db.blur.stateOf f = db.stateOf f := by
  have hmerged : mergedEvents f.taskId ((db.eventsOf f).map SourceEvent.blur) =
      (mergedEvents f.taskId (db.eventsOf f)).map SourceEvent.blur := by
    simp only [mergedEvents, taskEvents_blur, verificationIds, filter_map, filterMap_map,
      map_append]
    rfl
  rw [Tables.stateOf, eventsOf_blur, hmerged, fold_blur, Tables.stateOf]

theorem verificationsOf_blur : db.blur.verificationsOf f =
    (db.verificationsOf f).map fun v ↦ ⟨v.run, v.revisions.map Revision.blur, []⟩ := by
  rw [Tables.verificationsOf, Tables.verificationsOf, map_map]
  refine map_congr_left fun r _ ↦ congrArg (SourceRun.mk r · []) ?_
  exact sorted_map Revision.blur (fun _ _ ↦ Iff.rfl) (fun _ ↦ rfl) _

theorem collectTaskSources_blur :
    db.blur.collectTaskSources f = (db.collectTaskSources f).map TaskSources.blur := by
  have haccounts : db.blur.accountsOf f = db.accountsOf f := by
    funext uuid
    simp only [Tables.accountsOf, Tables.uuidsOf, eventsOf_blur, map_map]
    rfl
  have hkeys : db.blur.sensitiveKeysOf f = db.sensitiveKeysOf f := by
    funext keyRef
    simp only [Tables.sensitiveKeysOf, Tables.keyRefsOf, eventsOf_blur, filterMap_map]
    rfl
  rw [Tables.collectTaskSources, Tables.collectTaskSources, eventsOf_blur, taskEvents_blur,
    stateOf_blur, haccounts, hkeys, verificationsOf_blur]
  cases taskEvents f.taskId (db.eventsOf f) with
  | nil => rfl
  | cons =>
    cases db.stateOf f with
    | error => rfl
    | ok => rfl

variable (src : TaskSources)

theorem blur_events : src.blur.events = src.events.map SourceEvent.blur := rfl

theorem eventLine_blur : eventLine src.blur e.blur = eventLine src e := by
  have hsummary : eventSummary src.blur e.blur = eventSummary src e := by
    by_cases hwaiting : e.type = .taskWaiting
    · have hreason : e.blur.payload.reasonCode = e.payload.reasonCode :=
        if_neg (by rw [hwaiting]; decide)
      have htype : e.blur.type = .taskWaiting := hwaiting
      simp only [eventSummary, htype, hwaiting, hreason]
      rfl
    · have htype : ¬ e.blur.type = .taskWaiting := hwaiting
      rw [eventSummary, eventSummary, if_neg htype, if_neg hwaiting]
      rfl
  rw [eventLine, hsummary]
  rfl

theorem participantEntries_blur : participantEntries src.blur = participantEntries src := by
  simp only [participantEntries, TaskSources.blur, taskEvents_blur, head?_map, Option.map_map,
    map_map]
  rfl

theorem resultEntries_blur : resultEntries src.blur = resultEntries src := by
  rw [resultEntries, resultEntries, blur_events, taskEvents_blur, filter_map, map_map]
  refine congrArg (· ++ _) (map_congr_left fun e he ↦ ?_)
  have htype : e.type = .implementationSubmitted := of_decide_eq_true (mem_filter.1 he).2
  have hrefs : e.blur.evidenceRefs = e.evidenceRefs := if_neg (by rw [htype]; decide)
  dsimp only [Function.comp]
  rw [hrefs]
  rfl

/-- **A draft reads nothing that is blurred.** -/
theorem document_blur (redact : Redaction) (d : Target) (narrative : Option String) :
    document redact src.blur d none narrative = document redact src d none narrative := by
  have hids : eventIds src.blur = eventIds src := map_map
  have hverifications : verificationIdsOf src.blur = verificationIdsOf src := map_map
  have hprovenance : provenanceEntries src.blur d = provenanceEntries src d := by
    rw [provenanceEntries, hids, hverifications]
    rfl
  have hsections : sectionsOf src.blur none narrative = sectionsOf src none narrative := by
    funext provenance key
    cases key with
    | participants => exact participantEntries_blur src
    | process =>
      exact map_map.trans (map_congr_left fun e _ ↦ eventLine_blur src)
    | results => exact resultEntries_blur src
    | shortcomings =>
      simp only [sectionsOf, shortcomingEntries, blur_events, any_map]
      rfl
    | _ => rfl
  have hrevisions : src.blur.verifications.flatMap (fun v ↦ v.revisions.map Revision.revisionId) =
      src.verifications.flatMap fun v ↦ v.revisions.map Revision.revisionId :=
    (flatMap_map ..).trans (flatMap_congr fun v _ ↦ map_map)
  simp only [document, hprovenance, hsections, hids, hverifications, hrevisions, blur_events,
    filter_map, map_map]
  rfl

theorem draftAt_blur (redact : Redaction) (documentId : String) (version : ℕ)
    (narrative : Option String) : draftAt redact db.blur f documentId version narrative =
      draftAt redact db f documentId version narrative := by
  rw [draftAt, draftAt, documentAt, documentAt, collectTaskSources_blur]
  cases db.collectTaskSources f with
  | error => rfl
  | ok src => exact congrArg Except.ok (document_blur src redact _ narrative)

/-! ## Two histories -/

theorem eventsOf_blur_eq (h : DifferInVerdicts db db') (htypes : db'.typesOf f = db.typesOf f) :
    db'.blur.eventsOf f = db.blur.eventsOf f := by
  have hveil (db : Tables) : db.veil.eventsOf f = (db.eventsOf f).map SourceEvent.veil :=
    sorted_map SourceEvent.veil (fun _ _ ↦ Iff.rfl) (fun _ ↦ rfl) _
  -- a blurred Event is a veiled one with its type
  have hblur (l : List SourceEvent) : l.map SourceEvent.blur =
      zipWith (fun e type ↦ { e with type := type }) (l.map SourceEvent.veil)
        (l.map fun e ↦ e.type) := by
    induction l with
    | nil => rfl
    | cons e l ih => exact congrArg (e.blur :: ·) ih
  have hveiled : db'.veil.eventsOf f = db.veil.eventsOf f := congrArg (Tables.eventsOf · f) h
  rw [hveil, hveil] at hveiled
  rw [eventsOf_blur, eventsOf_blur, hblur, hblur (db.eventsOf f), hveiled]
  exact congrArg _ htypes

theorem sameSources_blur (h : DifferInVerdicts db db') (htypes : db'.typesOf f = db.typesOf f) :
    SameSources f db.blur db'.blur := by
  have hrest := congrArg (fun db₁ : Tables ↦ { db₁ with events := db'.blur.events }) h
  have hrest : db'.blur = { db.blur with events := db'.blur.events } := hrest
  rw [hrest]
  exact { SameSources.refl f db.blur with events := eventsOf_blur_eq h htypes }

/-- **A draft discloses of a verdict only the type of its Event.** -/
theorem draft_discloses_types (redact : Redaction) (h : DifferInVerdicts db db')
    (htypes : db'.typesOf f = db.typesOf f) (documentId : String) (version : ℕ)
    (narrative : Option String) : draftAt redact db' f documentId version narrative =
      draftAt redact db f documentId version narrative := by
  have hblur : draftAt redact db'.blur f documentId version narrative =
      draftAt redact db.blur f documentId version narrative := by
    rw [draftAt, draftAt, documentAt, documentAt, (sameSources_blur h htypes).collectTaskSources]
  rw [← draftAt_blur, hblur, draftAt_blur]

/-! ## A verdict that is disclosed -/

/-- The header and the purpose of a document. -/
def openingAt (db : Tables) (f : SourceFreeze) : List Char :=
  match db.collectTaskSources f with
  | .ok src => headerText (documentTitle src) ++ sectionText (purposeEntries src) .purpose
  | .error _ => []

def markdownOf (r : Except BuildError TaskDocument) : List Char :=
  match r with
  | .ok b => b.markdown.toList
  | .error _ => []

theorem begins_with_opening (db : Tables) (f : SourceFreeze) :
    openingAt db f <+: markdownOf (draftAt Frozen.redact db f "doc-1" 1 none) := by
  rw [openingAt, draftAt, documentAt]
  cases db.collectTaskSources f with
  | error => exact nil_prefix
  | ok src =>
    have htext := @toList_render _ (documentTitle src) _ (sectionsOf src none none
      (provenanceEntries src Frozen.target ++ [checksumLine (textSha256 (render (documentTitle src)
        (sectionsOf src none none (provenanceEntries src Frozen.target))))])) rfl
      (endsPlain_checksumLine _)
    exact ⟨_, (append_assoc ..).trans htext.symm⟩

namespace Frozen

def next (n : ℕ) (eventId : String) (type : Tasks.EventType) (verificationId : Option String) :
    SourceEvent :=
  { event (n + 4) eventId "task" "task-1" type { verificationId := verificationId } with
    aggregateSeq := n }

def verified (type : Tasks.EventType) (result : String) : Tables :=
  { Tables.empty with
    events := [created, delegated, next 3 "evt-7" .taskAccepted none,
      next 4 "evt-8" .taskStarted none, next 5 "evt-9" .implementationSubmitted none,
      next 6 "evt-10" .taskVerificationStarted (some "vr-1"),
      { event 11 "evt-11" "verification_run" "vr-1" type { verificationId := some "vr-1" } with
        revision := some 1 }]
    runs := [⟨"vr-1", "task", "task-1", "u-a", "u-v", "snapshot"⟩]
    revisions := [⟨"rev-1", "vr-1", 1, result, ⟨[], []⟩, "", ""⟩] }

def failed : Tables := verified .verificationFailed "FAILED"

def blocked : Tables := verified .verificationBlocked "BLOCKED"

end Frozen

/-- **A draft that shows a verdict.** The Task is running after one that failed, and waits after one
that was blocked. -/
theorem draft_shows_verdict : DifferInVerdicts Frozen.failed Frozen.blocked ∧
    Frozen.blocked.freezeForTask "task-1" = Frozen.failed.freezeForTask "task-1" ∧
      draftAt Frozen.redact Frozen.blocked (Frozen.blocked.freezeForTask "task-1") "doc-1" 1 none ≠
        draftAt Frozen.redact Frozen.failed (Frozen.failed.freezeForTask "task-1") "doc-1" 1
          none := by
  refine ⟨rfl, rfl, fun heq ↦ ?_⟩
  have hblocked := begins_with_opening Frozen.blocked (Frozen.blocked.freezeForTask "task-1")
  rw [heq] at hblocked
  rcases prefix_or_prefix_of_prefix hblocked (begins_with_opening _ _) with h | h
  · exact absurd h (by decide +kernel)
  · exact absurd h (by decide +kernel)

theorem draft_discloses_types_failed :
    draftAt Frozen.redact { Frozen.failed with findings := [⟨"f-1", "vr-1", 1, "HIGH", "x"⟩] }
        (Frozen.failed.freezeForTask "task-1") "doc-1" 1 none =
      draftAt Frozen.redact Frozen.failed (Frozen.failed.freezeForTask "task-1") "doc-1" 1 none :=
  draft_discloses_types Frozen.redact rfl rfl "doc-1" 1 none

end AgentColab.Documents
