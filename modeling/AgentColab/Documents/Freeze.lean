import AgentColab.Documents.Skeleton

/-!
# Freezes

Only the Events are cut at the number of the freeze, and a number may become visible after a higher
one. So the bytes stay the same as long as no later write touches a row that the sources are
collected from.
-/

namespace AgentColab.Documents

open List Option

open Function (update_of_ne update_self)

/-! ## Writes -/

/-- A row that a transaction commits. `put` inserts a row or changes the row with its identity. -/
inductive SourceWrite where
  | appendEvent (e : SourceEvent)
  | recordAssignment (a : Assignment)
  | reviseCriteria (c : Criterion)
  | linkArtifact (l : ArtifactLink)
  | putArtifact (a : Artifact)
  | createRun (r : VerificationRun)
  | submitRevision (r : Revision)
  | reportFinding (x : Finding)
  | recordUsage (u : Usage)
  | putChannel (id : String) (c : Channel)
  | putAccount (uuid accountId accountType : String)
  | putKey (keyRef status : String)

namespace Tables

def apply (db : Tables) : SourceWrite → Tables
  | .appendEvent e => { db with events := db.events ++ [e] }
  | .recordAssignment a => { db with assignments := db.assignments ++ [a] }
  | .reviseCriteria c => { db with criteria := db.criteria ++ [c] }
  | .linkArtifact l => { db with links := db.links ++ [l] }
  | .putArtifact a => { db with artifacts := Function.update db.artifacts a.artifactId (some a) }
  | .createRun r => { db with runs := db.runs ++ [r] }
  | .submitRevision r => { db with revisions := db.revisions ++ [r] }
  | .reportFinding x => { db with findings := db.findings ++ [x] }
  | .recordUsage u => { db with usage := db.usage ++ [u] }
  | .putChannel id c => { db with channels := Function.update db.channels id (some c) }
  | .putAccount uuid accountId accountType =>
    { db with accounts := Function.update db.accounts uuid (some (accountId, accountType)) }
  | .putKey keyRef status => { db with keys := Function.update db.keys keyRef (some status) }

/-- The number of an Event is drawn before its transaction commits, so it is new but need not be
the highest. -/
def step (db : Tables) (x : SourceWrite) : Option Tables :=
  match x with
  | .appendEvent e =>
    if ∃ e' ∈ db.events, e'.recordedSeq = e.recordedSeq ∨ e'.eventId = e.eventId then none
    else some (db.apply x)
  | _ => some (db.apply x)

def empty : Tables where
  events := []
  assignments := []
  criteria := []
  links := []
  artifacts := fun _ ↦ none
  runs := []
  revisions := []
  findings := []
  usage := []
  channels := fun _ ↦ none
  accounts := fun _ ↦ none
  keys := fun _ ↦ none

end Tables

inductive Commits (C : Tables → SourceWrite → Prop) : Tables → Tables → Prop
  | refl (db : Tables) : Commits C db db
  | step {db db₁ db' : Tables} {x : SourceWrite} (h : Commits C db db₁) (hC : C db₁ x)
      (hstep : db₁.step x = some db') : Commits C db db'

/-- The write is of a row that the sources of the freeze are collected from, and changes it. -/
def Touches (f : SourceFreeze) (db : Tables) : SourceWrite → Prop
  | .appendEvent e => e.Tagged f.taskId ∧ e.recordedSeq ≤ f.upToRecordedSeq
  | .recordAssignment a => a.taskId = f.taskId
  | .reviseCriteria c => c.taskId = f.taskId
  | .linkArtifact l => l.subjectType = "task" ∧ l.subjectId = f.taskId
  | .putArtifact a => (∃ l ∈ db.linksOf f, l.artifactId = a.artifactId) ∧
      db.artifacts a.artifactId ≠ some a
  | .createRun r => r.targetType = "task" ∧ r.targetId = f.taskId
  | .submitRevision r => ∃ q ∈ db.runsOf f, q.verificationId = r.verificationId
  | .reportFinding x => ∃ q ∈ db.runsOf f, q.verificationId = x.verificationId
  | .recordUsage u => u.taskId = some f.taskId
  | .putChannel id c => (∃ s, db.stateOf f = .ok s ∧ s.channelId = some id) ∧
      db.channels id ≠ some c
  | .putAccount uuid accountId accountType => uuid ∈ db.uuidsOf f ∧
      db.accounts uuid ≠ some (accountId, accountType)
  | .putKey keyRef status => keyRef ∈ db.keyRefsOf f ∧ db.keys keyRef ≠ some status

/-- The document that is built from the sources of a freeze. -/
def documentAt (redact : Redaction) (db : Tables) (f : SourceFreeze) (d : Target)
    (verificationId narrative : Option String) : Except BuildError TaskDocument :=
  match db.collectTaskSources f with
  | .ok src => buildSkeleton redact src d verificationId narrative
  | .error e => .error e

/-! ## What is not touched -/

variable {db db' : Tables} {f : SourceFreeze} {x : SourceWrite}

structure SameSources (f : SourceFreeze) (db db' : Tables) : Prop where
  events : db'.eventsOf f = db.eventsOf f
  assignments : db'.assignmentsOf f = db.assignmentsOf f
  criteria : db'.criteriaOf f = db.criteriaOf f
  artifacts : db'.artifactsOf f = db.artifactsOf f
  runs : db'.runsOf f = db.runsOf f
  revisions : ∀ r ∈ db.runsOf f, db'.revisionsOf r.verificationId = db.revisionsOf r.verificationId
  findings : ∀ r ∈ db.runsOf f, db'.findingsOf r.verificationId = db.findingsOf r.verificationId
  usage : db'.usageOf f = db.usageOf f
  channel : ∀ s id, db.stateOf f = .ok s → s.channelId = some id → db'.channels id = db.channels id
  accounts : ∀ uuid ∈ db.uuidsOf f, db'.accounts uuid = db.accounts uuid
  keys : ∀ keyRef ∈ db.keyRefsOf f, db'.keys keyRef = db.keys keyRef

theorem SameSources.refl (f : SourceFreeze) (db : Tables) : SameSources f db db :=
  ⟨rfl, rfl, rfl, rfl, rfl, fun _ _ ↦ rfl, fun _ _ ↦ rfl, rfl, fun _ _ _ _ ↦ rfl, fun _ _ ↦ rfl,
    fun _ _ ↦ rfl⟩

theorem orElse_eq_some {s : Option String} {id : String} (h : Tasks.orElse s none = some id) :
    s = some id := by
  rw [Tasks.orElse.eq_def] at h
  split at h
  · cases h
  · cases h
  · exact h

/-- **The sources are determined by these rows.** -/
theorem SameSources.collectTaskSources (h : SameSources f db db') :
    db'.collectTaskSources f = db.collectTaskSources f := by
  have hstate : db'.stateOf f = db.stateOf f := by rw [Tables.stateOf, h.events, Tables.stateOf]
  have hverifications : db'.verificationsOf f = db.verificationsOf f := by
    rw [Tables.verificationsOf, h.runs]
    refine map_congr_left fun r hr ↦ ?_
    rw [h.revisions r hr, h.findings r hr]
  have haccounts : db'.accountsOf f = db.accountsOf f := by
    funext uuid
    rw [Tables.accountsOf, Tables.accountsOf, Tables.uuidsOf, h.events, h.assignments, h.runs]
    exact if_ctx_congr Iff.rfl (fun hmem ↦ by rw [h.accounts uuid hmem]) fun _ ↦ rfl
  have hkeys : db'.sensitiveKeysOf f = db.sensitiveKeysOf f := by
    funext keyRef
    rw [Tables.sensitiveKeysOf, Tables.sensitiveKeysOf, Tables.keyRefsOf, h.events]
    exact if_ctx_congr Iff.rfl (fun hmem ↦ h.keys keyRef hmem) fun _ ↦ rfl
  rw [Tables.collectTaskSources, Tables.collectTaskSources, h.events, hstate, h.assignments,
    h.criteria, h.artifacts, hverifications, h.usage, haccounts, hkeys]
  split
  · rfl
  · cases hs : db.stateOf f with
    | error => rfl
    | ok s =>
      have hchannel : (Tasks.orElse s.channelId none).bind db'.channels =
          (Tasks.orElse s.channelId none).bind db.channels := by
        cases hid : Tasks.orElse s.channelId none with
        | none => rfl
        | some id => exact h.channel s id hs (orElse_eq_some hid)
      dsimp only
      rw [hchannel]

theorem filter_append_of_not {α : Type} {p : α → Prop} [DecidablePred p] {l : List α} {a : α}
    (h : ¬ p a) : (l ++ [a]).filter (fun a ↦ decide (p a)) = l.filter fun a ↦ decide (p a) := by
  rw [filter_append, filter_cons_of_neg (by rwa [decide_eq_true_iff]), filter_nil, append_nil]

theorem update_of_kept {α : Type} {rows : String → Option α} {id id' : String} {row : α}
    (h : id' = id → rows id = some row) : Function.update rows id (some row) id' = rows id' := by
  by_cases hid : id' = id
  · rw [hid, h hid]
    exact update_self ..
  · exact update_of_ne hid _ _

theorem sameSources_apply (h : ¬ Touches f db x) : SameSources f db (db.apply x) := by
  cases x with
  | appendEvent =>
    refine { SameSources.refl f db with events := ?_ }
    rw [Tables.eventsOf, Tables.eventsOf, Tables.apply, filter_append_of_not]
    exact h
  | recordAssignment =>
    refine { SameSources.refl f db with assignments := ?_ }
    rw [Tables.assignmentsOf, Tables.assignmentsOf, Tables.apply, filter_append_of_not]
    exact h
  | reviseCriteria =>
    refine { SameSources.refl f db with criteria := ?_ }
    rw [Tables.criteriaOf, Tables.criteriaOf, Tables.apply, filter_append_of_not]
    exact h
  | linkArtifact =>
    refine { SameSources.refl f db with artifacts := ?_ }
    rw [Tables.artifactsOf, Tables.artifactsOf, Tables.linksOf, Tables.linksOf, Tables.apply,
      filter_append_of_not]
    exact h
  | putArtifact a =>
    refine { SameSources.refl f db with artifacts := ?_ }
    refine List.filterMap_congr fun l hl ↦ ?_
    have hsame :
        (db.apply (.putArtifact a)).artifacts l.artifactId = db.artifacts l.artifactId :=
      update_of_kept fun hid ↦ by_contra fun hne ↦ h ⟨⟨l, hl, hid⟩, hne⟩
    rw [hsame]
  | createRun r =>
    have hruns : (db.apply (.createRun r)).runsOf f = db.runsOf f := by
      rw [Tables.runsOf, Tables.runsOf, Tables.apply, filter_append_of_not]
      exact h
    exact { SameSources.refl f db with runs := hruns }
  | submitRevision =>
    refine { SameSources.refl f db with revisions := fun q hq ↦ ?_ }
    rw [Tables.revisionsOf, Tables.revisionsOf, Tables.apply, filter_append_of_not]
    exact fun hid ↦ h ⟨q, hq, hid.symm⟩
  | reportFinding =>
    refine { SameSources.refl f db with findings := fun q hq ↦ ?_ }
    rw [Tables.findingsOf, Tables.findingsOf, Tables.apply, filter_append_of_not]
    exact fun hid ↦ h ⟨q, hq, hid.symm⟩
  | recordUsage =>
    refine { SameSources.refl f db with usage := ?_ }
    rw [Tables.usageOf, Tables.usageOf, Tables.apply, filter_append_of_not]
    exact h
  | putChannel =>
    refine { SameSources.refl f db with channel := fun s id' hs hid' ↦ update_of_kept ?_ }
    rintro rfl
    exact by_contra fun hne ↦ h ⟨⟨s, hs, hid'⟩, hne⟩
  | putAccount =>
    refine { SameSources.refl f db with accounts := fun uuid' huuid ↦ update_of_kept ?_ }
    rintro rfl
    exact by_contra fun hne ↦ h ⟨huuid, hne⟩
  | putKey =>
    refine { SameSources.refl f db with keys := fun keyRef' hkey ↦ update_of_kept ?_ }
    rintro rfl
    exact by_contra fun hne ↦ h ⟨hkey, hne⟩

theorem step_eq (h : db.step x = some db') : db' = db.apply x := by
  rw [Tables.step.eq_def] at h
  split at h
  · split_ifs at h
    exact (some.inj h).symm
  · exact (some.inj h).symm

/-- **The same freeze gives the same bytes** as long as no later write touches a row that its
sources are collected from. -/
theorem same_freeze_same_bytes (redact : Redaction) (f : SourceFreeze) {db db' : Tables}
    (hrun : Commits (fun db x ↦ ¬ Touches f db x) db db') (d : Target)
    (verificationId narrative : Option String) :
    documentAt redact db' f d verificationId narrative =
      documentAt redact db f d verificationId narrative := by
  induction hrun with
  | refl => rfl
  | step _ hC hstep ih =>
    rw [← ih, step_eq hstep, documentAt, documentAt, (sameSources_apply hC).collectTaskSources]

theorem step_appendEvent {e : SourceEvent}
    (h : ¬ ∃ e' ∈ db.events, e'.recordedSeq = e.recordedSeq ∨ e'.eventId = e.eventId) :
    db.step (.appendEvent e) = some (db.apply (.appendEvent e)) := by
  rw [Tables.step, if_neg h]

/-! ## A freeze that is read again -/

namespace Frozen

def event (seq : ℕ) (eventId aggregateType aggregateId : String) (type : Tasks.EventType)
    (payload : Tasks.Payload) : SourceEvent where
  eventId := eventId
  workspaceId := "ws"
  aggregateType := aggregateType
  aggregateId := aggregateId
  aggregateSeq := 1
  recordedSeq := seq
  type := type
  actorAccountId := "u-lead"
  idempotencyScope := ""
  idempotencyKey := eventId
  taskId := some "task-1"
  payload := payload
  occurredAt := 0

def created : SourceEvent := event 5 "evt-5" "task" "task-1" .taskCreated { title := some "Title" }

/-- An Event that has a lower number and is committed later. -/
def queued : SourceEvent := event 4 "evt-4" "work_item" "wi-1" (.other "WORK_ITEM_QUEUED") {}

def delegated : SourceEvent :=
  { event 6 "evt-6" "task" "task-1" .taskDelegated { assigneeAccountId := some "u-a" } with
    aggregateSeq := 2 }

def usage (taskId : String) : Usage where
  taskId := some taskId
  agentId := some "agent-a"
  model := none
  inputTokens := 10
  outputTokens := 2
  toolCalls := 0
  wallMs := 0
  costUnits := 1
  source := "reported"

/-- The Task has been created. -/
def tables : Tables := Tables.empty.apply (.appendEvent created)

def freeze : SourceFreeze := tables.freezeForTask "task-1"

def target : Target := ⟨.draftPreVerification, "doc-1", 1⟩

/-- The texts hold nothing that is redacted. -/
def redact : Redaction := fun text ↦ (text, [])

theorem created_step : Tables.empty.step (.appendEvent created) = some tables :=
  step_appendEvent (by decide)

theorem delegated_step :
    tables.step (.appendEvent delegated) = some (tables.apply (.appendEvent delegated)) :=
  step_appendEvent (by decide)

theorem queued_step :
    tables.step (.appendEvent queued) = some (tables.apply (.appendEvent queued)) :=
  step_appendEvent (by decide)

theorem usage_step (db : Tables) (taskId : String) :
    db.step (.recordUsage (usage taskId)) = some (db.apply (.recordUsage (usage taskId))) :=
  rfl

/-- What a manifest says of the Events and of the resources. -/
def summary (r : Except BuildError TaskDocument) : Option (List String × Resources) :=
  match r with
  | .ok b => some (b.manifest.eventIds, b.manifest.resources)
  | .error _ => none

/-- The same, read off the sources. -/
def sourceSummary (db : Tables) : Option (List String × Resources) :=
  match db.collectTaskSources freeze with
  | .ok src =>
    match selectVerdict src target.stage none with
    | .ok _ => some (eventIds src, resources src)
    | .error _ => none
  | .error _ => none

theorem summary_documentAt (redact : Redaction) (db : Tables) :
    summary (documentAt redact db freeze target none none) = sourceSummary db := by
  rw [documentAt, sourceSummary]
  split
  · rw [buildSkeleton]
    cases selectVerdict _ target.stage none <;> rfl
  · rfl

end Frozen

open Frozen (redact tables freeze target summary summary_documentAt)

/-- A later Event of the Task, and usage of another one. -/
theorem same_freeze_same_bytes_later : documentAt redact
      ((tables.apply (.appendEvent Frozen.delegated)).apply
        (.recordUsage (Frozen.usage "task-2"))) freeze target none none =
      documentAt redact tables freeze target none none := by
  refine same_freeze_same_bytes redact freeze ?_ target none none
  refine .step (.step (.refl _) (fun h ↦ ?_) Frozen.delegated_step) (fun h ↦ ?_)
    (Frozen.usage_step _ _)
  · exact absurd h.2 (by decide)
  · exact absurd (some.inj h) (by decide)

/-- **The same freeze, other bytes.** Usage recorded after the freeze, and an Event committed after
one with a higher number. -/
theorem same_freeze_other_bytes : Commits (fun _ _ ↦ True) Tables.empty tables ∧
    (∃ db, Commits (fun _ _ ↦ True) tables db ∧ ∀ redact,
      documentAt redact db (tables.freezeForTask "task-1") target none none ≠
        documentAt redact tables (tables.freezeForTask "task-1") target none none) ∧
      ∃ db, Commits (fun _ _ ↦ True) tables db ∧ ∀ redact,
        documentAt redact db (tables.freezeForTask "task-1") target none none ≠
          documentAt redact tables (tables.freezeForTask "task-1") target none none := by
  refine ⟨.step (.refl _) trivial Frozen.created_step,
    ⟨_, .step (.refl _) trivial (Frozen.usage_step _ "task-1"), fun redact heq ↦ ?_⟩,
    ⟨_, .step (.refl _) trivial Frozen.queued_step, fun redact heq ↦ ?_⟩⟩
  · have hsummary := congrArg summary heq
    rw [← freeze, summary_documentAt, summary_documentAt] at hsummary
    exact absurd hsummary (by decide)
  · have hsummary := congrArg summary heq
    rw [← freeze, summary_documentAt, summary_documentAt] at hsummary
    exact absurd hsummary (by decide)

end AgentColab.Documents
