import AgentColab.Tasks.Rules

/-!
# The projector of the Tasks

A rebuild empties the table and replays every Event in recorded order. The projector reads the state
of the Task back from its row, folds the Event into it and writes the row with the time of the
Event. What a row does not hold, such as the revision of the assignment, is lost on the way; no
column is written from it.
-/

namespace AgentColab.Tasks

open AgentColab Transaction Database
open Except (ok)
open TaskTables (stateOf stream rowsWith)

variable {inp : ℕ → TaskInput} {db db' : TaskTables} {n n' : ℕ}

/-- `load_state` -/
def loadState (t : String) : Option TaskRow → TaskState
  | none => { taskId := t }
  | some row => {
    taskId := t
    exists' := true
    status := row.status
    workspaceId := some (row.workspaceId.getD "None")
    rootTaskId := some row.rootTaskId
    parentTaskId := row.parentTaskId
    channelId := row.channelId
    title := row.title
    domain := row.domain
    risk := row.risk
    assigneeAccountId := row.assigneeAccountId
    delegatedBy := row.delegatedBy
    delegationDepth := row.delegationDepth
    joinPolicy := row.joinPolicy
    policySnapshotHash := row.policySnapshotHash
    criteriaRevision := row.criteriaRevision
    latestProgress := row.latestProgress
    verificationStatus := row.verificationStatus
    lastEventId := row.lastEventId
    lastAggregateSeq := row.lastAggregateSeq
    createdAt := some row.createdAt
    updatedAt := some row.updatedAt
    activeVerificationId := row.activeVerificationId }

def projectedTask (e : Event) : Option String :=
  if e.aggregateType = "task" then some e.aggregateId
  else if e.type ∈ verificationResultEvents then orElse e.taskId none
  else none

/-- `write_state`, in a table. -/
def upsert (rows : String → Option TaskRow) (t : String) (row : TaskRow) :
    String → Option TaskRow :=
  Function.update rows t (some (((rows t).map fun old ↦ old.merge row).getD row))

/-- `TasksProjector.apply`. An Event that the table does not allow is skipped. -/
def project (rows : String → Option TaskRow) (e : Event) : String → Option TaskRow :=
  match projectedTask e with
  | none => rows
  | some t =>
    let state := loadState t (rows t)
    if !state.exists' && e.type ∉ creationEvents then rows
    else match applyEvent state e with
      | .error _ => rows
      | .ok state => upsert rows state.taskId (rowOf state e.occurredAt)

/-- `rebuild` -/
def rebuild (events : List Event) : String → Option TaskRow :=
  (recordedOrder events).foldl project fun _ ↦ none

theorem recordedOrder_of_sorted {events : List Event}
    (h : events.Pairwise fun a b ↦ a.recordedSeq < b.recordedSeq) : recordedOrder events = events :=
  List.Pairwise.insertionSort_eq (h.imp fun hlt ↦ hlt.le)

variable {e : Event} {s s' : TaskState}

theorem rebuild_insert (hdb : db.Ordered n) (hformed : e.Formed) (hlower : n ≤ e.recordedSeq)
    (hevents : db'.events = db.events ++ [e]) :
    rebuild db'.events = project (rebuild db.events) e := by
  have hsorted := ((hdb.mono hlower).insert rfl hformed).sorted
  change (db.events ++ [e]).Pairwise _ at hsorted
  rw [hevents, rebuild, recordedOrder_of_sorted hsorted, rebuild, recordedOrder_of_sorted hdb.sorted,
    List.foldl_append]
  rfl

/-! ## What the columns are written from -/

/-- The part of a state from which the columns are written that a later write changes. -/
def TaskState.written (s : TaskState) : TaskState :=
  { s with
    workspaceId := none
    rootTaskId := none
    parentTaskId := none
    channelId := none
    title := ""
    domain := ""
    risk := ""
    assigneeAccountId := orElse s.assigneeAccountId none
    delegatedBy := orElse s.delegatedBy none
    assignmentRevision := 0
    createdAt := none
    updatedAt := none
    joinSatisfied := false
    joinSatisfiedChildren := [] }

open TaskState (written annotate move detail taskId)

@[simp] theorem orElse_orElse (a : Option String) : orElse (orElse a none) none = orElse a none := by
  rcases a with _ | a
  · rfl
  · by_cases ha : a = "" <;> simp [orElse, ha]

theorem merge_rowOf {r : TaskState} (h : r.written = s.written) (old : TaskRow) (time : Time) :
    old.merge (rowOf r time) = old.merge (rowOf s time) := by
  simp only [written, TaskState.mk.injEq] at h
  obtain ⟨-, -, h₁, -, -, -, -, -, -, -, h₂, h₃, h₄, -, h₅, h₆, h₇, h₈, h₉, h₁₀, h₁₁, -, -, h₁₂, -⟩ := h
  simp only [TaskRow.merge, rowOf]
  rw [h₁, h₂, h₃, h₄, h₅, h₆, h₇, h₈, h₉, h₁₀, h₁₁, h₁₂]

section Written

variable {r s : TaskState} (h : r.written = s.written) (e : Event)

include h

theorem written_result (target : TaskStatus) :
    (r.result e target).written = (s.result e target).written :=
  congrArg (fun x ↦ { x with status := target, verificationStatus := resultStatus e.type }) h

theorem written_annotate : (r.annotate e).written = (s.annotate e).written := by
  have hmark : (r.mark e).written = (s.mark e).written :=
    congrArg (fun x ↦ { x with
      lastEventId := some e.eventId, lastAggregateSeq := e.aggregateSeq }) h
  rw [annotate, annotate]
  split_ifs
  · exact hmark
  · exact hmark

theorem written_move (target : TaskStatus) :
    (r.move e target).written = (s.move e target).written := by
  have hmark : ({ r.mark e with status := target } : TaskState).written =
      ({ s.mark e with status := target } : TaskState).written :=
    congrArg (fun x ↦ { x with
      status := target, lastEventId := some e.eventId, lastAggregateSeq := e.aggregateSeq }) h
  rw [move, move, detail, detail]
  split_ifs
  · exact congrArg (fun x ↦ { x with
      assigneeAccountId := orElse e.payload.assigneeAccountId none
      delegatedBy := orElse (some e.actorAccountId) none
      policySnapshotHash := orElse e.payload.policySnapshotHash x.policySnapshotHash }) hmark
  · exact congrArg (fun x ↦ { x with latestProgress := e.payload.summary }) hmark
  · exact congrArg (fun x ↦ { x with
      criteriaRevision := e.payload.criteriaRevision.getD x.criteriaRevision
      verificationStatus := none }) hmark
  · exact congrArg (fun x ↦ { x with
      activeVerificationId := e.payload.verificationId
      verificationStatus := some .pending }) hmark
  · exact hmark

theorem applyEvent_written (hcreate : e.type ∉ creationEvents) (hs : applyEvent s e = .ok s') :
    ∃ r', applyEvent r e = .ok r' ∧ r'.written = s'.written := by
  have htask : r.taskId = s.taskId := (congrArg taskId h :)
  have hexists : r.exists' = s.exists' := (congrArg TaskState.exists' h :)
  have hstatus : r.status = s.status := (congrArg TaskState.status h :)
  have hactive : r.activeVerificationId = s.activeVerificationId :=
    (congrArg TaskState.activeVerificationId h :)
  rw [applyEvent, if_neg hcreate] at hs ⊢
  rw [hexists, htask, hactive, hstatus]
  split_ifs at hs ⊢
  · exact ⟨r, rfl, (ok.inj hs) ▸ h⟩
  · exact ⟨r, rfl, (ok.inj hs) ▸ h⟩
  · exact ⟨r, rfl, (ok.inj hs) ▸ h⟩
  · cases hlegal : transitions s.status e.type with
    | none =>
      rw [hlegal] at hs
      exact ⟨r, rfl, (ok.inj hs) ▸ h⟩
    | some target =>
      rw [hlegal] at hs
      exact ⟨_, rfl, (ok.inj hs) ▸ written_result h e target⟩
  · exact ⟨r, rfl, (ok.inj hs) ▸ h⟩
  · exact ⟨_, rfl, (ok.inj hs) ▸ written_annotate h e⟩
  · cases hnext : nextStatus s.status e.type with
    | error => simp [hnext, Except.map] at hs
    | ok target =>
      rw [hnext] at hs
      exact ⟨_, rfl, (ok.inj hs) ▸ written_move h e target⟩

end Written

/-! ## What a row shows -/

/-- The row shows the state: it is as `write_state` wrote it. -/
structure Shows (row : TaskRow) (s : TaskState) : Prop where
  written : row = rowOf s row.updatedAt
  created : s.createdAt = some row.createdAt

theorem written_loadState {row : TaskRow} (h : Shows row s) (hexists : s.exists' = true) :
    (loadState s.taskId (some row)).written = s.written := by
  rw [h.written, loadState, written, written]
  simp [rowOf, hexists]

/-- What only a creation sets. -/
structure Kept (s s' : TaskState) : Prop where
  workspaceId : s'.workspaceId = s.workspaceId
  rootTaskId : s'.rootTaskId = s.rootTaskId
  parentTaskId : s'.parentTaskId = s.parentTaskId
  channelId : s'.channelId = s.channelId
  title : s'.title = s.title
  domain : s'.domain = s.domain
  risk : s'.risk = s.risk
  createdAt : s'.createdAt = s.createdAt
  taskId : s'.taskId = s.taskId

theorem kept_of_applied (hcreate : e.type ∉ creationEvents) (h : Applied s e s') : Kept s s' := by
  rcases h with _ | ⟨hc, -⟩ | ⟨target, -, -, -, -⟩ | _ | ⟨target, -, -, -, -, -⟩
  · exact ⟨rfl, rfl, rfl, rfl, rfl, rfl, rfl, rfl, rfl⟩
  · exact absurd hc hcreate
  · exact ⟨rfl, rfl, rfl, rfl, rfl, rfl, rfl, rfl, rfl⟩
  · rw [annotate]
    split_ifs <;> exact ⟨rfl, rfl, rfl, rfl, rfl, rfl, rfl, rfl, rfl⟩
  · rw [move, detail]
    split_ifs <;> exact ⟨rfl, rfl, rfl, rfl, rfl, rfl, rfl, rfl, rfl⟩

theorem Shows.merge {old : TaskRow} (h : Shows old s) (hkept : Kept s s') (time : Time) :
    Shows (old.merge (rowOf s' time)) s' := by
  refine ⟨?_, hkept.createdAt.trans h.created⟩
  obtain ⟨hwritten, hcreated⟩ := h
  rw [hwritten]
  simp [TaskRow.merge, rowOf, hkept.workspaceId, hkept.rootTaskId, hkept.parentTaskId,
    hkept.channelId, hkept.title, hkept.domain, hkept.risk, hkept.createdAt, hkept.taskId, hcreated]

/-! ## The table and its rebuild -/

/-- The table is the one that a rebuild would make, and its rows show the Tasks. -/
structure Projected (db : TaskTables) : Prop where
  rebuilt : db.rows = rebuild db.events
  shown : ∀ t s, db.stateOf t = .ok s → s.exists' = true → ∃ row, db.rows t = some row ∧ Shows row s
  absent : ∀ t s, db.stateOf t = .ok s → s.exists' = false → db.rows t = none

theorem Projected.empty : Projected {} where
  rebuilt := rfl
  shown t s hs hexists := by
    obtain rfl := ok.inj hs
    cases hexists
  absent _ _ _ _ := rfl

theorem Projected.congr (h : Projected db) (hevents : db'.events = db.events)
    (hrows : db'.rows = db.rows) : Projected db' := by
  refine ⟨?_, fun t s hs hexists ↦ ?_, fun t s hs hexists ↦ ?_⟩
  · rw [hrows, hevents]
    exact h.rebuilt
  · rw [stateOf, hevents] at hs
    rw [hrows]
    exact h.shown t s hs hexists
  · rw [stateOf, hevents] at hs
    rw [hrows]
    exact h.absent t s hs hexists

theorem projectedTask_of_concerns {t : String} (hformed : e.Formed) (h : e.Concerns t)
    (ht : t ≠ "") : projectedTask e = some t := by
  rw [projectedTask]
  rcases h with ⟨hkind, hown⟩ | ⟨hresult, htask⟩
  · rw [if_pos hkind, hown]
  · have hkind : e.aggregateType ≠ "task" := by
      rw [(hformed.result hresult).1]
      decide
    rw [if_neg hkind, if_pos hresult, htask]
    simp [orElse]

theorem ne_empty_of_stream (hdb : db.Ordered n) {ty id : String} (h : db.stream ty id ≠ []) :
    id ≠ "" := by
  obtain ⟨e, he⟩ := List.exists_mem_of_ne_nil _ h
  simp only [stream, List.mem_filter, decide_eq_true_eq] at he
  rw [← he.2.2]
  exact (hdb.formed e he.1).named

theorem exists_of_applyEvent (hcreate : e.type ∉ creationEvents) (h : applyEvent s e = .ok s')
    (hexists : s'.exists' = true) : s.exists' = true := by
  by_contra hnot
  rw [applyEvent, if_neg hcreate, if_pos (by simpa using hnot)] at h
  obtain rfl := ok.inj h
  exact hnot hexists

section Step

variable {t : String} {s s' : TaskState} {e : Event}

theorem created_of_step (hdb : db.Sound n) (hstep : Step db n t s e s' e.occurredAt db' n')
    (hcreate : e.type ∈ creationEvents) (hfresh : db.stream "task" t = []) :
    s = { taskId := t } ∧ s' = s.create e := by
  have hs : s = { taskId := t } := ok.inj (hstep.folded.symm.trans (hdb.unborn t hfresh))
  have hown : e.aggregateId = t := by
    refine (hstep.concerns.resolve_right fun h ↦ ?_).2
    have hdisjoint : ∀ x ∈ creationEvents, x ∉ verificationResultEvents := by decide
    exact hdisjoint _ hcreate h.1
  have happly := hstep.applied
  rw [applyEvent, if_pos hcreate, if_neg (by simp [hs, hown])] at happly
  exact ⟨hs, (ok.inj happly).symm⟩

theorem project_of_step (hdb : db.Sound n) (h : Projected db)
    (hstep : Step db n t s e s' e.occurredAt db' n')
    (hfresh : e.type ∈ creationEvents → db.stream "task" t = []) :
    project db.rows e = db'.rows := by
  have htask : s.taskId = t := taskId_of_stateOf hstep.folded
  have htask' : s'.taskId = t := taskId_of_stateOf hstep.stateOf
  rw [hstep.rows, project]
  by_cases hcreate : e.type ∈ creationEvents
  · obtain ⟨hs, -⟩ := created_of_step hdb hstep hcreate (hfresh hcreate)
    have hkind := hstep.formed.creation hcreate
    have hown : e.aggregateId = t := by
      rcases hstep.concerns with ⟨-, hown⟩ | ⟨hresult, -⟩
      · exact hown
      · rw [(hstep.formed.result hresult).1] at hkind
        exact absurd hkind (by decide)
    have hrow : db.rows t = none := h.absent t s hstep.folded (by rw [hs])
    rw [projectedTask, if_pos hkind, hown]
    dsimp only
    rw [if_neg (by simp [hcreate]), hrow, loadState, ← hs, hstep.applied]
    rfl
  · have hexists := exists_of_applyEvent hcreate hstep.applied hstep.exists'
    have hne : t ≠ "" := ne_empty_of_stream hdb.ordered ((hdb.exists_iff hstep.folded).1 hexists)
    obtain ⟨row, hrow, hshows⟩ := h.shown t s hstep.folded hexists
    have hload := written_loadState hshows hexists
    rw [htask] at hload
    obtain ⟨r', hr', hwritten⟩ := applyEvent_written hload e hcreate hstep.applied
    have htask'' : r'.taskId = t := (congrArg taskId hwritten : _).trans htask'
    rw [projectedTask_of_concerns hstep.formed hstep.concerns hne]
    dsimp only
    rw [if_neg (by simp [hrow, loadState]), hrow, hr']
    dsimp only
    rw [upsert, rowsWith, htask'', htask', hrow]
    simp only [Option.map_some, Option.getD_some]
    rw [merge_rowOf hwritten]

theorem Projected.step (hdb : db.Sound n) (h : Projected db)
    (hstep : Step db n t s e s' e.occurredAt db' n')
    (hfresh : e.type ∈ creationEvents → db.stream "task" t = []) : Projected db' := by
  have htask' : s'.taskId = t := taskId_of_stateOf hstep.stateOf
  refine ⟨?_, fun u r hr hexists ↦ ?_, fun u r hr hexists ↦ ?_⟩
  · rw [rebuild_insert hdb.ordered hstep.formed hstep.lower hstep.events, ← h.rebuilt]
    exact (project_of_step hdb h hstep hfresh).symm
  · by_cases hu : u = t
    · subst hu
      rw [hstep.stateOf] at hr
      obtain rfl := ok.inj hr
      rw [hstep.rows, rowsWith, htask', Function.update_self]
      refine ⟨_, rfl, ?_⟩
      by_cases hcreate : e.type ∈ creationEvents
      · obtain ⟨hs, rfl⟩ := created_of_step hdb hstep hcreate (hfresh hcreate)
        rw [h.absent u s hstep.folded (by rw [hs])]
        exact ⟨rfl, rfl⟩
      · have hborn := exists_of_applyEvent hcreate hstep.applied hexists
        obtain ⟨row, hrow, hshows⟩ := h.shown u s hstep.folded hborn
        rw [hrow]
        exact hshows.merge (kept_of_applied hcreate (applied_of_applyEvent hstep.applied)) _
    · rw [hstep.stateOf_of_ne hdb hu] at hr
      rw [hstep.rows, rowsWith, htask', Function.update_of_ne hu]
      exact h.shown u r hr hexists
  · by_cases hu : u = t
    · subst hu
      rw [hstep.stateOf] at hr
      obtain rfl := ok.inj hr
      rw [hstep.exists'] at hexists
      cases hexists
    · rw [hstep.stateOf_of_ne hdb hu] at hr
      rw [hstep.rows, rowsWith, htask', Function.update_of_ne hu]
      exact h.absent u r hr hexists

end Step

theorem Projected.noted (hdb : db.Sound n) (h : Projected db) (hnote : Noted db n e db' n')
    (hquiet : ∀ t, e.type ∈ verificationResultEvents → e.taskId = some t → db.stream "task" t =
    []) : Projected db' := by
  have hevents : db'.events = db.events ++ [e] := by rw [hnote.eq]; rfl
  have hrows : db'.rows = db.rows := by rw [hnote.eq]; rfl
  have hcreate : e.type ∉ creationEvents := fun hc ↦ hnote.kind (hnote.formed.creation hc)
  have hsame : ∀ t, db'.stateOf t = db.stateOf t := by
    intro t
    by_cases hc : e.Concerns t
    · have hresult := (hc.resolve_left fun hk ↦ hnote.kind hk.1)
      rw [stateOf_append hevents, hdb.unborn t (hquiet t hresult.1 hresult.2)]
      change applyEvent _ e = _
      rw [applyEvent, if_neg hcreate]
      exact if_pos rfl
    · exact stateOf_of_not_concerns hdb hnote.formed hevents hc
  refine ⟨?_, fun t s hs hexists ↦ ?_, fun t s hs hexists ↦ ?_⟩
  · rw [rebuild_insert hdb.ordered hnote.formed hnote.lower hevents, ← h.rebuilt, hrows, project,
      projectedTask, if_neg hnote.kind]
    split_ifs with hresult
    · cases htask : orElse e.taskId none with
      | none => rfl
      | some t =>
        have hof : e.taskId = some t := by
          rw [orElse.eq_def] at htask
          split at htask
          · cases htask
          · cases htask
          · next heq => rw [heq, htask]
        have hnil := hquiet t hresult hof
        dsimp only
        rw [h.absent t _ (hdb.unborn t hnil) rfl, if_pos (by simp [loadState, hcreate])]
    · rfl
  · rw [hsame] at hs
    rw [hrows]
    exact h.shown t s hs hexists
  · rw [hsame] at hs
    rw [hrows]
    exact h.absent t s hs hexists

end AgentColab.Tasks
