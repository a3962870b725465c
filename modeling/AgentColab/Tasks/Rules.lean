import AgentColab.Domain.Computation
import AgentColab.Tasks.Steps

/-!
# The rules of the Task functions

For each function that the commands are made of, what it returns and leaves when it is run alone
from a sound store. A rule asks for the postcondition in each of the ways in which the function can
return.
-/

namespace AgentColab.Tasks

open AgentColab Transaction Database List
open Except (ok)
open TaskStatus (terminal)

variable {cfg : Config} {inp : ℕ → TaskInput} {db db' : TaskTables} {n n' : ℕ}

/-! ## Statements -/

theorem returns_orRaise {α : Type} {x : Except CommandError α} {Q : α → TaskTables → ℕ → Prop}
    (h : ∀ a, x = .ok a → Q a db n) : (taskDatabase cfg).Returns inp (orRaise x) Q db n := by
  cases x with
  | ok a => exact returns_ret.2 (h a rfl)
  | error => exact returns_raise

theorem returns_read {o : Op} {r : Res o} (ho : execStatement cfg (inp n) n db o = read r)
    {Q : Res o → TaskTables → ℕ → Prop} (h : Q r db (n + 1)) :
    (taskDatabase cfg).Returns inp (ask o) Q db n := by
  refine returns_issue.2 ?_
  change Q (execStatement cfg (inp n) n db o).result
    ((taskDatabase cfg).view db (execStatement cfg (inp n) n db o).writes) (n + 1)
  rw [ho]
  exact h

variable {Q : Unit → TaskTables → ℕ → Prop} {scope t ty vid : String} {ctx : Context}
    {r : AppendRequest} {status target : TaskStatus} {run : ScheduleRun} {m : ℕ} {etype : EventType}
    {child s s' : TaskState} {e : Event} {payload : Payload} {result : Verification.Verdict}

theorem returns_external {name : String} (h : Q () db (n + 1)) :
    (taskDatabase cfg).Returns inp (external name) Q db n := by
  refine returns_do (returns_read rfl ?_)
  cases (inp n).refusal with
  | some => exact returns_raise
  | none => exact returns_ret.2 h

theorem returns_accountUuid {account : String} {Q : String → TaskTables → ℕ → Prop}
    (h : ∀ uuid, Q uuid db (n + 1)) :
    (taskDatabase cfg).Returns inp (accountUuid account) Q db n := by
  refine returns_do (returns_read rfl ?_)
  cases (inp n).account with
  | some uuid => exact returns_ret.2 (h uuid)
  | none => exact returns_raise

theorem returns_collectResults {vids : List String} {Q : List (List Event) → TaskTables → ℕ → Prop}
    (h : ∀ k, n ≤ k → Q (vids.map fun vid ↦ (db.stream "verification_run" vid).filter (·.taskId =
    some t)) db k) : (taskDatabase cfg).Returns inp (Prog.collect vids fun vid ↦ do
      return (← ask (.stream "verification_run" vid)).filter (·.taskId = some t)) Q db n := by
  induction vids generalizing n Q with
  | nil => exact returns_ret.2 (h n (Nat.le_refl n))
  | cons _ _ ih =>
    refine returns_bind.2 (returns_do (returns_read rfl (returns_ret.2 (returns_bind.2 ?_))))
    refine ih fun k hk ↦ returns_ret.2 (h k (by omega))

/-- **`load_task` returns what is recorded.** -/
theorem returns_loadTask (hdb : db.Ordered n) {Q : TaskState → TaskTables → ℕ → Prop}
    (h : ∀ s k, n ≤ k → db.stateOf t = .ok s → db.stream "task" t ≠ [] → Q s db k) :
    (taskDatabase cfg).Returns inp (loadTask t) Q db n := by
  refine returns_do (returns_read rfl ?_)
  by_cases hempty : (db.stream "task" t).isEmpty = true
  · rw [if_pos hempty]
    exact returns_raise
  · rw [if_neg hempty]
    refine returns_do (returns_collectResults fun k hk ↦ returns_orRaise fun s hs ↦ ?_)
    change (fold t (db.merged t)).mapError conflict = .ok s at hs
    rw [fold_merged hdb] at hs
    refine h s k (by omega) ?_ fun hnil ↦ hempty (by rw [hnil]; rfl)
    cases hstate : db.stateOf t with
    | error =>
      rw [hstate] at hs
      cases hs
    | ok =>
      rw [hstate] at hs
      obtain rfl := ok.inj hs
      rfl

/-- An Event of the stream of the Task that this command has produced. -/
def Produced (db : TaskTables) (ctx : Context) (t scope : String) (e : Event) : Prop :=
  e ∈ db.stream "task" t ∧ e.idempotencyScope = scope ∧ e.idempotencyKey = ctx.idempotencyKey ∧
    e.actorAccountId = ctx.accountUuid

theorem returns_replayFromStream {Q : Option Event → TaskTables → ℕ → Prop}
    (hsome : ∀ e, Produced db ctx t scope e → Q (some e) db (n + 1))
    (hnone : (∀ e, ¬Produced db ctx t scope e) → Q none db (n + 1)) :
    (taskDatabase cfg).Returns inp (replayFromStream ctx t scope) Q db n := by
  refine returns_do (returns_read rfl (returns_ret.2 ?_))
  cases hfind : (db.stream "task" t).find? fun e ↦ e.idempotencyScope = scope &&
      e.idempotencyKey = ctx.idempotencyKey && e.actorAccountId = ctx.accountUuid with
  | some e =>
    have hmatch := List.find?_some hfind
    simp only [Bool.and_eq_true, decide_eq_true_eq] at hmatch
    exact hsome e ⟨mem_of_find?_eq_some hfind, hmatch.1.1, hmatch.1.2, hmatch.2⟩
  | none =>
    refine hnone fun e he ↦ List.find?_eq_none.1 hfind e he.1 ?_
    simp [he.2.1, he.2.2.1, he.2.2.2]

/-- The Event that is recorded for a request with the number `n`, when the clock says `now`. -/
structure Event.Records (e : Event) (n : ℕ) (now : Time) (r : AppendRequest) : Prop where
  recordedSeq : e.recordedSeq = n
  occurredAt : e.occurredAt = now.millisecond * 1000
  type : e.type = r.type
  aggregateType : e.aggregateType = r.aggregateType
  aggregateId : e.aggregateId = r.aggregateId
  aggregateSeq : e.aggregateSeq = r.expectedSeq
  taskId : e.taskId = r.taskId
  payload : e.payload = r.payload
  actor : e.actorAccountId = r.actorAccountId
  scope : e.idempotencyScope = r.idempotencyScope
  key : e.idempotencyKey = r.idempotencyKey

/-- What `append` has done. -/
inductive Appended (inp : ℕ → TaskInput) (db : TaskTables) (n : ℕ) (r : AppendRequest) :
    AppendResult → TaskTables → Prop where
  | new (e : Event) (records : e.Records n (inp n).now r)
      (next : nextSeq (db.stream r.aggregateType r.aggregateId) = r.expectedSeq)
      (named : (idPrefix r.aggregateType).toList.isPrefixOf r.aggregateId.toList = true) :
      Appended inp db n r ⟨e, false⟩ (db.apply (.insertEvent e))
  | replayed (prior : Event) (recorded : prior ∈ db.stream r.aggregateType r.aggregateId)
      (type : prior.type = r.type) (actor : prior.actorAccountId = r.actorAccountId)
      (scope : prior.idempotencyScope = r.idempotencyScope)
      (key : prior.idempotencyKey = r.idempotencyKey) : Appended inp db n r ⟨prior, true⟩ db

theorem execAppend_appended {res : AppendResult}
    (h : (execAppend cfg.workspaceId (inp n) n db r).result = .ok res) : Appended inp db n r res
      ((taskDatabase cfg).view db (execAppend cfg.workspaceId (inp n) n db r).writes) := by
  rw [execAppend] at h ⊢
  split at h
  · next prior hprior =>
    split_ifs at h ⊢ with hbody
    obtain rfl := ok.inj h
    have hkey := List.find?_some hprior
    simp only [Event.sameKey, Bool.and_eq_true, decide_eq_true_eq] at hkey
    simp only [Event.sameBody, Bool.and_eq_true, decide_eq_true_eq] at hbody
    refine .replayed prior ?_ hbody.1.1.1.1.2 hkey.1.1 hkey.1.2 hkey.2
    simp [TaskTables.stream, mem_of_find?_eq_some hprior, hbody.1.1.1.1.1]
  · dsimp only at h ⊢
    split_ifs at h ⊢ with hnext hnamed
    split at h
    · cases h
    · obtain rfl := ok.inj h
      simp only [ne_eq, not_not] at hnext
      rw [← hnext]
      exact .new _ ⟨rfl, rfl, rfl, rfl, rfl, rfl, rfl, rfl, rfl, rfl, rfl⟩ hnext.symm
        (by simpa using hnamed)

theorem ne_empty_of_idPrefix {id : String} (h : (idPrefix ty).toList.isPrefixOf id.toList = true) :
    id ≠ "" := by
  rintro rfl
  rw [idPrefix.eq_def] at h
  split at h <;> exact absurd h (by decide)

theorem returns_append {Q : AppendResult → TaskTables → ℕ → Prop}
    (h : ∀ res mid, Appended inp db n r res mid → Q res mid (n + 1)) :
    (taskDatabase cfg).Returns inp (append r) Q db n :=
  returns_do (returns_issue.2 (returns_orRaise fun res hres ↦
    h res _ (execAppend_appended hres)))

/-! ## The hook -/

/-- The statuses of a Run that the hook closes: a claimed Run can fail, but not succeed. -/
def closableStatuses (status : TaskStatus) : List Schedules.RunStatus :=
  if status ∈ taskSuccessStates then [.taskCreated, .running, .verifying]
  else [.claimed, .taskCreated, .running, .verifying]

/-- What the hook makes of a Run. -/
def outcomeOf (status : TaskStatus) : Schedules.RunStatus :=
  if status ∈ taskSuccessStates then .succeeded else .failed

/-- A Run after the hook has been through these Runs. -/
def closedBy (status : TaskStatus) (through : List ScheduleRun) (run : ScheduleRun) : ScheduleRun :=
  if ∃ x ∈ through, x.runId = run.runId ∧ x.status ∈ closableStatuses status then
    { run with status := outcomeOf status }
  else run

def TaskTables.linked (db : TaskTables) (t : String) : List ScheduleRun :=
  db.scheduleRuns.filter (·.taskId = some t)

/-- What the hook leaves of the Runs: nothing is changed unless the row says a status that it
knows. -/
inductive Hooked (db : TaskTables) (t : String) : List ScheduleRun → Prop where
  | silent (quiet : ∀ row, db.rows t = some row → row.status ∉ terminalTaskStates) :
      Hooked db t db.scheduleRuns
  | closed (row : TaskRow) (found : db.rows t = some row)
      (known : row.status ∈ terminalTaskStates) :
      Hooked db t (db.scheduleRuns.map (closedBy row.status (db.linked t)))

theorem returns_setScheduleRun {run : ScheduleRun} {target : Schedules.RunStatus}
    {Q : ScheduleRun → TaskTables → ℕ → Prop}
    (h : target ∈ run.status.transitions →
      Q { run with status := target } (db.apply (.setScheduleRunStatus run.runId target)) (n + 1)) :
    (taskDatabase cfg).Returns inp (setScheduleRun run target) Q db n := by
  rw [setScheduleRun]
  cases hrun : Schedules.runTransition run.status target with
  | error => exact returns_raise
  | ok =>
    exact returns_do (returns_issue.2 (returns_ret.2 (h (Schedules.runTransition_eq_ok hrun).1)))

theorem setScheduleRunStatus_twice (rid : String) (a b : Schedules.RunStatus) :
    (db.apply (.setScheduleRunStatus rid a)).apply (.setScheduleRunStatus rid b) =
      db.apply (.setScheduleRunStatus rid b) := by
  simp only [TaskTables.apply, List.map_map]
  congr 1
  refine map_congr_left fun run _ ↦ ?_
  simp only [Function.comp_apply]
  by_cases h : run.runId = rid <;> simp [h]

theorem returns_closeScheduleRun (hskip : run.status ∉ closableStatuses status → ∀ k, Q () db k)
    (hclose : run.status ∈ closableStatuses status → ∀ k, Q () (db.apply (.setScheduleRunStatus
    run.runId (outcomeOf status))) k) :
    (taskDatabase cfg).Returns inp (closeScheduleRun status run) Q db n := by
  rw [closeScheduleRun]
  by_cases hrunning : run.status ∉ Schedules.RunStatus.runningStatuses
  · rw [if_pos hrunning]
    refine returns_ret.2 (hskip (fun hopen ↦ hrunning ?_) n)
    rw [closableStatuses] at hopen
    split_ifs at hopen
    · revert hopen
      cases run.status <;> decide
    · exact hopen
  · rw [if_neg hrunning]
    by_cases hcancel : run.status = .cancelRequested
    · rw [hcancel] at hrunning
      exact absurd (by decide) hrunning
    · rw [if_neg hcancel]
      by_cases hcreated : run.status = .taskCreated
      · rw [if_pos hcreated]
        refine returns_do (returns_setScheduleRun fun _ ↦ returns_do (returns_setScheduleRun
          fun _ ↦ returns_external ?_))
        rw [setScheduleRunStatus_twice]
        refine hclose ?_ _
        rw [hcreated, closableStatuses]
        split_ifs <;> decide
      · rw [if_neg hcreated]
        refine returns_do (returns_ret.2 (returns_do (returns_setScheduleRun fun hedge ↦
          returns_external (hclose ?_ _))))
        -- a claimed Run cannot be closed in this way
        rw [not_not] at hrunning
        revert hrunning hedge hcreated
        by_cases hstatus : status ∈ taskSuccessStates <;> cases run.status <;>
          simp [closableStatuses, Schedules.RunStatus.runningStatuses,
            Schedules.RunStatus.transitions, hstatus]

theorem closedBy_append {through : List ScheduleRun} {x : ScheduleRun} :
    closedBy status (through ++ [x]) run = if x.runId = run.runId ∧ x.status ∈ closableStatuses status then
      { closedBy status through run with status := outcomeOf status }
    else closedBy status through run := by
  simp only [closedBy, mem_append, mem_singleton, or_and_right, exists_or, exists_eq_left]
  by_cases hx : x.runId = run.runId ∧ x.status ∈ closableStatuses status
  · simp only [hx, and_self, or_true, if_true]
    split_ifs <;> rfl
  · simp only [hx, or_false, if_false]

theorem returns_terminalHook
    (h : ∀ runs k, Hooked db t runs → n ≤ k → Q () { db with scheduleRuns := runs } k) :
    (taskDatabase cfg).Returns inp (terminalHook t) Q db n := by
  refine returns_do (returns_read rfl ?_)
  cases hrow : db.rows t with
  | none =>
    exact returns_ret.2 (h db.scheduleRuns _
      (.silent fun row hfound ↦ absurd (hrow.symm.trans hfound) (by simp)) (Nat.le_succ n))
  | some row =>
    by_cases hknown : row.status ∉ terminalTaskStates
    · change (taskDatabase cfg).Returns inp (if row.status ∉ terminalTaskStates then _ else _) _ _ _
      rw [if_pos hknown]
      refine returns_ret.2 (h db.scheduleRuns _ (.silent fun row' hfound ↦ ?_) (Nat.le_succ n))
      obtain rfl := Option.some.inj (hrow.symm.trans hfound)
      exact hknown
    · change (taskDatabase cfg).Returns inp (if row.status ∉ terminalTaskStates then _ else _) _ _ _
      rw [if_neg hknown]
      refine returns_do (returns_read rfl ?_)
      -- the Runs that are through are closed, and the others are as before
      refine (returns_forEach (I := fun rest db' k ↦ n ≤ k ∧ ∃ through,
        db.linked t = through ++ rest ∧
          db' = { db with scheduleRuns := db.scheduleRuns.map (closedBy row.status through) })
        ⟨by omega, [], rfl, ?_⟩ ?_).mono ?_
      · have hid : (fun run ↦ closedBy row.status [] run) = id := by
          funext run
          simp [closedBy]
        change db = { db with scheduleRuns := db.scheduleRuns.map fun run ↦ closedBy row.status [] run }
        rw [hid, List.map_id]
      · rintro x rest db₁ k ⟨hk, through, hthrough, rfl⟩
        refine Returns.mono (Returns.le (returns_closeScheduleRun (Q := fun _ db' _ ↦
          ∃ through, db.linked t = through ++ rest ∧ db' = { db with
            scheduleRuns := db.scheduleRuns.map (closedBy row.status through) }) ?_ ?_)) ?_
        · intro hclosed _
          refine ⟨through ++ [x], by simp [hthrough], ?_⟩
          congr 1
          refine map_congr_left fun run _ ↦ ?_
          rw [closedBy_append, if_neg fun hx ↦ hclosed hx.2]
        · intro hopen _
          refine ⟨through ++ [x], by simp [hthrough], ?_⟩
          simp only [TaskTables.apply, List.map_map]
          congr 1
          refine map_congr_left fun run _ ↦ ?_
          have hid : (closedBy row.status through run).runId = run.runId := by
            rw [closedBy]
            split_ifs <;> rfl
          simp only [Function.comp_apply, closedBy_append, hid, hopen, and_true]
          by_cases hx : run.runId = x.runId
          · simp [hx]
          · rw [if_neg hx, if_neg fun heq ↦ hx heq.symm]
        · rintro _ db₂ k₂ ⟨hrest, hle⟩
          exact ⟨hk.trans hle, hrest⟩
      · rintro _ db' k ⟨hk, through, hthrough, rfl⟩
        rw [append_nil] at hthrough
        subst hthrough
        exact h _ k (.closed row hrow (not_not.1 hknown)) hk

/-! ## Transitions -/

def EventType.Moves (etype : EventType) : Prop :=
  etype ∉ creationEvents ∧ etype ∉ verificationResultEvents ∧ etype ∉ annotationEvents

/-- **A transition.** If the new status is terminal, the Runs are closed before the row is
written. -/
structure Moved (db : TaskTables) (n : ℕ) (t : String) (etype : EventType) (s : TaskState)
    (e : Event) (s' : TaskState) (db' : TaskTables) (n' : ℕ) : Prop where
  step : Step db n t s e s' e.occurredAt db' n'
  type : e.type = etype
  legal : transitions s.status etype = some s'.status
  moved : s' = s.move e s'.status
  hooked : s'.status ∈ terminal → Hooked db t db'.scheduleRuns
  kept : s'.status ∉ terminal → db'.scheduleRuns = db.scheduleRuns

theorem Moved.earlier (h : Moved db n t etype s e s' db' n') (hle : m ≤ n) :
    Moved db m t etype s e s' db' n' :=
  { h with step := h.step.earlier hle }

theorem applyEvent_move (hexists : s.exists' = true) (hmoves : e.type.Moves)
    (hkind : e.aggregateType = "task") (hown : e.aggregateId = s.taskId)
    (hlegal : transitions s.status e.type = some target) :
    applyEvent s e = .ok (s.move e target) := by
  obtain ⟨hcreate, hresult, hannotate⟩ := hmoves
  rw [applyEvent, if_neg hcreate, if_neg (by simp [hexists]), if_neg hresult,
    if_neg (by simp [hkind, hown]), if_neg hannotate, nextStatus_eq_ok.2 hlegal]
  rfl

theorem move_with_status (s : TaskState) (e : Event) (status : TaskStatus) :
    { s.move e status with status := status } = s.move e status := by
  rw [TaskState.move, TaskState.detail]
  split_ifs <;> rfl

theorem returns_transition (hdb : db.Sound n) (hs : db.stateOf t = .ok s)
    (hborn : db.stream "task" t ≠ []) (hmoves : etype.Moves) {Q : Answer → TaskTables → ℕ → Prop}
    (hreplay : ∀ e k, n ≤ k → Produced db ctx t scope e → Q ⟨e, s, true⟩ db k) (hmoved : ∀ e s'
    db' k, Moved db n t etype s e s' db' k → (∀ x, ¬Produced db ctx t scope x) → e.payload =
    payload → e.aggregateType = "task" → Q ⟨e, s', false⟩ db' k) :
    (taskDatabase cfg).Returns inp (transition ctx scope s etype payload) Q db n := by
  have htask := taskId_of_stateOf hs
  refine returns_do (htask ▸ returns_replayFromStream (fun e he ↦ ?_) fun hnew ↦ ?_)
  · exact returns_ret.2 (hreplay e _ (Nat.le_succ n) he)
  refine returns_do (returns_orRaise fun status hstatus ↦ ?_)
  have hlegal := nextStatus_eq_ok.1 (mapError_eq_ok.1 hstatus)
  refine returns_do (returns_append fun res mid happ ↦ ?_)
  cases happ with
  | replayed prior recorded _ actor scope' key =>
    exact absurd ⟨htask ▸ recorded, scope', key, actor⟩ (hnew prior)
  | new e hrec _ named =>
    have hexists : s.exists' = true := (hdb.exists_iff hs).2 hborn
    have hkind : e.aggregateType = "task" := hrec.aggregateType
    have hown : e.aggregateId = s.taskId := hrec.aggregateId
    have htype : e.type = etype := hrec.type
    have happly : applyEvent s e = .ok (s.move e status) :=
      applyEvent_move hexists (htype ▸ hmoves) hkind hown (htype ▸ hlegal)
    have hstep : ∀ runs k, n + 1 < k → Step db n t s e (s.move e status) e.occurredAt
        (({ db.apply (.insertEvent e) with scheduleRuns := runs }).apply
          (.upsertRow t (rowOf (s.move e status) e.occurredAt))) k := by
      intro runs k hk
      refine ⟨hs, .inl ⟨hkind, hown.trans htask⟩, ⟨fun _ ↦ hkind, fun h ↦ ?_, ?_, ?_⟩, ?_, ?_,
        happly, exists_of_applied (applied_of_applyEvent happly) hexists, rfl, ?_, rfl, rfl⟩
      · exact absurd (htype ▸ h) hmoves.2.1
      · rw [hrec.aggregateSeq]
        exact Nat.succ_pos _
      · rw [hrec.aggregateId]
        exact ne_empty_of_idPrefix named
      · rw [hrec.recordedSeq]
        exact Nat.le_succ n
      · rw [hrec.recordedSeq]
        exact hk
      · rw [TaskTables.rowsWith, taskId_move, htask]
        rfl
    have hwrite : ∀ runs k, n + 1 < k + 1 → (status ∈ terminal → Hooked db t runs) →
        (status ∉ terminal → runs = db.scheduleRuns) → (taskDatabase cfg).Returns inp (do
          writeState (s.move e status) e.occurredAt
          return ⟨e, s.move e status, false⟩) Q
          { db.apply (.insertEvent e) with scheduleRuns := runs } k := by
      intro runs k hk hterm hkeep
      refine returns_do (returns_issue.2 (returns_ret.2 ?_))
      have hmove : Moved db n t etype s e (s.move e status) _ (k + 1) :=
        ⟨hstep runs (k + 1) hk, htype, by rwa [status_move], by rw [status_move],
          by rwa [status_move], by rwa [status_move]⟩
      have hrow := hmoved _ _ _ _ hmove hnew hrec.payload hkind
      rwa [show t = (s.move e status).taskId by rw [taskId_move, htask]] at hrow
    refine returns_do (returns_orRaise fun s₁ hs₁ ↦ ?_)
    obtain rfl := ok.inj (happly.symm.trans (mapError_eq_ok.1 hs₁))
    rw [move_with_status]
    by_cases hterm : status ∈ terminal
    · rw [if_pos hterm, taskId_move]
      refine returns_do (returns_terminalHook fun runs k hhook hk ↦ ?_)
      refine hwrite runs k (by omega) (fun _ ↦ ?_) fun h ↦ absurd hterm h
      rw [htask] at hhook
      cases hhook with
      | silent quiet => exact .silent quiet
      | closed row found known => exact .closed row found known
    · rw [if_neg hterm]
      exact hwrite db.scheduleRuns (n + 1 + 1) (by omega) (fun h ↦ absurd h hterm) fun _ ↦ rfl

/-! ## Joins -/

/-- **A join.** The row is written with a reading of the clock of its own. -/
structure Joined (inp : ℕ → TaskInput) (db : TaskTables) (n : ℕ) (t : String) (s : TaskState)
    (e : Event) (db' : TaskTables) (n' : ℕ) : Prop where
  step : Step db n t s e (s.annotate e) (inp (e.recordedSeq + 1)).now db' n'
  type : e.type = .taskJoinSatisfied
  kind : e.aggregateType = "task"
  occurredAt : e.occurredAt = (inp e.recordedSeq).now.millisecond * 1000
  pending : s.joinSatisfied = false
  kept : db'.scheduleRuns = db.scheduleRuns

theorem applyEvent_annotate (hexists : s.exists' = true) (htype : e.type = .taskJoinSatisfied)
    (hkind : e.aggregateType = "task") (hown : e.aggregateId = s.taskId) :
    applyEvent s e = .ok (s.annotate e) := by
  rw [applyEvent, htype, if_neg (by decide), if_neg (by simp [hexists]), if_neg (by decide),
    if_neg (by simp [hkind, hown]), if_pos (by decide)]

theorem exists_annotate (h : s.exists' = true) : (s.annotate e).exists' = true := by
  rw [TaskState.annotate]
  split_ifs <;> exact h

theorem returns_recordJoinIfSatisfied (hdb : db.Sound n) (hsame : ∀ k, n ≤ k → Q () db k)
    (hjoined : ∀ s e db' k, Joined inp db n t s e db' k → Q () db' k) :
    (taskDatabase cfg).Returns inp (recordJoinIfSatisfied ctx t) Q db n := by
  refine returns_do (returns_loadTask hdb.ordered fun s k hk hs hborn ↦ ?_)
  have htask := taskId_of_stateOf hs
  have hexists : s.exists' = true := (hdb.exists_iff hs).2 hborn
  rw [if_neg (by simp [hexists])]
  refine returns_do (returns_read rfl (returns_do (returns_orRaise fun result _ ↦ ?_)))
  by_cases hdone : (!result.satisfied || s.joinSatisfied) = true
  · rw [if_pos hdone]
    exact returns_ret.2 (hsame _ (by omega))
  rw [if_neg hdone]
  simp only [Bool.or_eq_true, not_or, Bool.not_eq_true] at hdone
  refine returns_do (returns_issue.2 ?_)
  split
  · split_ifs
    · refine returns_ret.2 ?_
      next heq _ =>
      have hwrites : ∀ (r : AppendRequest) (err : CommandError),
          (execAppend cfg.workspaceId (inp (k + 1)) (k + 1) db r).result = .error err →
          (execAppend cfg.workspaceId (inp (k + 1)) (k + 1) db r).writes = [] := by
        intro r err herr
        rw [execAppend] at herr ⊢
        split at herr
        · split_ifs <;> rfl
        · dsimp only at herr ⊢
          split_ifs at herr ⊢
          · rfl
          · rfl
          · split at herr
            · rfl
            · cases herr
      change Q () ((taskDatabase cfg).view db (execAppend cfg.workspaceId (inp (k + 1)) (k + 1) db
        _).writes) _
      rw [hwrites _ _ heq]
      exact hsame _ (by omega)
    · exact returns_raise
  · next res heq =>
    have happ := execAppend_appended heq
    change (taskDatabase cfg).Returns inp _ _ ((taskDatabase cfg).view db
      (execAppend cfg.workspaceId (inp (k + 1)) (k + 1) db _).writes) _
    generalize (taskDatabase cfg).view db (execAppend cfg.workspaceId (inp (k + 1)) (k + 1) db
      _).writes = mid at happ ⊢
    cases happ with
    | replayed prior recorded type =>
      -- a recorded join is known
      simp only [TaskTables.stream, mem_filter, decide_eq_true_eq] at recorded
      have hjoin := hdb.joined prior recorded.1 type recorded.2.1 s
        (by rw [recorded.2.2, htask]; exact hs)
      rw [hjoin] at hdone
      cases hdone.2
    | new e hrec _ named =>
      have hkind : e.aggregateType = "task" := hrec.aggregateType
      have hown : e.aggregateId = s.taskId := hrec.aggregateId
      have htype : e.type = .taskJoinSatisfied := hrec.type
      have happly := applyEvent_annotate hexists htype hkind hown
      have hformed : e.Formed := by
        refine ⟨fun _ ↦ hkind, fun h ↦ ?_, ?_, ?_⟩
        · rw [htype] at h
          exact absurd h (by decide)
        · rw [hrec.aggregateSeq]
          exact Nat.succ_pos _
        · rw [hrec.aggregateId]
          exact ne_empty_of_idPrefix named
      have hordered : (db.apply (.insertEvent e)).Ordered (k + 1 + 1) :=
        (hdb.ordered.mono (by omega)).insert hrec.recordedSeq hformed
      refine returns_do (returns_read rfl (returns_do (returns_loadTask (hordered.mono
        (by omega)) fun s₁ j hj hs₁ _ ↦ returns_issue.2 ?_)))
      rw [stateOf_insert, hs] at hs₁
      obtain rfl := ok.inj (happly.symm.trans hs₁)
      refine hjoined s e _ _ ⟨⟨hs, .inl ⟨hkind, hown.trans htask⟩, hformed, ?_, ?_, happly,
        exists_annotate hexists, rfl, ?_, rfl, rfl⟩, htype, hkind, ?_, hdone.2, rfl⟩
      · rw [hrec.recordedSeq]
        omega
      · rw [hrec.recordedSeq]
        omega
      · rw [TaskTables.rowsWith, hrec.recordedSeq]
        rfl
      · rw [hrec.recordedSeq]
        exact hrec.occurredAt

inductive MayJoin (inp : ℕ → TaskInput) (db : TaskTables) (n : ℕ) (child : TaskState) :
    TaskTables → ℕ → Prop where
  | idle {n' : ℕ} (later : n ≤ n') : MayJoin inp db n child db n'
  | joined {n' : ℕ} (parent : String) (s : TaskState) (e : Event) (db' : TaskTables)
      (of : orElse child.parentTaskId none = some parent)
      (join : Joined inp db n parent s e db' n') : MayJoin inp db n child db' n'

theorem MayJoin.sound (hdb : db.Sound n) (h : MayJoin inp db n child db' n') : db'.Sound n' := by
  cases h with
  | idle later => exact hdb.mono later
  | joined _ s e _ _ join => exact join.step.sound hdb

theorem MayJoin.verificationRuns (h : MayJoin inp db n child db' n') :
    db'.verificationRuns = db.verificationRuns := by
  cases h with
  | idle => rfl
  | joined _ s e _ _ join => exact join.step.verificationRuns

theorem MayJoin.scheduleRuns (h : MayJoin inp db n child db' n') :
    db'.scheduleRuns = db.scheduleRuns := by
  cases h with
  | idle => rfl
  | joined _ s e _ _ join => exact join.kept

theorem Noted.verificationRuns (h : Noted db n e db' n') :
    db'.verificationRuns = db.verificationRuns := by
  rw [h.eq]
  rfl

theorem returns_onChildTerminal (hdb : db.Sound n)
    (h : ∀ db' k, MayJoin inp db n child db' k → Q () db' k) :
    (taskDatabase cfg).Returns inp (onChildTerminal ctx child) Q db n := by
  rw [onChildTerminal]
  cases hparent : orElse child.parentTaskId none with
  | none => exact returns_ret.2 (h db n (.idle (Nat.le_refl n)))
  | some parent =>
    exact returns_recordJoinIfSatisfied hdb (fun k hk ↦ h db k (.idle hk))
      fun s e db' k hj ↦ h db' k (.joined parent s e db' hparent hj)

/-! ## Creation -/

structure Created (db : TaskTables) (n : ℕ) (t : String) (e : Event) (s' : TaskState)
    (db' : TaskTables) (n' : ℕ) : Prop where
  step : Step db n t { taskId := t } e s' e.occurredAt db' n'
  type : e.type ∈ creationEvents
  kind : e.aggregateType = "task"
  fresh : db.stream "task" t = []
  created : s' = TaskState.create { taskId := t } e
  kept : db'.scheduleRuns = db.scheduleRuns

theorem Created.earlier (h : Created db n t e s' db' n') (hle : m ≤ n) :
    Created db m t e s' db' n' :=
  { h with step := h.step.earlier hle }

theorem stream_eq_nil (hdb : db.Ordered n) {id : String} (h : nextSeq (db.stream ty id) = 1) :
    db.stream ty id = [] := by
  by_contra hne
  obtain ⟨e, he⟩ := Option.ne_none_iff_exists'.1 (mt List.getLast?_eq_none_iff.1 hne)
  rw [nextSeq, he] at h
  have hpos := (hdb.formed e (mem_of_mem_filter (mem_of_getLast? he))).numbered
  simp only [Option.elim_some] at h
  omega

theorem returns_create (hdb : db.Sound n) (htype : etype ∈ creationEvents)
    {Q : Answer → TaskTables → ℕ → Prop} (hreplay : ∀ e s k, n ≤ k → Q ⟨e, s, true⟩ db k)
    (hcreated : ∀ e s' db' k, Created db n t e s' db' k → e.payload = payload → Q ⟨e, s', false⟩
    db' k) : (taskDatabase cfg).Returns inp (create ctx scope t etype payload) Q db n := by
  refine returns_do (returns_append fun res mid happ ↦ ?_)
  cases happ with
  | replayed prior =>
    refine returns_do (returns_loadTask (hdb.ordered.mono (Nat.le_succ n)) fun s k hk _ _ ↦ ?_)
    exact returns_ret.2 (hreplay prior s k (by omega))
  | new e hrec next named =>
    have hfresh := stream_eq_nil hdb.ordered next
    have hkind : e.aggregateType = "task" := hrec.aggregateType
    have hown : e.aggregateId = t := hrec.aggregateId
    have hcreate : e.type ∈ creationEvents := hrec.type ▸ htype
    have happly : applyEvent { taskId := t } e = .ok (TaskState.create { taskId := t } e) := by
      rw [applyEvent, if_pos hcreate, if_neg (by simp [hown])]
    have hformed : e.Formed := by
      refine ⟨fun _ ↦ hkind, fun h ↦ ?_, ?_, ?_⟩
      · have hdisjoint : ∀ x ∈ creationEvents, x ∉ verificationResultEvents := by decide
        exact absurd h (hdisjoint e.type hcreate)
      · rw [hrec.aggregateSeq]
        exact Nat.one_pos
      · rw [hrec.aggregateId]
        exact ne_empty_of_idPrefix named
    have hordered : (db.apply (.insertEvent e)).Ordered (n + 1) :=
      hdb.ordered.insert hrec.recordedSeq hformed
    refine returns_do (returns_loadTask hordered fun s k hk hs _ ↦ ?_)
    rw [stateOf_insert, hdb.unborn t hfresh] at hs
    obtain rfl := ok.inj (happly.symm.trans hs)
    rw [if_pos (show (!(⟨e, false⟩ : AppendResult).replayed) = true from rfl)]
    refine returns_do (returns_issue.2 (returns_ret.2 (hcreated e _ _ _ ?_ hrec.payload)))
    refine ⟨⟨hdb.unborn t hfresh, .inl ⟨hkind, hown⟩, hformed, ?_, ?_, happly, rfl, rfl, rfl, rfl,
      rfl⟩, hcreate, hkind, hfresh, rfl, rfl⟩
    · rw [hrec.recordedSeq]
    · rw [hrec.recordedSeq]
      omega

/-! ## Results -/

structure Resulted (db : TaskTables) (n : ℕ) (t vid : String) (result : Verification.Verdict)
    (s : TaskState) (e : Event) (s' : TaskState) (db' : TaskTables) (n' : ℕ) : Prop where
  step : Step db n t s e s' e.occurredAt db' n'
  type : e.type = resultType result
  run : e.aggregateId = vid
  verifying : s.status = .verifying
  active : s.activeVerificationId = some vid
  legal : transitions .verifying (resultType result) = some s'.status
  decided : s' = s.result e s'.status
  kept : db'.scheduleRuns = db.scheduleRuns

theorem Resulted.earlier (h : Resulted db n t vid result s e s' db' n') (hle : m ≤ n) :
    Resulted db m t vid result s e s' db' n' :=
  { h with step := h.step.earlier hle }

theorem resultType_mem (result : Verification.Verdict) :
    resultType result ∈ verificationResultEvents := by
  cases result <;> decide

theorem transitions_resultType (result : Verification.Verdict) :
    ∃ target, transitions .verifying (resultType result) = some target ∧ target ≠ .verifying := by
  cases result
  · exact ⟨.verified, rfl, by decide⟩
  · exact ⟨.running, rfl, by decide⟩
  · exact ⟨.waiting, rfl, by decide⟩

theorem applyEvent_result (hexists : s.exists' = true) (hcreate : e.type ∉ creationEvents)
    (hresult : e.type ∈ verificationResultEvents) (htask : e.taskId = some s.taskId)
    (hactive : e.payload.verificationId = s.activeVerificationId)
    (hlegal : transitions s.status e.type = some target) :
    applyEvent s e = .ok (s.result e target) := by
  rw [applyEvent, if_neg hcreate, if_neg (by simp [hexists]), if_pos hresult,
    if_neg (by simp [htask]), if_neg (by simp [hactive]), hlegal]

/-- The Event of a result that another account, or this one, recorded under the same key. -/
def Answered (db : TaskTables) (ctx : Context) (vid : String) (e : Event) : Prop :=
  e ∈ db.stream "verification_run" vid ∧ e.idempotencyScope = "verification_run:result" ∧
    e.idempotencyKey = ctx.idempotencyKey

theorem returns_recordVerificationResult (hdb : db.Sound n) {Q : Answer → TaskTables → ℕ → Prop}
    (hreplay : ∀ e s k, n ≤ k → db.stateOf t = .ok s → Answered db ctx vid e → Q ⟨e, s, true⟩ db k)
    (hresult : ∀ s e s' db₁ k₁ db' k, Resulted db n t vid result s e s' db₁ k₁ → (∀ x, ¬Answered
    db ctx vid x) → (result = .passed ∧ MayJoin inp db₁ k₁ s' db' k ∨ result ≠ .passed ∧ db' = db₁
    ∧ k = k₁) → Q ⟨e, s', false⟩ db' k) :
    (taskDatabase cfg).Returns inp (recordVerificationResult ctx t vid result) Q db n := by
  refine returns_do (returns_loadTask hdb.ordered fun s k hk hs hborn ↦ ?_)
  refine returns_do (returns_external (returns_do (returns_read rfl ?_)))
  have hexists : s.exists' = true := (hdb.exists_iff hs).2 hborn
  have htask := taskId_of_stateOf hs
  cases hfind : (db.stream "verification_run" vid).find? fun e ↦
      e.idempotencyScope = "verification_run:result" && e.idempotencyKey = ctx.idempotencyKey with
  | some e =>
    have hmatch := List.find?_some hfind
    simp only [Bool.and_eq_true, decide_eq_true_eq] at hmatch
    exact returns_ret.2 (hreplay e s _ (by omega) hs
      ⟨mem_of_find?_eq_some hfind, hmatch.1, hmatch.2⟩)
  | none =>
    have hnone : ∀ x, ¬Answered db ctx vid x := fun x hx ↦
      List.find?_eq_none.1 hfind x hx.1 (by simp [hx.2.1, hx.2.2])
    by_cases hstate : s.status ≠ .verifying ∨ s.activeVerificationId ≠ some vid
    · change (taskDatabase cfg).Returns inp (if _ then _ else _) _ _ _
      rw [if_pos hstate]
      exact returns_raise
    change (taskDatabase cfg).Returns inp (if _ then _ else _) _ _ _
    rw [if_neg hstate]
    obtain ⟨hverifying, hactive⟩ := not_or.1 hstate
    rw [not_not] at hverifying hactive
    refine returns_do (returns_read rfl (returns_do (returns_append fun res mid happ ↦ ?_)))
    cases happ with
    | replayed prior recorded _ _ scope key =>
      exact absurd ⟨recorded, scope, key⟩ (hnone prior)
    | new e hrec _ named =>
      have hkind : e.aggregateType = "verification_run" := hrec.aggregateType
      have hrun : e.aggregateId = vid := hrec.aggregateId
      have htype : e.type = resultType result := hrec.type
      have hmem : e.type ∈ verificationResultEvents := htype ▸ resultType_mem result
      have hpayload : e.payload.verificationId = some vid := by rw [hrec.payload]
      have hcreate : e.type ∉ creationEvents := by
        have hdisjoint : ∀ x ∈ verificationResultEvents, x ∉ creationEvents := by decide
        exact hdisjoint e.type hmem
      have hne : e.aggregateId ≠ "" := by
        rw [hrec.aggregateId]
        exact ne_empty_of_idPrefix named
      have hformed : e.Formed := by
        refine ⟨fun h ↦ absurd h hcreate, fun _ ↦ ⟨hkind, hpayload.trans (by rw [hrun]), hne⟩, ?_,
          hne⟩
        rw [hrec.aggregateSeq]
        exact Nat.succ_pos _
      obtain ⟨target, htarget, -⟩ := transitions_resultType result
      have happly : applyEvent s e = .ok (s.result e target) :=
        applyEvent_result hexists hcreate hmem (by rw [hrec.taskId, htask])
          (hpayload.trans hactive.symm) (by rw [hverifying, htype]; exact htarget)
      have hordered : (db.apply (.insertEvent e)).Ordered (k + 1 + 1 + 1 + 1) :=
        (hdb.ordered.mono (by omega)).insert hrec.recordedSeq hformed
      refine returns_do (returns_loadTask hordered fun s₁ j hj hs₁ _ ↦ ?_)
      rw [stateOf_insert, hs] at hs₁
      obtain rfl := ok.inj (happly.symm.trans hs₁)
      refine returns_do (returns_issue.2 ?_)
      have hresulted : Resulted db n t vid result s e (s.result e target)
          ((db.apply (.insertEvent e)).apply
            (.upsertRow s.taskId (rowOf (s.result e target) e.occurredAt))) (j + 1) := by
        refine ⟨⟨hs, .inr ⟨hmem, by rw [hrec.taskId]⟩, hformed, ?_, ?_, happly, hexists, rfl, rfl,
          rfl, rfl⟩, htype, hrun, hverifying, hactive, htarget, rfl, rfl⟩
        · rw [hrec.recordedSeq]
          omega
        · rw [hrec.recordedSeq]
          omega
      have hsound := hresulted.step.sound hdb
      by_cases hpassed : result = .passed
      · rw [if_pos hpassed]
        exact returns_do (returns_onChildTerminal hsound fun db' k' hjoin ↦
          returns_ret.2 (hresult s e _ _ _ db' k' hresulted hnone (.inl ⟨hpassed, hjoin⟩)))
      · rw [if_neg hpassed]
        exact returns_ret.2 (hresult s e _ _ _ _ _ hresulted hnone (.inr ⟨hpassed, rfl, rfl⟩))

end AgentColab.Tasks
