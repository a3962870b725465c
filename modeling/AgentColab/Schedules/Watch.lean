import AgentColab.Schedules.Execution
import AgentColab.Transaction.Monitored

/-!
# Watching one Run

A monitor that follows the status of one Run through a body. It lets pass every statement but the
three that leave a row of a collaborator behind: a Task, an Approval consumption, a Secret lease.
-/

namespace AgentColab.Schedules

open AgentColab Transaction Option
open Prog (Conforms conforms_do)
open Set (univ mem_univ)

variable {α β : Type} {cfg : ScheduleConfig} {ctx : ExecutionContext} {rid n : ℕ}
  {st : RunStatus} {inp : ℕ → ScheduleInput} {db : ScheduleTables}

/-! ## The rows that executions leave -/

/-- What the collaborators have made: Tasks, Approval consumptions and Secret leases. -/
def ScheduleTables.created (db : ScheduleTables) :
    List TaskRow × List ConsumptionRow × List LeaseRow :=
  (db.tasks, db.consumptions, db.leases)

/-- The statements of the collaborators. -/
def Op.creates : Op → Bool
  | .createTask _ | .consumeApproval _ | .issueLease _ => true
  | _ => false

def Op.statusOf (rid : ℕ) (st : RunStatus) : Op → RunStatus
  | .updateRun run cols => if run.runId = rid then cols.status.getD st else st
  | _ => st

def watch (rid : ℕ) : Monitor Res RunStatus where
  may _ o := o.creates = false
  ok st
    | .loadRun i _, r =>
      (i = rid → r.isSome) ∧ ∀ row, r = some row → row.runId = i ∧ (i = rid → row.status = st)
    | _, _ => True
  next st o _ := o.statusOf rid st

/-- The Run has the status, and the collaborators have left no more than `rows`. -/
def Watched (rid : ℕ) (rows : List TaskRow × List ConsumptionRow × List LeaseRow)
    (st : RunStatus) (db : ScheduleTables) : Prop :=
  db.created = rows ∧ (db.run rid).map (·.status) = some st

theorem runId_of_run {row : RunRow} (h : db.run rid = some row) : row.runId = rid := by
  simpa using List.find?_some h

theorem run_setRun (i : ℕ) (cols : RunCols) : (db.apply (.setRun i cols)).run rid =
    if i = rid then (db.run rid).map (·.set cols) else db.run rid := by
  simp only [ScheduleTables.run, ScheduleTables.apply, updateWhere, List.find?_map]
  have hsame : ((fun r : RunRow ↦ decide (r.runId = rid)) ∘ fun row ↦
      if decide (row.runId = i) = true then row.set cols else row) =
      fun r : RunRow ↦ decide (r.runId = rid) := by
    funext row
    by_cases h : row.runId = i <;> simp [h]
  rw [hsame]
  rcases hfind : db.runs.find? (fun r ↦ decide (r.runId = rid)) with - | row
  · simp [hfind]
  · have hid : row.runId = rid := by simpa using List.find?_some hfind
    by_cases hi : i = rid
    · simp [hfind, hid, hi]
    · simp [hfind, hid, hi, Ne.symm hi]

/-- The changes that are rows left by a collaborator. -/
def ScheduleWrite.creates : ScheduleWrite → Bool
  | insertTask _ | insertConsumption _ | insertLease _ => true
  | _ => false

def ScheduleWrite.statusOf (rid : ℕ) (st : RunStatus) : ScheduleWrite → RunStatus
  | setRun i cols => if i = rid then cols.status.getD st else st
  | _ => st

variable {rows : List TaskRow × List ConsumptionRow × List LeaseRow}

theorem Watched.apply (h : Watched rid rows st db) {w : ScheduleWrite} (hw : w.creates = false) :
    Watched rid rows (w.statusOf rid st) (db.apply w) := by
  obtain ⟨hrows, hst⟩ := h
  cases w with
  | setRun =>
    refine ⟨hrows, ?_⟩
    rw [run_setRun, ScheduleWrite.statusOf]
    obtain ⟨row, hrow, rfl⟩ := map_eq_some_iff.1 hst
    split
    · simp [hrow]
    · exact hst
  | insertRun =>
    refine ⟨hrows, ?_⟩
    obtain ⟨row', hrow', rfl⟩ := map_eq_some_iff.1 hst
    rw [ScheduleTables.run] at hrow'
    rw [ScheduleTables.run, ScheduleTables.apply, List.find?_append, hrow']
    rfl
  | insertTask | insertConsumption | insertLease => cases hw
  | _ => exact ⟨hrows, hst⟩

theorem Watched.view {ws : List ScheduleWrite} (h : Watched rid rows st db)
    (hws : ∀ w ∈ ws, w.creates = false) :
    Watched rid rows (ws.foldl (fun st w ↦ w.statusOf rid st) st) (scheduleDatabase.view db ws) := by
  induction ws generalizing st db with
  | nil => exact h
  | cons w _ ih =>
    exact ih (h.apply (hws w List.mem_cons_self)) fun w' hw' ↦ hws w' (List.mem_cons_of_mem w hw')

theorem writes_quiet (rid : ℕ) (st : RunStatus) (inp : ScheduleInput) (n : ℕ) (db : ScheduleTables)
    (o : Op) (ho : o.creates = false) :
    (∀ w ∈ (execStatement inp n (fun _ ↦ false) db o).writes, w.creates = false) ∧
      (execStatement inp n (fun _ ↦ false) db o).writes.foldl (fun st w ↦ w.statusOf rid st) st =
        o.statusOf rid st := by
  cases o with
  | createTask | consumeApproval | issueLease => cases ho
  | insertRun =>
    simp only [execStatement, execInsertRun]
    split <;> simp [read, ScheduleWrite.creates, ScheduleWrite.statusOf, Op.statusOf]
  | addPlannerNote =>
    simp only [execStatement, execAddPlannerNote]
    split <;> simp [read, ScheduleWrite.creates, ScheduleWrite.statusOf, Op.statusOf]
  | insertRunBudget =>
    simp only [execStatement, execInsertRunBudget]
    split <;> simp [read, ScheduleWrite.creates, ScheduleWrite.statusOf, Op.statusOf]
  | _ => simp [execStatement, execAddAttempt, read, ScheduleWrite.creates, ScheduleWrite.statusOf,
      Op.statusOf]

theorem tracks_watch : scheduleDatabase.Tracks (watch rid) inp (Watched rid rows) where
  ok st db n o h _ := by
    cases o with
    | loadRun =>
      obtain ⟨row, hrow, hst⟩ := map_eq_some_iff.1 h.2
      constructor
      · rintro rfl
        exact isSome_of_eq_some hrow
      · intro row' hrow'
        refine ⟨runId_of_run hrow', ?_⟩
        rintro rfl
        rwa [some.inj (hrow'.symm.trans hrow)]
    | _ => trivial
  next st db n o h ho := by
    obtain ⟨hquiet, hst⟩ := writes_quiet rid st (inp n) n db o ho
    have hview := h.view hquiet
    rwa [hst] at hview

/-! ## Bodies that leave nothing behind -/

variable {S : Set RunStatus}

/-- The body issues none of the collaborators' statements, keeps the status of the Run in `S`, and
what it returns has `P`. -/
def Keeps (rid : ℕ) (S : Set RunStatus) (p : Body α) (P : α → Prop) : Prop :=
  ∀ st ∈ S, p.Conforms (watch rid) (fun x st' ↦ st' ∈ S ∧ ∀ a, x = .ok a → P a) st

section Keeps

variable {P : α → Prop} {Q : β → Prop}

theorem Keeps.ret {a : α} (ha : P a) : Keeps rid S (pure a) P :=
  fun _ hst ↦ Conforms.ret ⟨hst, fun _ h ↦ Except.ok.inj h ▸ ha⟩

theorem Keeps.raise {e : ExecError} : Keeps rid S (throw e) P :=
  fun _ hst ↦ Conforms.raise ⟨hst, fun _ h ↦ nomatch h⟩

variable {p : Body α} {xs : List β}

theorem Keeps.bind {f : α → Body β} (hp : Keeps rid S p P) (hf : ∀ a, P a → Keeps rid S (f a) Q) :
    Keeps rid S (p >>= f) Q := by
  intro st hst
  refine conforms_do ((hp st hst).mono ?_)
  rintro (e | a) st' ⟨hst', h⟩
  · exact ⟨hst', fun _ h ↦ nomatch h⟩
  · exact hf a (h a rfl) st' hst'

theorem Keeps.mono {P' : α → Prop} (hp : Keeps rid S p P) (h : ∀ a, P a → P' a) :
    Keeps rid S p P' :=
  fun st hst ↦ (hp st hst).mono fun _ _ hx ↦ ⟨hx.1, fun a ha ↦ h a (hx.2 a ha)⟩

theorem Keeps.quiet (hp : Keeps rid S p P) : Keeps rid S p fun _ ↦ True := hp.mono fun _ _ ↦ trivial

theorem Keeps.attempt (hp : Keeps rid S p P) : Keeps rid S (attempt p) fun _ ↦ True := by
  intro st hst
  refine Prog.conforms_tryCatch.2 (conforms_do ((hp st hst).mono ?_))
  rintro (e | a) st' ⟨hst', -⟩
  · exact Conforms.ret ⟨hst', fun _ _ ↦ trivial⟩
  · exact Conforms.ret ⟨hst', fun _ _ ↦ trivial⟩

theorem Keeps.forEach {f : β → Body Unit} (hf : ∀ x, Keeps rid S (f x) fun _ ↦ True) :
    Keeps rid S (Prog.forEach xs f) fun _ ↦ True := by
  induction xs with
  | nil => exact .ret trivial
  | cons x _ ih => exact (hf x).bind fun _ _ ↦ ih

theorem Keeps.collect {f : β → Body α} (hf : ∀ x, Keeps rid S (f x) fun _ ↦ True) :
    Keeps rid S (Prog.collect xs f) fun _ ↦ True := by
  induction xs with
  | nil => exact .ret trivial
  | cons x _ ih => exact (hf x).bind fun _ _ ↦ ih.bind fun _ _ ↦ .ret trivial

theorem keeps_orRaise (x : Except ExecError α) : Keeps rid S (orRaise x) fun _ ↦ True := by
  rcases x with e | a
  · exact .raise
  · exact .ret trivial

theorem keeps_orContract (x : Except ScheduleContractError α) :
    Keeps rid S (orContract x) fun _ ↦ True := by
  rcases x with e | a
  · exact .raise
  · exact .ret trivial

end Keeps

variable {o : Op} {run : RunRow} {cols : RunCols} {target : RunStatus} {p : Body α} {f : α → Body β}
    {e : Entered}

theorem keeps_ask (ho : o.creates = false) (hst : ∀ st ∈ S, o.statusOf rid st ∈ S) :
    Keeps rid S (ask o) fun _ ↦ True :=
  fun st h ↦ Conforms.issue ho fun _ _ ↦ ⟨hst st h, fun _ _ ↦ trivial⟩

theorem keeps_external (call : External) : Keeps rid S (external call) fun _ ↦ True :=
  (keeps_ask rfl fun _ ↦ id).bind fun _ _ ↦ keeps_orRaise _

theorem keeps_notice (kind : String) (run : RunRow) : Keeps rid S (notice kind run) fun _ ↦ True :=
  (keeps_external _).bind fun _ _ ↦ .ret trivial

theorem keeps_alert (kind : String) (run : RunRow) : Keeps rid S (alert kind run) fun _ ↦ True :=
  (keeps_external _).bind fun _ _ ↦ .ret trivial

theorem keeps_findSchedule (sid : String) : Keeps rid S (findSchedule sid) fun _ ↦ True := by
  refine (keeps_ask rfl fun _ ↦ id).bind fun row _ ↦ ?_
  rcases row with - | row
  · exact .raise
  · exact .ret trivial

theorem keeps_findVersion (vid : ℕ) : Keeps rid S (findVersion vid) fun _ ↦ True := by
  refine (keeps_ask rfl fun _ ↦ id).bind fun row _ ↦ ?_
  rcases row with - | row
  · exact .raise
  · exact .ret trivial

theorem keeps_findRun (i : ℕ) (forUpdate : Bool) :
    Keeps rid S (findRun i forUpdate) fun row ↦ row.runId = i := by
  intro st hst
  refine conforms_do (Conforms.issue rfl fun r hr ↦ ?_)
  rcases r with - | row
  · exact Conforms.raise ⟨hst, fun _ h ↦ nomatch h⟩
  · exact Conforms.ret ⟨hst, fun _ h ↦ Except.ok.inj h ▸ (hr.2 row rfl).1⟩

theorem keeps_loadAll (ids : List ℕ) : Keeps rid S (loadAll ids) fun _ ↦ True :=
  (Keeps.collect fun i ↦ keeps_ask (o := .loadRun i false) rfl fun _ ↦ id).bind fun _ _ ↦
    .ret trivial

theorem keeps_updateRun (h : ∀ s, cols.status = some s → s ∈ S) :
    Keeps rid S (updateRun run cols) fun row ↦ row.runId = run.runId := by
  refine (keeps_ask (o := .updateRun run cols) rfl fun st hst ↦ ?_).bind fun _ _ ↦
    keeps_findRun _ _
  rw [Op.statusOf]
  split
  · rcases hcols : cols.status with - | s
    · exact hst
    · exact h s hcols
  · exact hst

theorem keeps_setRun (h : target ∈ S) :
    Keeps rid S (setRun run target cols) fun row ↦ row.runId = run.runId :=
  (keeps_orContract _).bind fun _ _ ↦ keeps_updateRun fun _ hs ↦ some.inj hs ▸ h

theorem ask_conforms (ho : o.creates = false) (hst : o.statusOf rid st = st) :
    (ask o).Conforms (watch rid) (fun x st' ↦ x.isOk ∧ st' = st) st :=
  Conforms.issue ho fun _ _ ↦ ⟨rfl, hst⟩

theorem conforms_next {Q : Except ExecError β → RunStatus → Prop}
    (hp : p.Conforms (watch rid) (fun x st' ↦ x.isOk ∧ st' = st) st)
    (hf : ∀ a, (f a).Conforms (watch rid) Q st) : (p >>= f).Conforms (watch rid) Q st := by
  refine conforms_do (hp.mono ?_)
  rintro (e | a) st' ⟨hok, rfl⟩
  · cases hok
  · exact hf a

theorem addAttempt_conforms (i no : ℕ) (startedAt finishedAt : Option Time)
    (result errorCode : Option String) :
    (addAttempt i no startedAt finishedAt result errorCode).Conforms (watch rid)
      (fun x st' ↦ x.isOk ∧ st' = st) st := by
  refine conforms_next (ask_conforms rfl rfl) fun has ↦ ?_
  split
  · split
    · exact Conforms.ret ⟨rfl, rfl⟩
    · exact conforms_next (ask_conforms rfl rfl) fun now ↦
        ask_conforms (o := .finishAttempt i no _ _ _) rfl rfl
  · exact conforms_next (ask_conforms rfl rfl) fun _ ↦ conforms_next (ask_conforms rfl rfl)
      fun _ ↦ Conforms.ret ⟨rfl, rfl⟩

theorem keeps_addAttempt (i no : ℕ) (startedAt finishedAt : Option Time)
    (result errorCode : Option String) :
    Keeps rid S (addAttempt i no startedAt finishedAt result errorCode) fun _ ↦ True :=
  fun _ hst ↦ (addAttempt_conforms _ _ _ _ _ _).mono fun _ _ h ↦ ⟨h.2 ▸ hst, fun _ _ ↦ trivial⟩

theorem keeps_appendRunEvent (run : RunRow) (type op suffix : String) :
    Keeps rid S (appendRunEvent run type op suffix) fun _ ↦ True := by
  refine (keeps_ask rfl fun _ ↦ id).bind fun r _ ↦ ?_
  split
  · exact .ret trivial
  · split
    · exact .ret trivial
    · exact .raise
  · exact .raise

theorem keeps_setResultEvent (run : RunRow) (eventId : Option String) :
    Keeps rid S (setResultEvent run eventId) fun row ↦ row.runId = run.runId := by
  rcases eventId with - | eventId
  · exact .ret rfl
  · exact keeps_updateRun fun _ h ↦ nomatch h

theorem keeps_loadReservation (res : ℕ) : Keeps rid S (loadReservation res) fun _ ↦ True := by
  refine (keeps_ask rfl fun _ ↦ id).bind fun row _ ↦ ?_
  rcases row with - | row
  · exact .raise
  · dsimp only
    split
    · exact .ret trivial
    · exact .raise

theorem keeps_reserveScope (run : RunRow) (estimate limit : ℤ) (scope : BudgetScope)
    (runIds : List ℕ) :
    Keeps rid S (reserveScope run estimate limit scope runIds) fun _ ↦ True := by
  refine (keeps_ask rfl fun _ ↦ id).bind fun now _ ↦ (keeps_ask rfl fun _ ↦ id).bind fun overruns _ ↦ ?_
  split
  · exact (keeps_alert _ _).bind fun _ _ ↦ .ret trivial
  split
  · exact .raise
  refine (keeps_ask rfl fun _ ↦ id).bind fun _ _ ↦ (keeps_ask rfl fun _ ↦ id).bind fun used _ ↦
    (keeps_ask rfl fun _ ↦ id).bind fun reserved _ ↦ ?_
  split
  · exact (keeps_external _).bind fun _ _ ↦ (keeps_alert _ _).bind fun _ _ ↦ .ret trivial
  · exact (keeps_ask rfl fun _ ↦ id).bind fun _ _ ↦ (keeps_ask rfl fun _ ↦ id).bind fun _ _ ↦
      (keeps_external _).bind fun _ _ ↦ (keeps_ask rfl fun _ ↦ id).bind fun _ _ ↦ .ret trivial

theorem keeps_reserveLimit (run : RunRow) (estimate : ℤ) (limit : Option ℤ) (scope : BudgetScope)
    (runIds : List ℕ) :
    Keeps rid S (reserveLimit run estimate limit scope runIds) fun _ ↦ True := by
  rcases limit with - | limit
  · exact .ret trivial
  · exact keeps_reserveScope _ _ _ _ _

theorem keeps_reserveForRun (run : RunRow) (version : VersionRow) :
    Keeps rid S (reserveForRun run version) fun _ ↦ True := by
  rw [reserveForRun]
  split
  · exact .ret trivial
  refine (keeps_ask rfl fun _ ↦ id).bind fun now _ ↦ (keeps_ask rfl fun _ ↦ id).bind fun ids _ ↦
    (keeps_reserveLimit _ _ _ _ _).bind fun detail _ ↦ ?_
  rcases detail with - | detail
  · exact keeps_reserveLimit _ _ _ _ _
  · exact .ret trivial

theorem keeps_releaseForRun (run : RunRow) : Keeps rid S (releaseForRun run) fun _ ↦ True := by
  refine (keeps_ask rfl fun _ ↦ id).bind fun rows _ ↦ Keeps.forEach fun row ↦ ?_
  refine (keeps_loadReservation _).attempt.bind fun r _ ↦ ?_
  split
  · exact .ret trivial
  · exact .raise
  · exact (keeps_ask rfl fun _ ↦ id).bind fun _ _ ↦ (keeps_ask rfl fun _ ↦ id).bind fun _ _ ↦ keeps_ask rfl fun _ ↦ id

theorem keeps_settleBudget (run : RunRow) (actual : ℤ) (row : RunBudgetRow) :
    Keeps rid S (settleBudget run actual row) fun _ ↦ True := by
  refine (keeps_ask rfl fun _ ↦ id).bind fun now _ ↦
    Keeps.bind (P := fun _ ↦ True) ?_ fun runIds _ ↦ ?_
  · rcases row.scopeType with - | -
    · exact .ret trivial
    · exact keeps_ask rfl fun _ ↦ id
  split
  · exact .raise
  refine (keeps_loadReservation _).bind fun reservation _ ↦ (keeps_ask rfl fun _ ↦ id).bind fun _ _ ↦
    (keeps_ask rfl fun _ ↦ id).bind fun used _ ↦ (keeps_ask rfl fun _ ↦ id).bind fun reserved _ ↦
    (keeps_ask rfl fun _ ↦ id).bind fun _ _ ↦ (keeps_ask rfl fun _ ↦ id).bind fun _ _ ↦ ?_
  split
  · exact keeps_alert _ _
  · exact .ret trivial

theorem keeps_cleanup (run : RunRow) : Keeps rid S (cleanup run) fun _ ↦ True := by
  refine Keeps.bind (P := fun _ ↦ True) ?_ fun _ _ ↦ Keeps.bind (P := fun _ ↦ True) ?_
    fun _ _ ↦ keeps_ask rfl fun _ ↦ id
  · rw [revokeLeases]
    split
    · exact (keeps_ask rfl fun _ ↦ id).bind fun _ _ ↦ .ret trivial
    · exact .ret trivial
  · exact (keeps_ask rfl fun _ ↦ id).bind fun actual _ ↦ (keeps_ask rfl fun _ ↦ id).bind fun rows _ ↦
      Keeps.forEach fun row ↦ keeps_settleBudget _ _ _

/-! ## Before the Task -/

theorem keeps_finishCancel (run : RunRow) (timedOut : Bool) (reason : String) :
    Keeps rid univ (finishCancel run timedOut reason) fun _ ↦ True := by
  refine (keeps_ask rfl fun _ ↦ id).bind fun now _ ↦ (keeps_findVersion _).bind fun _ _ ↦
    Keeps.bind (P := fun _ ↦ True) ?_ fun finished _ ↦
    (keeps_cleanup _).bind fun _ _ ↦ (keeps_notice _ _).bind fun _ _ ↦ .ret trivial
  rw [setCancelled]
  split
  · exact (keeps_setRun (mem_univ _)).bind fun _ _ ↦ (keeps_appendRunEvent _ _ _ _).bind fun _ _ ↦
      (keeps_setResultEvent _ _).quiet
  · exact (keeps_setRun (mem_univ _)).bind fun _ _ ↦ (keeps_appendRunEvent _ _ _ _).bind fun _ _ ↦
      (keeps_setResultEvent _ _).quiet

theorem keeps_closeRun (run : RunRow) (taskStatus : String) :
    Keeps rid univ (closeRun run taskStatus) fun _ ↦ True := by
  refine (keeps_ask rfl fun _ ↦ id).bind fun now _ ↦
    Keeps.bind (P := fun _ ↦ True) ?_ fun run' _ ↦ ?_
  · rw [setRunning]
    split
    · exact (keeps_setRun (mem_univ _)).quiet
    · exact .ret trivial
  split
  · exact (keeps_setRun (mem_univ _)).bind fun _ _ ↦ (keeps_appendRunEvent _ _ _ _).bind fun _ _ ↦
      (keeps_setResultEvent _ _).bind fun _ _ ↦ (keeps_addAttempt _ _ _ _ _ _).bind fun _ _ ↦
      (keeps_cleanup _).bind fun _ _ ↦ (keeps_notice _ _).bind fun _ _ ↦ .ret trivial
  · exact (keeps_setRun (mem_univ _)).bind fun _ _ ↦ (keeps_appendRunEvent _ _ _ _).bind fun _ _ ↦
      (keeps_setResultEvent _ _).bind fun _ _ ↦ (keeps_addAttempt _ _ _ _ _ _).bind fun _ _ ↦
      (keeps_cleanup _).bind fun _ _ ↦ (keeps_notice _ _).bind fun _ _ ↦ .ret trivial

theorem keeps_onTaskTerminal (taskId taskStatus : String) :
    Keeps rid univ (onTaskTerminal taskId taskStatus) fun _ ↦ True := by
  refine (keeps_ask rfl fun _ ↦ id).bind fun ids _ ↦ (keeps_loadAll ids).bind fun rows _ ↦
    Keeps.forEach fun row ↦ ?_
  rw [onRunTerminal]
  split
  · exact .ret trivial
  refine (keeps_findVersion _).bind fun _ _ ↦ ?_
  split
  · exact (keeps_finishCancel _ _ _).bind fun _ _ ↦ .ret trivial
  · exact (keeps_closeRun _ _).bind fun _ _ ↦ .ret trivial

theorem keeps_cancelTask (taskId key : String) :
    Keeps rid univ (cancelTask ctx taskId key) fun _ ↦ True := by
  refine (keeps_external _).bind fun status _ ↦ ?_
  rcases status with - | status
  · exact .ret trivial
  dsimp only
  rw [terminalHook]
  split
  · exact .ret trivial
  refine (keeps_ask rfl fun _ ↦ id).bind fun ids _ ↦ ?_
  split
  · exact .ret trivial
  refine (keeps_ask rfl fun _ ↦ id).bind fun principal _ ↦ ?_
  rcases principal with - | principal
  · exact .raise
  · exact keeps_onTaskTerminal _ _

theorem keeps_requestCancel (run : RunRow) (reasonCode : String) :
    Keeps rid univ (requestCancel ctx run reasonCode) fun _ ↦ True := by
  refine (keeps_orContract _).bind fun target _ ↦ (keeps_ask rfl fun _ ↦ id).bind fun now _ ↦ ?_
  split
  · exact (keeps_setRun (mem_univ _)).bind fun _ _ ↦ (keeps_appendRunEvent _ _ _ _).bind fun _ _ ↦
      (keeps_setResultEvent _ _).bind fun _ _ ↦ (keeps_releaseForRun _).bind fun _ _ ↦
      (keeps_ask rfl fun _ ↦ id).bind fun _ _ ↦ .ret trivial
  refine (keeps_setRun (mem_univ _)).bind fun requested _ ↦
    (keeps_appendRunEvent _ _ _ _).bind fun _ _ ↦ ?_
  split
  · exact .ret trivial
  refine (keeps_cancelTask _ _).attempt.bind fun x _ ↦ ?_
  split
  · exact .ret trivial
  · exact .ret trivial
  · exact .raise

theorem keeps_skip (run : RunRow) (code detail : String) :
    Keeps rid univ (skip run code detail) fun _ ↦ True :=
  (keeps_ask rfl fun _ ↦ id).bind fun _ _ ↦ (keeps_setRun (mem_univ _)).bind fun _ _ ↦
    (keeps_appendRunEvent _ _ _ _).bind fun _ _ ↦ (keeps_setResultEvent _ _).bind fun _ _ ↦
    (keeps_notice _ _).bind fun _ _ ↦ .ret trivial

theorem keeps_policyCheck (run : RunRow) (schedule : ScheduleRow) (version : VersionRow) :
    Keeps rid univ (policyCheck run schedule version) fun _ ↦ True := by
  rw [policyCheck]
  split
  · exact .ret trivial
  split
  · exact .ret trivial
  · exact (keeps_ask rfl fun _ ↦ id).bind fun _ _ ↦ keeps_orRaise _

theorem keeps_concurrency (run : RunRow) (version : VersionRow) (now : Time) :
    Keeps rid univ (concurrency ctx run version now) fun _ ↦ True := by
  refine (keeps_ask rfl fun _ ↦ id).bind fun active _ ↦ ?_
  split
  · exact .ret trivial
  split
  · refine Keeps.bind (P := fun _ ↦ True) ?_ fun previous _ ↦ ?_
    · rw [replaced]
      split
      · exact keeps_requestCancel _ _
      · exact .ret trivial
    dsimp only
    split
    · exact (keeps_updateRun fun _ _ ↦ mem_univ _).bind fun _ _ ↦ .ret trivial
    · exact (keeps_releaseForRun _).bind fun _ _ ↦ (keeps_skip _ _ _).bind fun _ _ ↦ .ret trivial
    · exact .ret trivial
  · dsimp only
    split
    · exact (keeps_releaseForRun _).bind fun _ _ ↦ (keeps_skip _ _ _).bind fun _ _ ↦ .ret trivial
    · exact .ret trivial

/-- **Before the Task nothing is left behind**, and the attempt is opened for a CLAIMED Run. -/
theorem keeps_enter (run : RunRow) : Keeps rid univ (enter ctx run) fun x ↦
    ∀ e, x = .ok e → e.run = run ∧ run.status = .claimed := by
  rw [enter]
  split
  · exact .raise
  next hclaimed =>
    refine (keeps_ask rfl fun _ ↦ id).bind fun now _ ↦ (keeps_findSchedule _).bind fun _ _ ↦
      (keeps_findVersion _).bind fun version _ ↦ (keeps_policyCheck _ _ _).bind fun check _ ↦ ?_
    split
    · exact (keeps_skip _ _ _).bind fun _ _ ↦ .ret fun _ h ↦ nomatch h
    refine (keeps_reserveForRun _ _).bind fun detail _ ↦ ?_
    split
    · exact (keeps_skip _ _ _).bind fun _ _ ↦ .ret fun _ h ↦ nomatch h
    refine (keeps_concurrency _ _ _).bind fun outcome _ ↦ ?_
    split
    · exact .ret fun _ h ↦ nomatch h
    refine (keeps_addAttempt _ _ _ _ _ _).bind fun _ _ ↦ .ret fun e h ↦ ?_
    obtain rfl := Except.ok.inj h
    exact ⟨rfl, not_not.1 hclaimed⟩

/-! ## After the attempt is opened -/

theorem setRun_conforms (hid : run.runId = rid)
    (hedge : runTransition run.status target = .ok target) :
    (setRun run target cols).Conforms (watch rid) (fun _ st' ↦ st' = target) st := by
  rw [setRun, hedge]
  refine conforms_do (Conforms.ret (conforms_do
    (Conforms.issue (o := Op.updateRun run { cols with status := some target }) rfl
      fun _ _ ↦ ?_)))
  have hnext : Op.statusOf rid st (.updateRun run { cols with status := some target }) ∈
      ({target} : Set RunStatus) := if_pos hid
  exact (keeps_findRun run.runId false _ hnext).mono fun _ _ h ↦ h.1

theorem conforms_keeps (hp : p.Conforms (watch rid) (fun _ st' ↦ st' = target) st)
    (hf : ∀ a, Keeps rid {target} (f a) fun _ ↦ True) :
    (p >>= f).Conforms (watch rid) (fun _ st' ↦ st' = target) st := by
  refine conforms_do (hp.mono ?_)
  rintro (e | a) st' rfl
  · rfl
  · exact (hf a st' rfl).mono fun _ _ h ↦ h.1

theorem startRun_conforms (hid : e.run.runId = rid) (hst : e.run.status = .claimed)
    (taskId : String) :
    (startRun e taskId).Conforms (watch rid) (fun _ st' ↦ st' = .taskCreated) st := by
  refine conforms_keeps (setRun_conforms hid (by rw [hst]; decide)) fun started ↦
    (keeps_appendRunEvent _ _ _ _).bind fun _ _ ↦ (keeps_notice _ _).bind fun _ _ ↦
    Keeps.bind (P := fun _ ↦ True) ?_ fun _ _ ↦ .ret trivial
  rw [noteDelay]
  split
  · exact (keeps_notice _ _).bind fun _ _ ↦ keeps_alert _ _
  · exact .ret trivial

theorem setFailed_conforms (hid : run.runId = rid) (hst : run.status = .claimed) (attemptNo : ℕ)
    (code detail : String) (now : Time) :
    (setFailed run attemptNo code detail now).Conforms (watch rid) (fun _ st' ↦ st' = .failed) st :=
  conforms_keeps (setRun_conforms hid (by rw [hst]; decide)) fun failed ↦
    (keeps_appendRunEvent _ _ _ _).bind fun _ _ ↦ (keeps_setResultEvent _ _).bind fun _ _ ↦
    (keeps_releaseForRun _).bind fun _ _ ↦ (keeps_ask rfl fun _ ↦ id).bind fun _ _ ↦
    (keeps_notice _ _).bind fun _ _ ↦ .ret trivial

/-- There is no further attempt. -/
def RetryOutcome.isLast : RetryOutcome → Bool
  | retry _ _ _ => false
  | failPermanent | failExhausted => true

/-- Whether an attempt that failed with a transient code was the last one. -/
def Entered.exhausted (e : Entered) (code : String) : Bool :=
  match retryPolicyOf e.version with
  | .error _ => false
  | .ok policy => (decideRetry policy e.attemptNo
      (if code ∈ transientErrorCodes then code else "TRANSIENT")).any (·.isLast)

/-- Whether the Run is FAILED for an exception of the creation. -/
def Entered.ends (e : Entered) : ExecError → Bool
  | .transient code _ => e.exhausted code
  | .command code _ => decide (code ∉ transientErrorCodes) || e.exhausted code
  | .secret _ _ | .approval _ _ => true
  | _ => false

theorem fail_conforms (hid : run.runId = rid) (hst : run.status = .claimed) (attemptNo : ℕ)
    (code detail : String) :
    (fail run attemptNo code detail).Conforms (watch rid) (fun _ st' ↦ st' = .failed) st :=
  conforms_next (ask_conforms rfl rfl) fun _ ↦ conforms_next (addAttempt_conforms _ _ _ _ _ _)
    fun _ ↦ setFailed_conforms hid hst _ _ _ _

theorem transient_conforms (hid : e.run.runId = rid) (hst : e.run.status = .claimed)
    (code detail : String) :
    (transient e.run e.version e.attemptNo code detail).Conforms (watch rid)
      (fun _ st' ↦ st' = if e.exhausted code then .failed else st) st := by
  rw [transient, Entered.exhausted]
  rcases retryPolicyOf e.version with error | policy
  · exact conforms_do (Conforms.raise rfl)
  refine conforms_do (Conforms.ret ?_)
  rw [Prog.bindPost_ok]
  obtain ⟨decision, hdecision⟩ : ∃ decision, decideRetry policy e.attemptNo
    (if code ∈ transientErrorCodes then code else "TRANSIENT") = decision := ⟨_, rfl⟩
  simp only [hdecision]
  rcases decision with - | outcome
  · exact Conforms.raise rfl
  refine conforms_next (ask_conforms rfl rfl) fun now ↦
    conforms_next (addAttempt_conforms _ _ _ _ _ _) fun _ ↦ ?_
  rcases outcome with ⟨next, lo, hi⟩ | - | -
  · refine ((?_ : Keeps rid {st} (onRetryOutcome e.run e.attemptNo code detail now
      (.retry next lo hi)) fun _ ↦ True) st rfl).mono fun _ _ h ↦ h.1
    exact (keeps_ask rfl fun _ ↦ id).bind fun _ _ ↦ (keeps_updateRun (by simp)).bind fun _ _ ↦
      (keeps_ask rfl fun _ ↦ id).bind fun _ _ ↦ .ret trivial
  · exact setFailed_conforms hid hst _ _ _ _
  · exact setFailed_conforms hid hst _ _ _ _

theorem onCreateError_conforms (hid : e.run.runId = rid) (hst : e.run.status = .claimed)
    (error : ExecError) : (onCreateError e error).Conforms (watch rid)
      (fun _ st' ↦ st' = if e.ends error then .failed else st) st := by
  cases error with
  | transient code detail => exact transient_conforms hid hst code detail
  | command code detail =>
    rw [onCreateError, Entered.ends]
    by_cases htransient : code ∈ transientErrorCodes
    · rw [if_pos htransient, decide_eq_false (not_not.2 htransient), Bool.false_or]
      exact transient_conforms hid hst code detail
    · simp only [htransient, not_false_eq_true, decide_true, Bool.true_or, if_true, if_false]
      exact fail_conforms hid hst e.attemptNo code detail
  | secret => exact fail_conforms hid hst _ _ _
  | approval => exact fail_conforms hid hst _ _ _
  | _ => exact Conforms.raise rfl

end AgentColab.Schedules
