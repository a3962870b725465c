import AgentColab.Schedules.PlannerHistory
import AgentColab.Schedules.Watch

/-!
# What a failed execution leaves behind

The Approval is consumed, the Task created and delegated and the Secret leases issued one after
the other. A collaborator that refuses raises, and the Run becomes FAILED in the transaction in
which the collaborators before it have done their part.
-/

namespace AgentColab.Schedules

open AgentColab Transaction Transaction.Database List

variable {α β : Type} {cfg : ScheduleConfig} {ctx : ExecutionContext} {rid n : ℕ}
  {inp : ℕ → ScheduleInput} {db : ScheduleTables}

/-! ## Turns of the collaborators -/

/-- One collaborator: why it refuses, if it does, and what it writes if it does not. -/
structure Turn where
  refusal : Option ExecError
  writes : List ScheduleWrite

def refusalOf : Except ExecError α → Option ExecError
  | .ok _ => none
  | .error e => some e

namespace Turn

def refused (turns : List Turn) : Option ExecError := turns.findSome? (·.refusal)

def left : List Turn → List ScheduleWrite
  | [] => []
  | t :: turns => if t.refusal.isSome then [] else t.writes ++ left turns

def consumeApproval (inp : ScheduleInput) (db : ScheduleTables) (run : RunRow)
    (approvalId : String) : Turn where
  refusal := refusalOf (inp.external (.consumeApprovalAllowed approvalId))
  writes := if ⟨approvalId, run.idempotencyKey⟩ ∈ db.consumptions then []
    else [.insertConsumption ⟨approvalId, run.idempotencyKey⟩]

def createTask (inp : ScheduleInput) (db : ScheduleTables) (row : TaskRow) : Turn where
  refusal := (refusalOf (inp.external (.createTaskAllowed row.actorAccountId))).or
    (refusalOf (execCreateTask db row).result)
  writes := (execCreateTask db row).writes

def delegateTask (inp : ScheduleInput) (run : RunRow) (taskId agentId : String) : Turn where
  refusal := refusalOf (inp.external
    (.delegateTask taskId agentId (run.idempotencyKey ++ ":delegate")))
  writes := []

def issueLease (inp : ScheduleInput) (taskId secretRef : String) : Turn where
  refusal := refusalOf (inp.external (.issueLeaseAllowed secretRef))
  writes := [.insertLease ⟨secretRef, taskId⟩]

/-- The leases, each of which takes two statements. -/
def leases (inp : ℕ → ScheduleInput) (taskId : String) : ℕ → List String → List Turn
  | _, [] => []
  | n, ref :: refs => issueLease (inp n) taskId ref :: leases inp taskId (n + 2) refs

def fromTask (inp : ℕ → ScheduleInput) (n : ℕ) (db : ScheduleTables) (e : Entered)
    (row : TaskRow) : List Turn :=
  createTask (inp n) db row ::
    match e.check.agentId with
    | none => leases inp row.taskId (n + 2) e.version.actionTemplate.secretRefs
    | some agentId => delegateTask (inp (n + 2)) e.run row.taskId agentId ::
        leases inp row.taskId (n + 3) e.version.actionTemplate.secretRefs

end Turn

/-- The turns of the collaborators, in order. An action other than `task_create` is refused before
any of them. -/
def Entered.turns (cfg : ScheduleConfig) (ctx : ExecutionContext) (inp : ℕ → ScheduleInput) (n : ℕ)
    (db : ScheduleTables) (e : Entered) : List Turn :=
  let row := taskRow cfg ctx e.run e.schedule e.version
  if e.version.actionTemplate.action ≠ "task_create" then
    [⟨some (.command "SCHEDULE_ACTION_UNSUPPORTED"
      (e.version.actionTemplate.action ++ " is not executable by the scheduler")), []⟩]
  else
    match e.check.approvalId with
    | none => Turn.fromTask inp n db e row
    | some approvalId => Turn.consumeApproval (inp n) db e.run approvalId ::
        Turn.fromTask inp (n + 2) db e row

/-! ## The turns are taken -/

/-- The body takes a turn in `width` statements. -/
def TakesTurn (inp : ℕ → ScheduleInput) (n : ℕ) (db : ScheduleTables) (t : Turn) (width : ℕ)
    (p : Body Unit) : Prop :=
  scheduleDatabase.wp inp p (fun x db' n' ↦ t.refusal = refusalOf x ∧ match x with
    | .ok _ => db' = scheduleDatabase.view db t.writes ∧ n' = n + width
    | .error _ => db' = db) db n

def Took (db : ScheduleTables) (turns : List Turn) (x : Except ExecError α)
    (db' : ScheduleTables) (_ : ℕ) : Prop :=
  Turn.refused turns = refusalOf x ∧ db' = scheduleDatabase.view db (Turn.left turns)

variable {t : Turn} {width : ℕ} {ws : List ScheduleWrite} {e : Entered} {st : RunStatus}
    {rows : List TaskRow × List ConsumptionRow × List LeaseRow}

theorem TakesTurn.next {turns : List Turn} {p : Body Unit} {f : Unit → Body α}
    (hp : TakesTurn inp n db t width p) (hf : scheduleDatabase.wp inp (f ()) (Took
    (scheduleDatabase.view db t.writes) turns) (scheduleDatabase.view db t.writes) (n + width)) :
    scheduleDatabase.wp inp (p >>= f) (Took db (t :: turns)) db n := by
  refine wp_do (wp.mono hp ?_)
  rintro (e | ⟨⟩) db' n' ⟨href, h⟩
  · exact ⟨by rw [Turn.refused, List.findSome?_cons, href]; rfl,
      by rw [Turn.left, href]; exact h⟩
  · obtain ⟨rfl, rfl⟩ := h
    refine wp.mono hf ?_
    rintro x db' n' ⟨hx, hdb⟩
    refine ⟨?_, ?_⟩
    · rw [Turn.refused, List.findSome?_cons, href]
      exact hx
    · rw [Turn.left, href, hdb]
      exact (scheduleDatabase.view_append db t.writes (Turn.left turns)).symm

theorem wp_external {call : External}
    {Q : Except ExecError (Option String) → ScheduleTables → ℕ → Prop}
    (h : Q ((inp n).external call) db (n + 1)) :
    scheduleDatabase.wp inp (external call) Q db n := by
  refine wp_do (wp_issue.2 ?_)
  change scheduleDatabase.wp inp (orRaise ((inp n).external call)) Q db (n + 1)
  rcases hans : (inp n).external call with e | a
  · exact wp_raise.2 (hans ▸ h)
  · exact wp_ret.2 (hans ▸ h)

theorem takesTurn_consumeApproval (run : RunRow) (approvalId : String) :
    TakesTurn inp n db (Turn.consumeApproval (inp n) db run approvalId) 2
      (consumeApproval run approvalId) := by
  refine wp_do (wp_external ?_)
  rcases hans : (inp n).external (.consumeApprovalAllowed approvalId) with e | a
  · exact ⟨by rw [Turn.consumeApproval, hans]; rfl, rfl⟩
  · refine wp_issue.2 ⟨by rw [Turn.consumeApproval, hans]; rfl, ?_, rfl⟩
    simp only [execStatement, Turn.consumeApproval]
    split <;> rfl

theorem takesTurn_createTask (row : TaskRow) :
    TakesTurn inp n db (Turn.createTask (inp n) db row) 2 (createTaskRow row) := by
  refine wp_do (wp_external ?_)
  rcases hans : (inp n).external (.createTaskAllowed row.actorAccountId) with e | a
  · exact ⟨by rw [Turn.createTask, hans]; rfl, rfl⟩
  · refine wp_do (wp_issue.2 ?_)
    change scheduleDatabase.wp inp (orRaise (execCreateTask db row).result) _
      (scheduleDatabase.view db (execCreateTask db row).writes) _
    have hrefusal : (Turn.createTask (inp n) db row).refusal =
        refusalOf (execCreateTask db row).result := by rw [Turn.createTask, hans]; rfl
    -- a conflict writes nothing
    have hconflict : ∀ e, (execCreateTask db row).result = .error e →
        (execCreateTask db row).writes = [] := by
      intro e
      rw [execCreateTask]
      split
      · split <;> exact fun _ ↦ rfl
      · rintro ⟨⟩
    rcases hres : (execCreateTask db row).result with e | a
    · refine wp_raise.2 ⟨by rw [hrefusal, hres], ?_⟩
      rw [hconflict e hres]
      rfl
    · exact wp_ret.2 ⟨by rw [hrefusal, hres], rfl, rfl⟩

theorem takesTurn_delegateTask (run : RunRow) (taskId agentId : String) :
    TakesTurn inp n db (Turn.delegateTask (inp n) run taskId agentId) 1
      (delegateTask run taskId agentId) := by
  refine wp_do (wp_external ?_)
  rcases hans : (inp n).external (.delegateTask taskId agentId (run.idempotencyKey ++ ":delegate"))
    with e | a
  · exact ⟨by rw [Turn.delegateTask, hans]; rfl, rfl⟩
  · exact wp_ret.2 ⟨by rw [Turn.delegateTask, hans]; rfl, rfl, rfl⟩

theorem takesTurn_issueLease (taskId ref : String) :
    TakesTurn inp n db (Turn.issueLease (inp n) taskId ref) 2 (issueLease taskId ref) := by
  refine wp_do (wp_external ?_)
  rcases hans : (inp n).external (.issueLeaseAllowed ref) with e | a
  · exact ⟨by rw [Turn.issueLease, hans]; rfl, rfl⟩
  · exact wp_issue.2 ⟨by rw [Turn.issueLease, hans]; rfl, rfl, rfl⟩

theorem TakesTurn.single {x : β} {f : β → Body Unit} (h : TakesTurn inp n db t width (f x)) :
    TakesTurn inp n db t width (Prog.forEach (some x).toList f) := by
  refine wp_bind.2 (wp.mono h ?_)
  rintro (e | ⟨⟩) db' n' h'
  · exact h'
  · exact wp_ret.2 h'

theorem took_leases (taskId : String) (refs : List String) :
    scheduleDatabase.wp inp (Prog.forEach refs (issueLease taskId) >>= fun _ ↦ pure taskId)
      (Took db (Turn.leases inp taskId n refs)) db n := by
  induction refs generalizing db n with
  | nil => exact wp_ret.2 ⟨rfl, rfl⟩
  | cons ref _ ih =>
    rw [Prog.forEach, Prog.bind_eq, Prog.bind_assoc]
    exact (takesTurn_issueLease taskId ref).next ih

theorem took_fromTask (e : Entered) (row : TaskRow) : scheduleDatabase.wp inp (do
      createTaskRow row
      Prog.forEach e.check.agentId.toList (delegateTask e.run row.taskId)
      Prog.forEach e.version.actionTemplate.secretRefs (issueLease row.taskId)
      return row.taskId) (Took db (Turn.fromTask inp n db e row)) db n := by
  refine (takesTurn_createTask row).next ?_
  rcases e.check.agentId with - | agentId
  · exact took_leases _ _
  · exact (takesTurn_delegateTask _ _ _).single.next (took_leases _ _)

theorem took_createTask (e : Entered) :
    scheduleDatabase.wp inp (createTask cfg ctx e.run e.schedule e.version e.check)
      (Took db (e.turns cfg ctx inp n db)) db n := by
  rw [createTask, Entered.turns]
  dsimp only
  split
  · exact wp_raise.2 ⟨rfl, rfl⟩
  rcases e.check.approvalId with - | approvalId
  · exact took_fromTask _ _
  · refine (takesTurn_consumeApproval _ _).single.next ?_
    -- a consumption changes no Task
    have hsame : Turn.fromTask inp (n + 2) db e =
        Turn.fromTask inp (n + 2) (scheduleDatabase.view db
          (Turn.consumeApproval (inp n) db e.run approvalId).writes) e := by
      rw [Turn.consumeApproval]
      split <;> rfl
    rw [hsame]
    exact took_fromTask _ _

/-! ## What the turns leave -/

/-- How many rows the collaborators have left. -/
def ScheduleTables.createdCount (db : ScheduleTables) : ℕ :=
  db.tasks.length + db.consumptions.length + db.leases.length

theorem createdCount_view (db : ScheduleTables) (hws : ∀ w ∈ ws, w.creates = true) :
    (scheduleDatabase.view db ws).createdCount = db.createdCount + ws.length ∧
      (scheduleDatabase.view db ws).runs = db.runs := by
  induction ws generalizing db with
  | nil => exact ⟨rfl, rfl⟩
  | cons w _ ih =>
    obtain ⟨hcount, hruns⟩ := ih (db.apply w) fun w' hw' ↦ hws w' (mem_cons_of_mem w hw')
    have hone : (db.apply w).createdCount = db.createdCount + 1 ∧ (db.apply w).runs = db.runs := by
      have hw := hws w mem_cons_self
      cases w with
      | insertTask | insertConsumption | insertLease =>
        simp only [ScheduleTables.createdCount, ScheduleTables.apply, length_append,
          length_singleton, and_true]
        omega
      | _ => cases hw
    rw [view_cons]
    refine ⟨?_, hruns.trans hone.2⟩
    rw [hcount, hone.1, length_cons]
    omega

theorem created_view_eq_iff (hws : ∀ w ∈ ws, w.creates = true) :
    (scheduleDatabase.view db ws).created = db.created ↔ ws = [] := by
  constructor
  · intro h
    have hcount : (scheduleDatabase.view db ws).createdCount = db.createdCount := by
      simp only [ScheduleTables.created, Prod.mk.injEq] at h
      rw [ScheduleTables.createdCount, ScheduleTables.createdCount, h.1, h.2.1, h.2.2]
    rw [(createdCount_view db hws).1] at hcount
    exact length_eq_zero_iff.1 (by omega)
  · rintro rfl
    rfl

theorem mem_left {turns : List Turn} {w : ScheduleWrite} (h : w ∈ Turn.left turns) :
    ∃ t ∈ turns, w ∈ t.writes := by
  induction turns with
  | nil => cases h
  | cons t _ ih =>
    rw [Turn.left] at h
    split at h
    · cases h
    rcases mem_append.1 h with h | h
    · exact ⟨t, mem_cons_self, h⟩
    · obtain ⟨t', ht', hw⟩ := ih h
      exact ⟨t', mem_cons_of_mem t ht', hw⟩

theorem creates_leases {taskId : String} {refs : List String} :
    ∀ t ∈ Turn.leases inp taskId n refs, ∀ w ∈ t.writes, w.creates = true := by
  induction refs generalizing n with
  | nil => exact fun t ht ↦ absurd ht not_mem_nil
  | cons _ _ ih =>
    intro t ht w hw
    rcases mem_cons.1 ht with rfl | ht
    · rw [mem_singleton.1 hw]
      rfl
    · exact ih t ht w hw

theorem creates_fromTask {row : TaskRow} :
    ∀ t ∈ Turn.fromTask inp n db e row, ∀ w ∈ t.writes, w.creates = true := by
  intro t ht w hw
  rcases mem_cons.1 ht with rfl | ht
  · change w ∈ (execCreateTask db row).writes at hw
    rw [execCreateTask] at hw
    split at hw
    · split at hw <;> cases hw
    · rw [mem_singleton.1 hw]
      rfl
  rcases hagent : e.check.agentId with - | agentId
  · rw [hagent] at ht
    exact creates_leases t ht w hw
  · rw [hagent] at ht
    rcases mem_cons.1 ht with rfl | ht
    · cases hw
    · exact creates_leases t ht w hw

theorem creates_left (e : Entered) :
    ∀ w ∈ Turn.left (e.turns cfg ctx inp n db), w.creates = true := by
  intro w hw
  obtain ⟨t, ht, hw⟩ := mem_left hw
  rw [Entered.turns] at ht
  split at ht
  · rw [mem_singleton.1 ht] at hw
    cases hw
  split at ht
  · exact creates_fromTask t ht w hw
  rcases mem_cons.1 ht with rfl | ht
  · simp only [Turn.consumeApproval] at hw
    split at hw
    · cases hw
    · rw [mem_singleton.1 hw]
      rfl
  · exact creates_fromTask t ht w hw

/-! ## Failed Runs -/

/-- The part of an execution that is before the Task. -/
def entering (ctx : ExecutionContext) (runId : ℕ) : Body (Except RunOutcome Entered) := do
  let run ← findRun runId true
  enter ctx run

/-- The Run is FAILED or SKIPPED. -/
def ScheduleTables.Unsuccessful (db : ScheduleTables) (rid : ℕ) : Prop :=
  ∃ run, db.run rid = some run ∧ run.status ∈ [RunStatus.failed, RunStatus.skipped]

/-- If the Run ends FAILED or SKIPPED, then the execution has left no Task, no consumption and no
lease. This is about the store at the end of the body, whether it returns or raises: what a tick
catches it commits. -/
def LeavesNothing (cfg : ScheduleConfig) (ctx : ExecutionContext) (inp : ℕ → ScheduleInput) (n : ℕ)
    (db : ScheduleTables) (rid : ℕ) : Prop :=
  (scheduleDatabase.serial inp n db (executeRun cfg ctx rid)).2.1.Unsuccessful rid →
    (scheduleDatabase.serial inp n db (executeRun cfg ctx rid)).2.1.created = db.created

/-- A collaborator refuses after another has left a row, and the exception ends the Run, or the Run
has ended before its Task was created. -/
def LateRefusal (cfg : ScheduleConfig) (ctx : ExecutionContext) (inp : ℕ → ScheduleInput) (n : ℕ)
    (db : ScheduleTables) (rid : ℕ) : Prop :=
  ∃ e db₁ n₁ error, scheduleDatabase.serial inp n db (entering ctx rid) = (.ok (.ok e), db₁, n₁) ∧
    Turn.refused (e.turns cfg ctx inp n₁ db₁) = some error ∧
    Turn.left (e.turns cfg ctx inp n₁ db₁) ≠ [] ∧ (e.ends error = true ∨ db₁.Unsuccessful rid)

theorem executeRun_eq (runId : ℕ) : executeRun cfg ctx runId = entering ctx runId >>= fun
    | .error outcome => pure outcome
    | .ok entered => startTask cfg ctx entered :=
  (Prog.bind_assoc _ _ _).symm

theorem unsuccessful_iff (h : Watched rid rows st db) :
    db.Unsuccessful rid ↔ st ∈ [RunStatus.failed, .skipped] := by
  obtain ⟨row, hrow, rfl⟩ := Option.map_eq_some_iff.1 h.2
  constructor
  · rintro ⟨row', hrow', hst⟩
    rwa [Option.some.inj (hrow.symm.trans hrow')]
  · exact fun hst ↦ ⟨row, hrow, hst⟩

/-- **Before the Task.** Nothing is left, and a Run whose attempt is opened is CLAIMED in the row
that was read. -/
theorem wp_entering (ctx : ExecutionContext) (inp : ℕ → ScheduleInput) (n : ℕ) {run : RunRow}
    (hrun : db.run rid = some run) : scheduleDatabase.wp inp (entering ctx rid) (fun x db₁ _ ↦
      (∃ st, Watched rid db.created st db₁) ∧
        ∀ e, x = .ok (.ok e) → e.run.runId = rid ∧ e.run.status = .claimed) db n := by
  have hwatched : Watched rid db.created run.status db := ⟨rfl, by rw [hrun]; rfl⟩
  have hkeeps : Keeps rid Set.univ (entering ctx rid) fun x ↦ ∀ e, x = .ok e →
      e.run.runId = rid ∧ e.run.status = .claimed := by
    refine (keeps_findRun rid true).bind fun row hid ↦ (keeps_enter row).mono fun x hx e he ↦ ?_
    obtain ⟨rfl, hst⟩ := hx e he
    exact ⟨hid, hst⟩
  refine wp.mono (tracks_watch.wp hwatched (hkeeps _ trivial)) ?_
  rintro x db₁ n₁ ⟨st, ⟨-, hx⟩, hst⟩
  exact ⟨⟨st, hst⟩, fun e he ↦ hx _ he e rfl⟩

/-- **From the Task on.** What is left is what the turns have left, and the status of the Run is
known. -/
theorem wp_startTask (cfg : ScheduleConfig) (ctx : ExecutionContext) (inp : ℕ → ScheduleInput)
    (n : ℕ) (h : Watched rid rows st db) (hid : e.run.runId = rid) (hst : e.run.status = .claimed) :
    scheduleDatabase.wp inp (startTask cfg ctx e) (fun _ db' _ ↦
      Watched rid (scheduleDatabase.view db (Turn.left (e.turns cfg ctx inp n db))).created
        (match Turn.refused (e.turns cfg ctx inp n db) with
          | none => .taskCreated
          | some error => if e.ends error then .failed else st) db') db n := by
  have hruns : Watched rid (scheduleDatabase.view db (Turn.left (e.turns cfg ctx inp n db))).created
      st (scheduleDatabase.view db (Turn.left (e.turns cfg ctx inp n db))) := by
    refine ⟨rfl, ?_⟩
    rw [ScheduleTables.run, (createdCount_view db (creates_left e)).2]
    exact h.2
  refine wp_do (wp_tryCatch.2 (wp_do (wp.mono (took_createTask e) ?_)))
  rintro (error | taskId) db' n' ⟨hrefused, rfl⟩
  · rw [hrefused]
    refine wp_ret.2 (wp.mono (tracks_watch.wp hruns (onCreateError_conforms hid hst error)) ?_)
    rintro x db'' n'' ⟨st', rfl, hwatched⟩
    exact hwatched
  · rw [hrefused]
    refine wp_ret.2 (wp.mono (tracks_watch.wp hruns (startRun_conforms hid hst taskId)) ?_)
    rintro x db'' n'' ⟨st', rfl, hwatched⟩
    exact hwatched

theorem entering_of_none (hrun : db.run rid = none) :
    scheduleDatabase.serial inp n db (entering ctx rid) =
      (.error (.lookup ("RUN_NOT_FOUND: " ++ toString rid)), db, n + 1) := by
  change scheduleDatabase.serial inp (n + 1) db (Prog.bind (Prog.bind (.ret (db.run rid)) _) _) = _
  rw [hrun]
  rfl

theorem leavesNothing_iff_wp : LeavesNothing cfg ctx inp n db rid ↔
    scheduleDatabase.wp inp (executeRun cfg ctx rid)
      (fun _ db' _ ↦ db'.Unsuccessful rid → db'.created = db.created) db n := by
  rw [wp]
  exact Iff.rfl

/-- **A failed execution leaves nothing behind, but for late refusals.** -/
theorem leavesNothing_iff (cfg : ScheduleConfig) (ctx : ExecutionContext)
    (inp : ℕ → ScheduleInput) (n : ℕ) (db : ScheduleTables) (rid : ℕ) :
    LeavesNothing cfg ctx inp n db rid ↔ ¬LateRefusal cfg ctx inp n db rid := by
  rw [leavesNothing_iff_wp, executeRun_eq, Prog.bind_eq, wp_bind, wp, LateRefusal]
  rcases hrun : db.run rid with - | run
  · rw [entering_of_none hrun]
    refine iff_of_true (fun _ ↦ rfl) ?_
    rintro ⟨e, db₁, n₁, error, h, -⟩
    cases h
  have hentering := wp_entering ctx inp n hrun
  rw [wp] at hentering
  generalize scheduleDatabase.serial inp n db (entering ctx rid) = entered at hentering ⊢
  obtain ⟨error | (outcome | e), db₁, n₁⟩ := entered
  · refine iff_of_true (fun _ ↦ ?_) ?_
    · obtain ⟨⟨st, hst⟩, -⟩ := hentering
      exact hst.1
    · rintro ⟨e, db₁, n₁, error, h, -⟩
      cases h
  · refine iff_of_true (wp_ret.2 fun _ ↦ ?_) ?_
    · obtain ⟨⟨st, hst⟩, -⟩ := hentering
      exact hst.1
    · rintro ⟨e, db₁, n₁, error, h, -⟩
      cases h
  · obtain ⟨⟨st, hst⟩, he⟩ := hentering
    obtain ⟨hid, hclaimed⟩ := he e rfl
    have hend := wp_startTask cfg ctx inp n₁ hst hid hclaimed
    have hunsuccessful := unsuccessful_iff hst
    -- the status at the end decides, and then whether there are rows
    have hiff : (∀ db' st', Watched rid (scheduleDatabase.view db₁
        (Turn.left (e.turns cfg ctx inp n₁ db₁))).created st' db' →
        ((db'.Unsuccessful rid → db'.created = db.created) ↔
          (st' ∈ [RunStatus.failed, .skipped] → Turn.left (e.turns cfg ctx inp n₁ db₁) = []))) := by
      intro db' st' hst'
      rw [unsuccessful_iff hst', hst'.1, ← hst.1, created_view_eq_iff (creates_left e)]
    change scheduleDatabase.wp inp (startTask cfg ctx e) (fun _ db' _ ↦ db'.Unsuccessful rid →
      db'.created = db.created) db₁ n₁ ↔ _
    rw [wp] at hend ⊢
    refine (hiff _ _ hend).trans ⟨?_, ?_⟩
    · rintro hnothing ⟨e', db₁', n₁', error, heq, hrefused, hleft, hends⟩
      obtain ⟨rfl, rfl, rfl⟩ : e = e' ∧ db₁ = db₁' ∧ n₁ = n₁' := by simpa using heq
      refine hleft (hnothing ?_)
      rw [hrefused]
      rcases hends with hends | hends
      · simp [hends]
      · dsimp only
        split
        · simp
        · exact hunsuccessful.1 hends
    · intro hlate hst'
      by_contra hleft
      rcases hrefused : Turn.refused (e.turns cfg ctx inp n₁ db₁) with - | error
      · simp [hrefused] at hst'
      refine hlate ⟨e, db₁, n₁, error, rfl, hrefused, hleft, ?_⟩
      rw [hrefused] at hst'
      dsimp only at hst'
      split at hst'
      · next hends => exact .inl hends
      · exact .inr (hunsuccessful.2 hst')

/-! ## A Secret granted for another action

The live authority check looks for a grant of the Secret to the agent. The lease needs a grant
for this action. -/

namespace Sample

def secretVersion : VersionRow :=
  { daily with actionTemplate := { secretRefs := ["deploy-key"] } }

def claimedRun : RunRow where
  runId := 0
  workspaceId := "ws-1"
  scheduleId := "sch-1"
  scheduleVersionId := 0
  runKind := .scheduled
  scheduledFor := 600000000
  status := .claimed
  idempotencyKey := "run-key"

def claimedTables : ScheduleTables :=
  { schedules := [enabled], versions := [secretVersion], runs := [claimedRun] }

def runner : ExecutionContext := ⟨"ws-1", "scheduler-1", "00000000-0000-4000-8000-000000000001"⟩

/-- An agent and an Approval are found, and the lease is denied. -/
def leaseDenied (_ : ℕ) : ScheduleInput where
  now := 600000000
  authority := .ok (.ok ⟨some "agent-1", some "approval-1"⟩)
  external
    | .issueLeaseAllowed _ => .error (.secret "SECRET_SCOPE_DENIED" "no matching grant")
    | _ => .ok none

end Sample

theorem LeavesNothing.tasks_length (h : LeavesNothing cfg ctx inp n db rid)
    (hfailed : ((scheduleDatabase.serial inp n db (executeRun cfg ctx rid)).2.1.run rid).map
      (·.status) = some .failed) :
    (scheduleDatabase.serial inp n db (executeRun cfg ctx rid)).2.1.tasks.length =
      db.tasks.length := by
  obtain ⟨run, hrun, hstatus⟩ := Option.map_eq_some_iff.1 hfailed
  have hcreated := h ⟨run, hrun, by simp [hstatus]⟩
  exact congrArg (fun rows ↦ rows.1.length) hcreated

/-- The Run is FAILED, its Approval is used up, and its Task is there. -/
theorem lease_denied_leaves_task :
    ¬LeavesNothing Sample.cfg Sample.runner Sample.leaseDenied 1 Sample.claimedTables 0 :=
  fun h ↦ absurd (h.tasks_length (by decide)) (by decide)

end AgentColab.Schedules
