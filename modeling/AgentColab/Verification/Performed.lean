import AgentColab.Tasks.Rules

/-!
# What a command does

One relation for the commands of both packages: everything that a command that returns can have done
to the tables, guards included. A command that finds itself recorded already leaves the tables as
they are.
-/

namespace AgentColab.Verification

open AgentColab Transaction Database Tasks Option

variable {cfg : Config} {inp : ℕ → TaskInput} {db db' : TaskTables} {n n' : ℕ}

/-- The Task that a command moves by the table, and the Event. -/
def taskMove : TaskCall → Option (String × EventType)
  | .delegate t _ _ => some (t, .taskDelegated)
  | .reassign t _ _ => some (t, .taskReassigned)
  | .accept t => some (t, .taskAccepted)
  | .start t => some (t, .taskStarted)
  | .progress t _ => some (t, .taskProgressReported)
  | .wait t _ => some (t, .taskWaiting)
  | .submit t _ => some (t, .implementationSubmitted)
  | .verify t _ => some (t, .taskVerificationStarted)
  | .requestCancel t _ => some (t, .taskCancelRequested)
  | .cancel t _ => some (t, .taskCancelled)
  | _ => none

def runMove : RunCall → Option (String × VerificationOp)
  | .assign vid => some (vid, .assign)
  | .fix vid => some (vid, .fix)
  | .recheck vid => some (vid, .recheck)
  | .cancel vid => some (vid, .cancel)
  | _ => none

structure RunMoved (db : TaskTables) (vid : String) (op : VerificationOp) (run : VerificationRun)
    (target : VerificationStatus) : Prop where
  found : db.verificationRuns vid = some run
  legal : run.status.transitions op = some target

/-- How the start of a run treats its Task. -/
inductive Entered (mid : TaskTables) (n : ℕ) (ctx : Context) (vid : String) (run : VerificationRun) :
    TaskTables → ℕ → Prop where
  | noTask {n' : ℕ} (none : targetTask run = none) : Entered mid n ctx vid run mid n'
  | notImplemented {n' : ℕ} (t : String) (s : TaskState) (task : targetTask run = some t)
      (folded : mid.stateOf t = .ok s) (born : mid.stream "task" t ≠ [])
      (status : s.status ≠ .implemented) : Entered mid n ctx vid run mid n'
  | replayed {n' : ℕ} (t : String) (s : TaskState) (e : Tasks.Event) (task : targetTask run = some t)
      (folded : mid.stateOf t = .ok s) (prior : Produced mid ctx t "task:verify" e) :
      Entered mid n ctx vid run mid n'
  | moved {n' : ℕ} {db' : TaskTables} (t : String) (s : TaskState) (e : Tasks.Event) (s' : TaskState)
      (task : targetTask run = some t)
      (move : Moved mid n t .taskVerificationStarted s e s' db' n')
      (active : s'.activeVerificationId = some vid) : Entered mid n ctx vid run db' n'

/-- How a verdict reaches the Task of the run. -/
inductive Delivered (inp : ℕ → TaskInput) (db : TaskTables) (n : ℕ) (ctx : Context) (vid : String)
    (run : VerificationRun) (result : Verdict) : TaskTables → ℕ → Prop where
  | noted {n' : ℕ} {db' : TaskTables} (e : Tasks.Event) (none : targetTask run = none)
      (note : Noted db n e db' n') (type : e.type = resultType result) (run' : e.aggregateId = vid)
      (task : e.taskId = run.taskId) : Delivered inp db n ctx vid run result db' n'
  | replayed {n' : ℕ} (t : String) (s : TaskState) (e : Tasks.Event) (task : targetTask run = some t)
      (folded : db.stateOf t = .ok s) (prior : Answered db ctx vid e) (later : n ≤ n') :
      Delivered inp db n ctx vid run result db n'
  | resulted {n' : ℕ} {db' : TaskTables} (t : String) (s : TaskState) (e : Tasks.Event) (s' : TaskState)
      (mid : TaskTables) (k : ℕ) (task : targetTask run = some t)
      (outcome : Resulted db n t vid result s e s' mid k)
      (join : result = .passed ∧ MayJoin inp mid k s' db' n' ∨
        result ≠ .passed ∧ db' = mid ∧ n' = k) : Delivered inp db n ctx vid run result db' n'

variable {m : ℕ} {ctx : Context} {assignee name permission reason scope t vid : String}
    {run : VerificationRun} {result : Verdict} {etype : EventType} {s s' : TaskState}
    {e : Tasks.Event} {call : TaskCall} {payload : Payload} {Q : Unit → TaskTables → ℕ → Prop}
    {revision : ℤ} {op : VerificationOp} {mover : Mover}

theorem Delivered.earlier (h : Delivered inp db n ctx vid run result db' n') (hle : m ≤ n) :
    Delivered inp db m ctx vid run result db' n' := by
  cases h with
  | noted e none note type run' task => exact .noted e none (note.earlier hle) type run' task
  | replayed t s e task folded prior later => exact .replayed t s e task folded prior (hle.trans later)
  | resulted t s e s' mid k task outcome join =>
    exact .resulted t s e s' mid k task (outcome.earlier hle) join

/-- **What a command can have done.** -/
inductive Performed (cfg : Config) (inp : ℕ → TaskInput) (db : TaskTables) (n : ℕ) :
    Call → TaskTables → ℕ → Prop where
  | idle {n' : ℕ} (call : Call) (later : n ≤ n') : Performed cfg inp db n call db n'
  | created {n' : ℕ} {db' : TaskTables} (ctx : Context) (cmd : CreateTask) (t : String) (e : Tasks.Event)
      (s' : TaskState) (creation : Created db n t e s' db' n')
      (root : e.payload.parentTaskId = none) :
      Performed cfg inp db n (.task ctx (.createTask cmd)) db' n'
  | subtask {n' k : ℕ} {mid : TaskTables} (ctx : Context) (cmd : CreateSubtask) (t : String)
      (e : Tasks.Event) (s' : TaskState) (edge : Edge) (creation : Created db n t e s' mid k)
      (later : k ≤ n') :
      Performed cfg inp db n (.task ctx (.createSubtask cmd)) (mid.apply (.insertEdge edge)) n'
  | moved {n' : ℕ} {db' : TaskTables} (ctx : Context) (call : TaskCall) (t : String)
      (etype : EventType) (s : TaskState) (e : Tasks.Event) (s' : TaskState)
      (target : taskMove call = some (t, etype)) (move : Moved db n t etype s e s' db' n')
      (active : ∀ vid, call = .verify t vid → s'.activeVerificationId = some vid) :
      Performed cfg inp db n (.task ctx call) db' n'
  | completed {n' k : ℕ} {mid db' : TaskTables} (ctx : Context) (t document : String)
      (s : TaskState) (e : Tasks.Event) (s' : TaskState)
      (move : Moved db n t .taskCompleted s e s' mid k) (join : MayJoin inp mid k s' db' n') :
      Performed cfg inp db n (.task ctx (.complete t document)) db' n'
  | resulted {n' k : ℕ} {mid db' : TaskTables} (ctx : Context) (t vid : String) (result : Verdict)
      (s : TaskState) (e : Tasks.Event) (s' : TaskState)
      (outcome : Resulted db n t vid result s e s' mid k)
      (join : result = .passed ∧ MayJoin inp mid k s' db' n' ∨
        result ≠ .passed ∧ db' = mid ∧ n' = k) :
      Performed cfg inp db n (.task ctx (.recordResult t vid result)) db' n'
  | criteria {n' : ℕ} {db' : TaskTables} (ctx : Context) (t : String) (revision : ℤ) (e : Tasks.Event)
      (note : Noted db n e db' n') (type : e.type = .acceptanceCriteriaRevised) :
      Performed cfg inp db n (.task ctx (.reviseCriteria t revision)) db' n'
  | runCreated {n' : ℕ} {db' : TaskTables} (ctx : Context) (cmd : CreateVerificationRun)
      (run : VerificationRun) (e : Tasks.Event) (fresh : db.verificationRuns run.verificationId = none)
      (planned : run.status = .planned) (named : run.verificationId = newVerificationId cfg ctx)
      (note : Noted (db.apply (.insertRun run)) n e db' n') (type : e.type = .verifierAssigned) :
      Performed cfg inp db n (.run ctx (.create cmd)) db' n'
  -- the Event of the creation was there already
  | runInserted {n' : ℕ} (ctx : Context) (cmd : CreateVerificationRun) (run : VerificationRun)
      (fresh : db.verificationRuns run.verificationId = none) (planned : run.status = .planned)
      (named : run.verificationId = newVerificationId cfg ctx) (later : n ≤ n') :
      Performed cfg inp db n (.run ctx (.create cmd)) (db.apply (.insertRun run)) n'
  | runMoved {n' : ℕ} (ctx : Context) (call : RunCall) (vid : String) (op : VerificationOp)
      (run : VerificationRun) (target : VerificationStatus) (names : runMove call = some (vid, op))
      (move : RunMoved db vid op run target) (later : n ≤ n') :
      Performed cfg inp db n (.run ctx call) (db.apply (.setRunStatus vid target)) n'
  | runStarted {n' : ℕ} {db' : TaskTables} (ctx : Context) (vid : String) (run : VerificationRun)
      (target : VerificationStatus) (move : RunMoved db vid .start run target) (later : n ≤ n')
      (entered : Entered (db.apply (.setRunStatus vid target)) n ctx vid run db' n') :
      Performed cfg inp db n (.run ctx (.start vid)) db' n'
  | verdict {n' k : ℕ} {mid : TaskTables} (ctx : Context) (vid : String) (result : Verdict)
      (run : VerificationRun) (target : VerificationStatus)
      (move : RunMoved db vid (.verdict result) run target)
      (by' : ctx.accountUuid = run.verifierAccountId)
      (delivered : Delivered inp db n ctx vid run result mid k) (later : k ≤ n') :
      Performed cfg inp db n (.run ctx (.verdict vid result))
        (mid.apply (.setRunResult vid (run.currentRevision + 1) result)) n'
  | scheduled {n' : ℕ} (runs : List ScheduleRun) (later : n ≤ n') :
      Performed cfg inp db n (.schedule runs) (db.apply (.setScheduleRuns runs)) n'

/-! ## Task commands -/

theorem moved_le (h : Moved db n t etype s e s' db' n') : n ≤ n' :=
  h.step.lower.trans h.step.upper.le

theorem returns_moved (hdb : db.Sound n) (hs : db.stateOf t = .ok s)
    (hborn : db.stream "task" t ≠ []) (hmoves : etype.Moves)
    (htarget : taskMove call = some (t, etype))
    (hactive : ∀ vid, call = .verify t vid → payload.verificationId = some vid) (hm : m ≤ n) :
    (taskDatabase cfg).Returns inp (transition ctx scope s etype payload)
      (fun _ db' n' ↦ Performed cfg inp db m (.task ctx call) db' n') db n := by
  refine returns_transition hdb hs hborn hmoves (fun e k hk _ ↦ .idle _ (hm.trans hk)) ?_
  intro e s' db' k hmove _ hpayload _
  refine .moved ctx call t etype s e s' htarget (hmove.earlier hm) ?_
  · rintro vid rfl
    simp only [taskMove, some.injEq, Prod.mk.injEq, true_and] at htarget
    rw [hmove.moved, TaskState.move, TaskState.detail]
    have htype := hmove.type
    rw [← htarget] at htype
    simp [htype, hpayload, hactive vid rfl]

theorem returns_unlessReplayed {check : Body Unit} (hskip : Q () db (n + 1))
    (hcheck : (taskDatabase cfg).Returns inp check Q db (n + 1)) :
    (taskDatabase cfg).Returns inp (unlessReplayed ctx t scope check) Q db n := by
  refine returns_do (returns_replayFromStream (fun e _ ↦ ?_) fun _ ↦ ?_)
  · exact returns_ret.2 hskip
  · exact hcheck

theorem returns_precheck (h : Q () db (n + 1)) :
    (taskDatabase cfg).Returns inp (precheck s etype name) Q db n :=
  returns_do (returns_orRaise fun _ _ ↦ returns_external h)

theorem returns_unless_replayed {answer : Answer} {Q : TaskTables → ℕ → Prop}
    (hQ : ∀ k, n ≤ k → Q db k) : (taskDatabase cfg).Returns inp (do
      if !answer.replayed then external name
      return answer) (fun _ db' n' ↦ Q db' n') db n := by
  by_cases h : (!answer.replayed) = true
  · rw [if_pos h]
    exact returns_do (returns_external (returns_ret.2 (hQ _ (Nat.le_succ n))))
  · rw [if_neg h]
    exact returns_ret.2 (hQ n (Nat.le_refl n))

theorem Performed.mono {call : Call} {k : ℕ} (h : Performed cfg inp db n call db' n')
    (hk : n' ≤ k) : Performed cfg inp db n call db' k := by
  have hstep : ∀ {db db' : TaskTables} {n n' : ℕ} {t : String} {s s' : TaskState} {e : Tasks.Event}
      {time : Time}, n' ≤ k → Step db n t s e s' time db' n' → Step db n t s e s' time db' k :=
    fun hk h ↦ { h with upper := h.upper.trans_le hk }
  have hnoted : ∀ {db db' : TaskTables} {n n' : ℕ} {e : Tasks.Event}, n' ≤ k →
      Noted db n e db' n' → Noted db n e db' k := fun hk h ↦ { h with upper := h.upper.trans_le hk }
  have hjoin : ∀ {db db' : TaskTables} {n n' : ℕ} {s : TaskState}, n' ≤ k →
      MayJoin inp db n s db' n' → MayJoin inp db n s db' k := by
    intro db db' n n' s hk h
    cases h with
    | idle later => exact .idle (later.trans hk)
    | joined parent s e _ of join => exact .joined parent s e _ of { join with step := hstep hk join.step }
  cases h with
  | idle _ later => exact .idle _ (later.trans hk)
  | created ctx cmd t e s' creation root =>
    exact .created ctx cmd t e s' { creation with step := hstep hk creation.step } root
  | subtask ctx cmd t e s' edge creation later =>
    exact .subtask ctx cmd t e s' edge creation (later.trans hk)
  | moved ctx call t etype s e s' target move active =>
    exact .moved ctx call t etype s e s' target { move with step := hstep hk move.step } active
  | completed ctx t document s e s' move join =>
    exact .completed ctx t document s e s' move (hjoin hk join)
  | resulted ctx t vid result s e s' outcome join =>
    rcases join with ⟨hpassed, join⟩ | ⟨hnot, rfl, rfl⟩
    · exact .resulted ctx t vid result s e s' outcome (.inl ⟨hpassed, hjoin hk join⟩)
    · exact .resulted ctx t vid result s e s' { outcome with step := hstep hk outcome.step }
        (.inr ⟨hnot, rfl, rfl⟩)
  | criteria ctx t revision e note type => exact .criteria ctx t revision e (hnoted hk note) type
  | runCreated ctx cmd run e fresh planned named note type =>
    exact .runCreated ctx cmd run e fresh planned named (hnoted hk note) type
  | runInserted ctx cmd run fresh planned named later =>
    exact .runInserted ctx cmd run fresh planned named (later.trans hk)
  | runMoved ctx call vid op run target names move later =>
    exact .runMoved ctx call vid op run target names move (later.trans hk)
  | runStarted ctx vid run target move later entered =>
    refine .runStarted ctx vid run target move (later.trans hk) ?_
    cases entered with
    | noTask none => exact .noTask none
    | notImplemented t s task folded born status => exact .notImplemented t s task folded born status
    | replayed t s e task folded prior => exact .replayed t s e task folded prior
    | moved t s e s' task move' active =>
      exact .moved t s e s' task { move' with step := hstep hk move'.step } active
  | verdict ctx vid result run target move by' delivered later =>
    exact .verdict ctx vid result run target move by' delivered (later.trans hk)
  | scheduled runs later => exact .scheduled runs (later.trans hk)

theorem returns_plainTransition (hdb : db.Sound n) (hmoves : etype.Moves)
    (htarget : taskMove call = some (t, etype))
    (hactive : ∀ vid, call = .verify t vid → payload.verificationId = some vid) :
    (taskDatabase cfg).Returns inp (plainTransition ctx t permission scope etype payload)
      (fun _ db' n' ↦ Performed cfg inp db n (.task ctx call) db' n') db n := by
  refine returns_do (returns_loadTask hdb.ordered fun s k hk hs hborn ↦ ?_)
  exact returns_do (returns_external (returns_moved (hdb.mono (by omega)) hs hborn hmoves htarget
    hactive (by omega)))

theorem returns_checkedTransition (hdb : db.Sound n) {check after : String}
    (hs : db.stateOf t = .ok s) (hborn : db.stream "task" t ≠ []) (hmoves : etype.Moves)
    (htarget : taskMove call = some (t, etype))
    (hactive : ∀ vid, call = .verify t vid → payload.verificationId = some vid) (hm : m ≤ n) :
    (taskDatabase cfg).Returns inp (do
      unlessReplayed ctx t name (precheck s etype check)
      let answer ← transition ctx scope s etype payload
      if !answer.replayed then external after
      return answer)
      (fun _ db' n' ↦ Performed cfg inp db m (.task ctx call) db' n') db n := by
  have hrest : ∀ k, n ≤ k → (taskDatabase cfg).Returns inp (do
      let answer ← transition ctx scope s etype payload
      if !answer.replayed then external after
      return answer) (fun _ db' n' ↦ Performed cfg inp db m (.task ctx call) db' n') db k :=
    fun k hk ↦ returns_do ((returns_moved (hdb.mono hk) hs hborn hmoves htarget hactive
      (hm.trans hk)).mono fun _ _ _ h ↦ returns_unless_replayed fun _ hle ↦ h.mono hle)
  exact returns_do (returns_unlessReplayed (hrest _ (Nat.le_succ n))
    (returns_precheck (hrest _ (by omega))))

theorem returns_createTask (hdb : db.Sound n) {cmd : CreateTask} :
    (taskDatabase cfg).Returns inp (createTask cfg ctx cmd)
      (fun _ db' n' ↦ Performed cfg inp db n (.task ctx (.createTask cmd)) db' n') db n := by
  refine returns_do (returns_external ?_)
  split
  · exact returns_raise
  split
  · exact returns_raise
  refine returns_do (returns_external (returns_do (returns_create (hdb.mono (by omega)) (by decide)
    (fun e s k hk ↦ returns_unless_replayed fun k' hk' ↦ .idle _ (by omega)) ?_)))
  intro e s' db' k hcreated hpayload
  refine returns_unless_replayed fun k' hk' ↦ Performed.mono ?_ hk'
  exact .created ctx cmd _ e s' (hcreated.earlier (by omega)) (by rw [hpayload])

theorem returns_ancestorsOf {fuel : ℕ} {cur : String} {out : List String}
    {Q : List String → TaskTables → ℕ → Prop} (h : ∀ out k, n ≤ k → Q out db k) :
    (taskDatabase cfg).Returns inp (ancestorsOf fuel cur out) Q db n := by
  induction fuel generalizing cur out n with
  | zero => exact returns_ret.2 (h _ n (Nat.le_refl n))
  | succ _ ih =>
    refine returns_do (returns_read rfl ?_)
    cases db.parentOf cur with
    | none => exact returns_ret.2 (h _ _ (Nat.le_succ n))
    | some =>
      change (taskDatabase cfg).Returns inp (if _ then _ else _) _ _ _
      split_ifs
      · exact returns_ret.2 (h _ _ (Nat.le_succ n))
      · exact ih fun out k hk ↦ h out k (by omega)

theorem returns_checkSubtaskCreation {parent : TaskState} {child : String}
    (h : ∀ k, n ≤ k → Q () db k) :
    (taskDatabase cfg).Returns inp (checkSubtaskCreation cfg parent child) Q db n :=
  returns_do (returns_read rfl (returns_do (returns_read rfl (returns_do (returns_ancestorsOf
    fun _ k hk ↦ returns_orRaise fun _ _ ↦ h k (by omega))))))

theorem returns_createSubtask (hdb : db.Sound n) {cmd : CreateSubtask} :
    (taskDatabase cfg).Returns inp (createSubtask cfg ctx cmd)
      (fun _ db' n' ↦ Performed cfg inp db n (.task ctx (.createSubtask cmd)) db' n') db n := by
  refine returns_do (returns_loadTask hdb.ordered fun s k hk hs hborn ↦
    returns_do (returns_external ?_))
  split
  · exact returns_raise
  dsimp only
  split
  · exact returns_raise
  refine returns_do ((returns_replayFromStream (Q := fun r db' k' ↦ db' = db ∧ k ≤ k')
    (fun _ _ ↦ ⟨rfl, by omega⟩) fun _ ↦ ⟨rfl, by omega⟩).mono ?_)
  rintro prior db₀ k₀ ⟨rfl, hk₀⟩
  have hrest : ∀ j, k ≤ j → (taskDatabase cfg).Returns inp (do
      external "prepare_initial"
      let answer ← create ctx "task:create_subtask"
        ((orElse cmd.taskId none).getD (newTaskId cfg ctx "task:create_subtask")) .subtaskCreated {
          parentTaskId := some cmd.parentTaskId
          rootTaskId := some ((orElse s.rootTaskId none).getD cmd.parentTaskId)
          depth := some (s.delegationDepth + 1)
          channelId := s.channelId
          title := some cmd.title
          domain := some cmd.domain
          risk := some cmd.risk
          policySnapshotHash := some ctx.policySnapshotHash }
      if answer.replayed then return answer
      else
      external "persist_initial"
      orRaise (← ask (.insertEdge ⟨(orElse cmd.taskId none).getD (newTaskId cfg ctx
        "task:create_subtask"), cmd.parentTaskId, (orElse s.rootTaskId none).getD cmd.parentTaskId,
        s.delegationDepth + 1, answer.event.eventId⟩))
      return answer)
      (fun _ db' n' ↦ Performed cfg inp db₀ n (.task ctx (.createSubtask cmd)) db' n') db₀ j := by
    intro j hj
    refine returns_do (returns_external (returns_do (returns_create (hdb.mono (by omega)) (by decide)
      (fun e s k hk ↦ ?_) ?_)))
    · rw [if_pos rfl]
      exact returns_ret.2 (.idle _ (by omega))
    · intro e s' db' k' hcreated _
      rw [if_neg (by simp)]
      refine returns_do (returns_external (returns_do (returns_issue.2 (returns_do
        (returns_orRaise ?_)))))
      rintro ⟨⟩ hedge
      refine returns_ret.2 ?_
      change (execInsertEdge db' _).result = _ at hedge
      change Performed cfg inp db₀ n _ ((taskDatabase cfg).view db' (execInsertEdge db' _).writes) _
      rw [execInsertEdge] at hedge ⊢
      split at hedge
      · cases hedge
      · dsimp only at hedge ⊢
        split_ifs at hedge ⊢
        exact .subtask ctx cmd _ e s' _ (hcreated.earlier (by omega)) (by omega : k' ≤ _)
  split
  · exact returns_do (returns_checkSubtaskCreation fun j hj ↦ hrest j (by omega))
  · exact hrest _ hk₀

theorem returns_delegateTask (hdb : db.Sound n) :
    (taskDatabase cfg).Returns inp (delegateTask ctx t assignee reason) (fun _ db' n' ↦
      Performed cfg inp db n (.task ctx (.delegate t assignee reason)) db' n') db n := by
  refine returns_do (returns_loadTask hdb.ordered fun s k hk hs hborn ↦ ?_)
  refine returns_do (returns_external (returns_do (returns_accountUuid fun uuid ↦ ?_)))
  exact returns_checkedTransition (hdb.mono (by omega)) hs hborn ⟨by decide, by decide, by decide⟩
    rfl (by simp) (by omega)

theorem returns_reassignTask (hdb : db.Sound n) :
    (taskDatabase cfg).Returns inp (reassignTask ctx t assignee reason) (fun _ db' n' ↦
      Performed cfg inp db n (.task ctx (.reassign t assignee reason)) db' n') db n := by
  refine returns_do (returns_loadTask hdb.ordered fun s k hk hs hborn ↦ ?_)
  refine returns_do (returns_external (returns_do (returns_accountUuid fun uuid ↦ ?_)))
  exact returns_do ((returns_moved (hdb.mono (by omega)) hs hborn ⟨by decide, by decide, by decide⟩
    rfl (by simp) (by omega)).mono
      fun _ _ _ h ↦ returns_unless_replayed fun _ hle ↦ h.mono hle)

theorem returns_acceptTask (hdb : db.Sound n) :
    (taskDatabase cfg).Returns inp (acceptTask ctx t) (fun _ db' n' ↦
      Performed cfg inp db n (.task ctx (.accept t)) db' n') db n := by
  refine returns_do (returns_loadTask hdb.ordered fun s k hk hs hborn ↦ ?_)
  have hrest : ∀ j, k ≤ j → (taskDatabase cfg).Returns inp (transition ctx "task:accept" s
      .taskAccepted { assigneeAccountId := some ctx.accountUuid }) (fun _ db' n' ↦
      Performed cfg inp db n (.task ctx (.accept t)) db' n') db j := fun j hj ↦
    returns_moved (hdb.mono (by omega)) hs hborn ⟨by decide, by decide, by decide⟩ rfl
      (by simp) (by omega)
  refine returns_do (returns_external (returns_do (returns_unlessReplayed (hrest _ (by omega)) ?_)))
  refine returns_do (returns_orRaise fun _ _ ↦ ?_)
  split
  · exact returns_raise
  · exact returns_external (hrest _ (by omega))

theorem returns_submitImplementation (hdb : db.Sound n) :
    (taskDatabase cfg).Returns inp (submitImplementation ctx t revision) (fun _ db' n' ↦
      Performed cfg inp db n (.task ctx (.submit t revision)) db' n') db n := by
  refine returns_do (returns_loadTask hdb.ordered fun s k hk hs hborn ↦ ?_)
  refine returns_do (returns_external ?_)
  exact returns_checkedTransition (hdb.mono (by omega)) hs hborn ⟨by decide, by decide, by decide⟩
    rfl (by simp) (by omega)

theorem returns_completionChecks (h : ∀ k, n ≤ k → Q () db k) :
    (taskDatabase cfg).Returns inp (completionChecks s) Q db n := by
  rw [completionChecks]
  split
  · exact returns_raise
  have hjoin : (taskDatabase cfg).Returns inp (parentJoinCheck s)
      (fun _ db' k ↦ db' = db ∧ n ≤ k) db n := by
    refine returns_do (returns_read rfl ?_)
    split
    · exact returns_ret.2 ⟨rfl, Nat.le_succ n⟩
    split
    · exact returns_ret.2 ⟨rfl, Nat.le_succ n⟩
    · exact returns_do (returns_orRaise fun _ _ ↦ returns_ret.2 ⟨rfl, Nat.le_succ n⟩)
  refine returns_do (hjoin.mono ?_)
  rintro code db₀ k ⟨rfl, hk⟩
  split
  · exact returns_raise
  · cases code with
    | some => exact returns_raise
    | none => exact returns_external (h _ (by omega))

theorem returns_completeTask (hdb : db.Sound n) {document : String} :
    (taskDatabase cfg).Returns inp (completeTask ctx t document) (fun _ db' n' ↦
      Performed cfg inp db n (.task ctx (.complete t document)) db' n') db n := by
  refine returns_do (returns_loadTask hdb.ordered fun s k hk hs hborn ↦ ?_)
  have hrest : ∀ j, k ≤ j → (taskDatabase cfg).Returns inp (do
      let answer ← transition ctx "task:complete" s .taskCompleted {
        verificationId := some (s.activeVerificationId.getD "")
        documentId := some document }
      if !answer.replayed then onChildTerminal ctx answer.state
      return answer) (fun _ db' n' ↦
      Performed cfg inp db n (.task ctx (.complete t document)) db' n') db j := by
    intro j hj
    refine returns_do (returns_transition (hdb.mono (by omega)) hs hborn
      ⟨by decide, by decide, by decide⟩ (fun e k' hk' _ ↦ ?_) ?_)
    · rw [if_neg (by simp)]
      exact returns_ret.2 (.idle _ (by omega))
    · intro e s' db' k' hmove _ _ _
      rw [if_pos (show (!false) = true from rfl)]
      have hmove' := hmove.earlier (show n ≤ j by omega)
      refine returns_do (returns_onChildTerminal (hmove'.step.sound hdb) fun db₂ k₂ hjoin ↦ ?_)
      exact returns_ret.2 (.completed ctx t document s e s' hmove' hjoin)
  refine returns_do (returns_external (returns_do (returns_unlessReplayed (hrest _ (by omega)) ?_)))
  exact returns_completionChecks fun j hj ↦ hrest j (by omega)

theorem returns_reviseCriteria (hdb : db.Sound n) :
    (taskDatabase cfg).Returns inp (Tasks.reviseCriteria ctx t revision) (fun _ db' n' ↦
      Performed cfg inp db n (.task ctx (.reviseCriteria t revision)) db' n') db n := by
  refine returns_do (returns_loadTask hdb.ordered fun s k hk hs hborn ↦ returns_do
    (returns_external ?_))
  split
  · exact returns_raise
  refine returns_do (returns_read rfl ?_)
  dsimp only
  split
  · exact returns_ret.2 (.idle _ (by omega))
  refine returns_do (returns_external (returns_do (returns_append fun res mid happ ↦ ?_)))
  cases happ with
  | replayed =>
    rw [if_neg (by simp)]
    exact returns_ret.2 (.idle _ (by omega))
  | new e hrec _ named =>
    rw [if_pos (show (!(⟨e, false⟩ : Tasks.AppendResult).replayed) = true from rfl)]
    refine returns_do (returns_external (returns_ret.2 ?_))
    have htype : e.type = .acceptanceCriteriaRevised := hrec.type
    have hkind : e.aggregateType = "task_criteria" := hrec.aggregateType
    refine .criteria ctx t revision e ⟨⟨fun h ↦ ?_, fun h ↦ ?_, ?_, ?_⟩, ?_, ?_, ?_, rfl⟩ htype
    · rw [htype] at h
      exact absurd h (by decide)
    · rw [htype] at h
      exact absurd h (by decide)
    · rw [hrec.aggregateSeq]
      exact Nat.succ_pos _
    · rw [hrec.aggregateId]
      exact ne_empty_of_idPrefix named
    · rw [hkind]
      decide
    · rw [hrec.recordedSeq]
      omega
    · rw [hrec.recordedSeq]
      omega

theorem returns_taskBody (hdb : db.Sound n) (call : TaskCall) :
    (taskDatabase cfg).Returns inp (taskBody cfg ctx call)
      (fun _ db' n' ↦ Performed cfg inp db n (.task ctx call) db' n') db n := by
  have hplain : ∀ {call : TaskCall} {t permission scope : String} {etype : EventType},
      etype.Moves → taskMove call = some (t, etype) → ∀ {payload : Payload},
      (∀ vid, call = .verify t vid → payload.verificationId = some vid) →
      (taskDatabase cfg).Returns inp (plainTransition ctx t permission scope etype payload)
        (fun _ db' n' ↦ Performed cfg inp db n (.task ctx call) db' n') db n :=
    fun hmoves htarget _ hactive ↦ returns_plainTransition hdb hmoves htarget hactive
  cases call with
  | createTask => exact returns_createTask hdb
  | createSubtask => exact returns_createSubtask hdb
  | delegate => exact returns_delegateTask hdb
  | reassign => exact returns_reassignTask hdb
  | accept => exact returns_acceptTask hdb
  | start | progress | wait | cancel =>
    exact hplain ⟨by decide, by decide, by decide⟩ rfl fun _ h ↦ nomatch h
  | submit => exact returns_submitImplementation hdb
  | verify t vid =>
    refine hplain ⟨by decide, by decide, by decide⟩ rfl fun vid' h ↦ ?_
    obtain rfl : vid = vid' := by injection h
    rfl
  | recordResult t vid result =>
    exact returns_recordVerificationResult hdb (fun e s k hk _ _ ↦ .idle _ hk)
      fun s e s' db₁ k₁ db' k hresult _ hjoin ↦ .resulted ctx t vid result s e s' hresult hjoin
  | complete => exact returns_completeTask hdb
  | requestCancel =>
    exact hplain ⟨by decide, by decide, by decide⟩ rfl fun _ h ↦ nomatch h
  | reviseCriteria => exact returns_reviseCriteria hdb

/-! ## Verification commands -/

theorem returns_loadRun {Q : VerificationRun → TaskTables → ℕ → Prop}
    (h : ∀ run, db.verificationRuns vid = some run → Q run db (n + 1)) :
    (taskDatabase cfg).Returns inp (loadRun vid) Q db n := by
  refine returns_do (returns_issue.2 ?_)
  change (taskDatabase cfg).Returns inp _ Q db (n + 1)
  dsimp only [execStatement]
  cases hrun : db.verificationRuns vid with
  | none => exact returns_raise
  | some run => exact returns_ret.2 (h run hrun)

theorem returns_replay {Q : Option Tasks.Event → TaskTables → ℕ → Prop} (h : ∀ prior, (∀ e ∈
    prior, e ∈ db.stream "verification_run" vid ∧ e.idempotencyScope = scope) → Q prior db (n +
    1)) : (taskDatabase cfg).Returns inp (replay ctx vid scope) Q db n := by
  refine returns_do (returns_read rfl (returns_ret.2 (h _ fun e he ↦ ?_)))
  have hmatch := List.find?_some he
  simp only [Bool.and_eq_true, decide_eq_true_eq] at hmatch
  exact ⟨List.mem_of_find?_eq_some he, hmatch.1.1⟩

theorem returns_moveRun {Q : VerificationStatus → TaskTables → ℕ → Prop}
    (h : ∀ target, run.status.transitions op = some target → Q target db n) :
    (taskDatabase cfg).Returns inp (moveRun run op) Q db n :=
  returns_orRaise fun target htarget ↦ h target (nextStatus_eq_ok.1 (mapError_eq_ok.1 htarget))

theorem returns_check (h : Q () db n) :
    (taskDatabase cfg).Returns inp (mover.check ctx run) Q db n := by
  cases mover with
  | anyone => exact returns_ret.2 h
  | verifier | implementer =>
    rw [Mover.check]
    split
    · exact returns_raise
    · exact returns_ret.2 h

theorem returns_simpleMove {Q : Bool → TaskTables → ℕ → Prop} (hreplay : ∀ e ∈ db.stream
    "verification_run" vid, e.idempotencyScope = scope → ∀ k, n ≤ k → Q false db k) (hmove : ∀ run
    target k, n ≤ k → RunMoved db vid op run target → Q true (db.apply (.setRunStatus vid target))
    k) : (taskDatabase cfg).Returns inp (simpleMove ctx vid op scope permission mover) Q db n := by
  refine returns_do (returns_loadRun fun run hrun ↦ returns_do (returns_check (returns_do
    (returns_external (returns_do (returns_replay fun prior hprior ↦ ?_))))))
  cases prior with
  | some e => exact returns_ret.2 (hreplay e (hprior e rfl).1 (hprior e rfl).2 _ (by omega))
  | none =>
    refine returns_do (returns_moveRun fun target htarget ↦ returns_do (returns_issue.2
      (returns_do (returns_external (returns_ret.2 ?_)))))
    exact hmove run target _ (by omega) ⟨hrun, htarget⟩

theorem returns_runMove {call : RunCall} (names : runMove call = some (vid, op)) :
    (taskDatabase cfg).Returns inp (do
      let _ ← simpleMove ctx vid op scope permission mover)
      (fun _ db' n' ↦ Performed cfg inp db n (.run ctx call) db' n') db n :=
  returns_do (returns_simpleMove (fun _ _ _ _ hk ↦ returns_ret.2 (.idle _ hk))
    fun run target _ hk hmove ↦
      returns_ret.2 (.runMoved ctx call vid op run target names hmove hk))

theorem targetTask_setRunStatus {status : VerificationStatus} :
    targetTask { run with status := status } = targetTask run := rfl

theorem returns_startVerification (hdb : db.Sound n) :
    (taskDatabase cfg).Returns inp (startVerification ctx vid)
      (fun _ db' n' ↦ Performed cfg inp db n (.run ctx (.start vid)) db' n') db n := by
  refine returns_do (returns_simpleMove (fun _ _ _ k hk ↦ ?_) fun run target k hk hmove ↦ ?_)
  · rw [if_neg (by simp)]
    exact returns_ret.2 (.idle _ hk)
  rw [if_pos rfl]
  have hmid : (db.apply (.setRunStatus vid target)).Sound n := hdb.congr rfl
  refine returns_do (returns_loadRun fun run' hrun' ↦ ?_)
  have hrun : run' = { run with status := target } := by
    have hfound : (db.apply (.setRunStatus vid target)).verificationRuns vid =
        some { run with status := target } := by
      simp [TaskTables.apply, hmove.found]
    exact some.inj (hrun'.symm.trans hfound)
  subst hrun
  rw [targetTask_setRunStatus]
  cases htask : targetTask run with
  | none =>
    exact returns_ret.2 (.runStarted ctx vid run target hmove (by omega) (.noTask htask))
  | some t =>
    refine returns_do (returns_loadTask (hmid.ordered.mono (by omega)) fun s j hj hs hborn ↦ ?_)
    by_cases himplemented : s.status = .implemented
    · rw [if_pos himplemented]
      refine returns_do (returns_do (returns_loadTask (hmid.ordered.mono (by omega))
        fun s₁ j₁ hj₁ hs₁ _ ↦ returns_do (returns_external ?_)))
      obtain rfl := Except.ok.inj (hs.symm.trans hs₁)
      refine returns_transition (hmid.mono (by omega)) hs hborn ⟨by decide, by decide, by decide⟩
        (fun e k' hk' hprior ↦ returns_ret.2 ?_) fun e s' db' k' hmove' _ hpayload _ ↦
        returns_ret.2 ?_
      · exact .runStarted ctx vid run target hmove (by omega) (.replayed t s e htask hs hprior)
      · have hmoved := hmove'.earlier (show n ≤ j₁ + 1 by omega)
        refine .runStarted ctx vid run target hmove (moved_le hmoved)
          (.moved t s e s' htask hmoved ?_)
        rw [hmoved.moved, TaskState.move, TaskState.detail]
        simp [hmoved.type, hpayload]
    · rw [if_neg himplemented]
      exact returns_ret.2 (.runStarted ctx vid run target hmove (by omega)
        (.notImplemented t s htask hs hborn himplemented))

theorem returns_appendRunEvent (hcreate : etype ∉ creationEvents)
    {Q : Tasks.AppendResult → TaskTables → ℕ → Prop} (hreplay : ∀ prior, prior ∈ db.stream
    "verification_run" run.verificationId → prior.idempotencyScope = scope → prior.idempotencyKey =
    ctx.idempotencyKey → prior.actorAccountId = ctx.accountUuid → Q ⟨prior, true⟩ db (n + 2))
    (hnew : ∀ e db', Noted db n e db' (n + 2) → e.type = etype → e.aggregateId =
    run.verificationId → e.taskId = run.taskId → Q ⟨e, false⟩ db' (n + 2)) :
    (taskDatabase cfg).Returns inp (appendRunEvent ctx run etype scope) Q db n := by
  refine returns_do (returns_read rfl (returns_append fun res mid happ ↦ ?_))
  cases happ with
  | replayed prior recorded _ actor scope' key => exact hreplay prior recorded scope' key actor
  | new e hrec _ named =>
    have htype : e.type = etype := hrec.type
    have hkind : e.aggregateType = "verification_run" := hrec.aggregateType
    have hrun : e.aggregateId = run.verificationId := hrec.aggregateId
    have hne : e.aggregateId ≠ "" := by
      rw [hrec.aggregateId]
      exact ne_empty_of_idPrefix named
    refine hnew e _ ⟨⟨fun h ↦ ?_, fun _ ↦ ⟨hkind, ?_, hne⟩, ?_, hne⟩, ?_, ?_, ?_, rfl⟩ htype hrun
      hrec.taskId
    · exact absurd (htype ▸ h) hcreate
    · rw [hrec.payload, hrun]
    · rw [hrec.aggregateSeq]
      exact Nat.succ_pos _
    · rw [hkind]
      decide
    · rw [hrec.recordedSeq]
      omega
    · rw [hrec.recordedSeq]
      omega

theorem returns_createVerificationRun {cmd : CreateVerificationRun} :
    (taskDatabase cfg).Returns inp (createVerificationRun cfg ctx cmd)
      (fun _ db' n' ↦ Performed cfg inp db n (.run ctx (.create cmd)) db' n') db n := by
  refine returns_do (returns_external ?_)
  split
  · exact returns_raise
  refine returns_do (returns_accountUuid fun implementer ↦ returns_do (returns_accountUuid
    fun verifier ↦ returns_do (returns_external ?_)))
  refine returns_do (returns_issue.2 ?_)
  change (taskDatabase cfg).Returns inp _ _ db _
  refine returns_do (returns_replay fun prior _ ↦ ?_)
  by_cases hexisting : ((db.verificationRuns (newVerificationId cfg ctx)).isSome &&
      prior.isSome) = true
  · change (taskDatabase cfg).Returns inp (if ((db.verificationRuns (newVerificationId cfg
      ctx)).isSome && prior.isSome) = true then _ else _) _ _ _
    rw [if_pos hexisting]
    exact returns_ret.2 (.idle _ (by omega))
  change (taskDatabase cfg).Returns inp (if ((db.verificationRuns (newVerificationId cfg
    ctx)).isSome && prior.isSome) = true then _ else _) _ _ _
  rw [if_neg hexisting]
  refine returns_do (returns_issue.2 (returns_do (returns_orRaise ?_)))
  rintro ⟨⟩ hinsert
  dsimp only [execStatement] at hinsert ⊢
  split_ifs at hinsert ⊢ with hsome
  simp only [isSome_iff_ne_none, ne_eq, not_not] at hsome
  refine returns_do (returns_appendRunEvent (by decide) (fun _ _ _ _ _ ↦ returns_external ?_)
    fun e db' hnote htype _ _ ↦ returns_external ?_)
  · exact .runInserted ctx cmd _ hsome rfl rfl (by omega)
  · have hnote' := hnote.earlier (show n ≤ _ by omega)
    exact Performed.mono (.runCreated ctx cmd _ e hsome rfl rfl hnote' htype) (Nat.le_succ _)

theorem returns_verdictEvent (hdb : db.Sound n) (hnone : ∀ e ∈ db.stream "verification_run"
    run.verificationId, ¬(e.idempotencyScope = "verification_run:result" ∧ e.idempotencyKey =
    ctx.idempotencyKey ∧ e.actorAccountId = ctx.accountUuid)) :
    (taskDatabase cfg).Returns inp (verdictEvent ctx run result) (fun _ db' n' ↦
      Delivered inp db n ctx run.verificationId run result db' n') db n := by
  rw [verdictEvent]
  cases htask : targetTask run with
  | none =>
    refine returns_do (returns_appendRunEvent ?_ (fun e he hscope hkey hactor ↦ ?_)
      fun e db' hnote htype hrun hof ↦ returns_ret.2 (.noted e htask hnote htype hrun hof))
    · cases result <;> decide
    · exact absurd ⟨hscope, hkey, hactor⟩ (hnone e he)
  | some t =>
    refine returns_do (returns_recordVerificationResult hdb (fun e s k hk hs hanswered ↦
      returns_ret.2 (.replayed t s e htask hs hanswered hk)) ?_)
    intro s e s' db₁ k₁ db' k hresult _ hjoin
    exact returns_ret.2 (.resulted t s e s' db₁ k₁ htask hresult hjoin)

theorem returns_submitVerdict (hdb : db.Sound n)
    (hindexed : ∀ vid run, db.verificationRuns vid = some run → run.verificationId = vid) :
    (taskDatabase cfg).Returns inp (submitVerdict ctx vid result) (fun _ db' n' ↦
      Performed cfg inp db n (.run ctx (.verdict vid result)) db' n') db n := by
  refine returns_do (returns_loadRun fun run hrun ↦ returns_do (returns_external ?_))
  obtain rfl := hindexed vid run hrun
  by_cases hby : ctx.accountUuid ≠ run.verifierAccountId
  · rw [if_pos hby]
    exact returns_raise
  rw [if_neg hby]
  rw [ne_eq, not_not] at hby
  refine returns_do (returns_external (returns_do (returns_do (returns_read rfl
    (returns_ret.2 ?_)))))
  split
  · exact returns_ret.2 (.idle _ (by omega))
  next hnone =>
  refine returns_do (returns_external (returns_do (returns_moveRun fun target htarget ↦
    returns_do ?_)))
  refine (returns_verdictEvent (hdb.mono (by omega)) fun e he hmatch ↦ ?_).mono ?_
  · refine List.find?_eq_none.1 hnone e he ?_
    simp [hmatch.1, hmatch.2.1, hmatch.2.2]
  · rintro _ mid k hdelivered
    refine returns_do (returns_external (returns_do (returns_issue.2 (returns_external ?_))))
    refine .verdict ctx run.verificationId result run target ⟨hrun, htarget⟩ hby
      (hdelivered.earlier (by omega)) (by omega : k ≤ _)

theorem returns_runBody (hdb : db.Sound n)
    (hindexed : ∀ vid run, db.verificationRuns vid = some run → run.verificationId = vid)
    (call : RunCall) : (taskDatabase cfg).Returns inp (runBody cfg ctx call)
      (fun _ db' n' ↦ Performed cfg inp db n (.run ctx call) db' n') db n := by
  cases call with
  | create => exact returns_createVerificationRun
  | assign | fix | recheck | cancel => exact returns_runMove rfl
  | start => exact returns_startVerification hdb
  | verdict => exact returns_submitVerdict hdb hindexed

/-- **Everything that a call can have done.** -/
theorem returns_body (hdb : db.Sound n) (hindexed : ∀ vid run,
    db.verificationRuns vid = some run → run.verificationId = vid) (call : Call) :
    (taskDatabase cfg).Returns inp (body cfg call)
      (fun _ db' n' ↦ Performed cfg inp db n call db' n') db n := by
  cases call with
  | task _ call => exact returns_do ((returns_taskBody hdb call).mono fun _ _ _ h ↦ returns_ret.2 h)
  | run _ call => exact returns_runBody hdb hindexed call
  | schedule runs => exact returns_issue.2 (.scheduled runs (Nat.le_succ n))

/-! ## What every command keeps -/

theorem Delivered.sound (hdb : db.Sound n) (h : Delivered inp db n ctx vid run result db' n') :
    db'.Sound n' := by
  cases h with
  | noted e _ note => exact note.sound hdb
  | replayed t s e _ _ _ later => exact hdb.mono later
  | resulted t s e _ _ k _ outcome join =>
    have hmid := outcome.step.sound hdb
    rcases join with ⟨-, join⟩ | ⟨-, rfl, rfl⟩
    · exact join.sound hmid
    · exact hmid

theorem Delivered.verificationRuns (h : Delivered inp db n ctx vid run result db' n') :
    db'.verificationRuns = db.verificationRuns := by
  cases h with
  | noted e _ note => exact note.verificationRuns
  | replayed => rfl
  | resulted t s e _ _ k _ outcome join =>
    rcases join with ⟨-, join⟩ | ⟨-, rfl, rfl⟩
    · exact join.verificationRuns.trans outcome.step.verificationRuns
    · exact outcome.step.verificationRuns

theorem Entered.sound (hdb : db.Sound n) (hle : n ≤ n') (h : Entered db n ctx vid run db' n') :
    db'.Sound n' := by
  cases h with
  | noTask | notImplemented | replayed =>
    exact hdb.mono hle
  | moved t s e _ _ move => exact move.step.sound hdb

theorem Entered.verificationRuns (h : Entered db n ctx vid run db' n') :
    db'.verificationRuns = db.verificationRuns := by
  cases h with
  | noTask => rfl
  | notImplemented => rfl
  | replayed => rfl
  | moved t s e _ _ move => exact move.step.verificationRuns

theorem Performed.sound (hdb : db.Sound n) {call : Call} (h : Performed cfg inp db n call db' n') :
    db'.Sound n' := by
  cases h with
  | idle _ later => exact hdb.mono later
  | created _ _ t e _ creation => exact creation.step.sound hdb
  | subtask _ _ t e _ _ creation later =>
    exact ((creation.step.sound hdb).mono later).congr rfl
  | moved _ _ t _ s e _ _ move => exact move.step.sound hdb
  | completed _ t _ s e _ move join => exact join.sound (move.step.sound hdb)
  | resulted _ t _ _ s e _ outcome join =>
    have hmid := outcome.step.sound hdb
    rcases join with ⟨-, join⟩ | ⟨-, rfl, rfl⟩
    · exact join.sound hmid
    · exact hmid
  | criteria _ t _ e note => exact note.sound hdb
  | runCreated _ _ run e _ _ _ note =>
    have hrun : (db.apply (.insertRun run)).Sound n := hdb.congr rfl
    exact note.sound hrun
  | runInserted _ _ _ _ _ _ later | runMoved _ _ _ _ _ _ _ _ later | scheduled _ later =>
    exact (hdb.mono later).congr rfl
  | runStarted _ vid _ target _ later entered =>
    have hstatus : (db.apply (.setRunStatus vid target)).Sound n := hdb.congr rfl
    exact entered.sound hstatus later
  | verdict _ _ _ _ _ _ _ delivered later =>
    exact ((delivered.sound hdb).mono later).congr rfl

def Indexed (db : TaskTables) : Prop :=
  ∀ vid run, db.verificationRuns vid = some run → run.verificationId = vid

theorem Indexed.congr (hdb : Indexed db) (h : db'.verificationRuns = db.verificationRuns) :
    Indexed db' := by
  intro vid run hrun
  rw [h] at hrun
  exact hdb vid run hrun

theorem Indexed.insertRun (hdb : Indexed db) (run : VerificationRun) :
    Indexed (db.apply (.insertRun run)) := by
  intro vid run' hrun'
  by_cases hvid : vid = run.verificationId
  · subst hvid
    obtain rfl : run = run' := by simpa [TaskTables.apply] using hrun'
    rfl
  · refine hdb vid run' ?_
    simpa [TaskTables.apply, Function.update_of_ne hvid] using hrun'

theorem Indexed.update (hdb : Indexed db) {f : VerificationRun → VerificationRun}
    (hf : ∀ run, (f run).verificationId = run.verificationId) (h : db'.verificationRuns =
    Function.update db.verificationRuns vid ((db.verificationRuns vid).map f)) : Indexed db' := by
  intro vid' run' hrun'
  rw [h] at hrun'
  by_cases hvid : vid' = vid
  · subst hvid
    rw [Function.update_self, map_eq_some_iff] at hrun'
    obtain ⟨run, hrun, rfl⟩ := hrun'
    rw [hf]
    exact hdb vid' run hrun
  · rw [Function.update_of_ne hvid] at hrun'
    exact hdb vid' run' hrun'

theorem Indexed.setRunStatus (hdb : Indexed db) (vid : String) (target : VerificationStatus) :
    Indexed (db.apply (.setRunStatus vid target)) :=
  hdb.update (f := fun run ↦ { run with status := target }) (fun _ ↦ rfl) rfl

theorem Indexed.setRunResult (hdb : Indexed db) (vid : String) (revision : ℕ) (result : Verdict) :
    Indexed (db.apply (.setRunResult vid revision result)) :=
  hdb.update (f := fun run ↦
    { run with status := result.status, currentRevision := revision, result := some result })
    (fun _ ↦ rfl) rfl

theorem Performed.indexed (hdb : Indexed db) {call : Call}
    (h : Performed cfg inp db n call db' n') : Indexed db' := by
  cases h with
  | idle => exact hdb
  | created _ _ t e _ creation => exact hdb.congr creation.step.verificationRuns
  | subtask _ _ t e _ _ creation => exact hdb.congr creation.step.verificationRuns
  | moved _ _ t _ s e _ _ move => exact hdb.congr move.step.verificationRuns
  | completed _ t _ s e _ move join =>
    exact hdb.congr (join.verificationRuns.trans move.step.verificationRuns)
  | resulted _ t _ _ s e _ outcome join =>
    rcases join with ⟨-, join⟩ | ⟨-, rfl, rfl⟩
    · exact hdb.congr (join.verificationRuns.trans outcome.step.verificationRuns)
    · exact hdb.congr outcome.step.verificationRuns
  | criteria _ t _ e note => exact hdb.congr note.verificationRuns
  | runCreated _ _ run e _ _ _ note =>
    exact (hdb.insertRun run).congr note.verificationRuns
  | runInserted _ _ run => exact hdb.insertRun run
  | runMoved _ _ vid _ _ target => exact hdb.setRunStatus vid target
  | runStarted _ vid _ target _ _ entered =>
    exact (hdb.setRunStatus vid target).congr entered.verificationRuns
  | verdict _ _ _ _ _ _ _ delivered =>
    exact (hdb.congr delivered.verificationRuns).setRunResult _ _ _
  | scheduled => exact hdb.congr rfl

/-! ## Invariants of the Tasks -/

/-- The verdict on a run that moves no Task. -/
def Untargeted (db : TaskTables) (call : Call) (e : Tasks.Event) : Prop :=
  ∃ ctx vid result run, call = .run ctx (.verdict vid result) ∧
    db.verificationRuns vid = some run ∧ targetTask run = none ∧ e.taskId = run.taskId

/-- The Task whose end is going to be reported to its parent, if the command ends it. -/
def Reports (db : TaskTables) (call : Call) (t : String) : Prop :=
  (∃ ctx document, call = .task ctx (.complete t document)) ∨
    (∃ ctx vid, call = .task ctx (.recordResult t vid .passed)) ∨
    ∃ ctx vid run, call = .run ctx (.verdict vid .passed) ∧
      db.verificationRuns vid = some run ∧ targetTask run = some t

theorem parentTaskId_move (s : TaskState) (e : Tasks.Event) (target : TaskStatus) :
    (s.move e target).parentTaskId = s.parentTaskId := by
  rw [TaskState.move, TaskState.detail]
  split_ifs <;> rfl

theorem transitions_creation (h : etype ∈ creationEvents) (current : TaskStatus) :
    transitions current etype = none := by
  fin_cases h <;> cases current <;> rfl

theorem joinSatisfied_of_step (hdb : db.Sound n) {u : String} {p p' : TaskState} {time : Time}
    (h : Step db n t s e s' time db' n') (hp : db.stateOf u = .ok p)
    (hsatisfied : p.joinSatisfied = true) (hp' : db'.stateOf u = .ok p') :
    p'.joinSatisfied = true := by
  by_cases hu : u = t
  · subst hu
    obtain rfl := Except.ok.inj (h.folded.symm.trans hp)
    obtain rfl := Except.ok.inj (h.stateOf.symm.trans hp')
    exact joinSatisfied_of_applied (applied_of_applyEvent h.applied) hsatisfied
  · rw [h.stateOf_of_ne hdb hu, hp] at hp'
    exact Except.ok.inj hp' ▸ hsatisfied

section Preserves

variable {call : Call} {I : TaskTables → Prop}

/-- **The rule for invariants of the Tasks.** A command changes the Events and the rows by steps,
joins and notes only. -/
theorem Performed.preserves
    (haside : ∀ mid db' : TaskTables, db'.events = mid.events → db'.rows = mid.rows → I mid → I db')
    (hstep : ∀ {db db' : TaskTables} {n n' : ℕ} {t : String} {s s' : TaskState} {e : Tasks.Event},
      db.Sound n → I db → Step db n t s e s' e.occurredAt db' n' →
      (e.type ∈ creationEvents → db.stream "task" t = []) → I db')
    (hjoin : ∀ {mid db' : TaskTables} {k n' : ℕ} {t : String} {s : TaskState} {e : Tasks.Event},
      mid.Sound k → I mid → Joined inp mid k t s e db' n' → (∃ child s₀ p, Reports db call child ∧
        db.stateOf child = .ok s₀ ∧ orElse s₀.parentTaskId none = some t ∧
        db.stateOf t = .ok p ∧ p.joinSatisfied = false) → I db')
    (hnoted : ∀ {mid db' : TaskTables} {n' : ℕ} {e : Tasks.Event}, mid.Sound n → I mid →
      mid.events = db.events → Noted mid n e db' n' → (e.type ∈ verificationResultEvents → Untargeted db call e) → I db')
    (hdb : db.Sound n) (hI : I db) (h : Performed cfg inp db n call db' n') : I db' := by
  have hmay : ∀ {mid db' : TaskTables} {k n' : ℕ} {t : String} {s s' : TaskState} {e : Tasks.Event}
      {time : Time}, Reports db call t → Step db n t s e s' time mid k →
      s'.parentTaskId = s.parentTaskId → I mid → MayJoin inp mid k s' db' n' → I db' := by
    intro mid db' k n' t s s' e time hreports hfirst hparent hI hjoined
    cases hjoined with
    | idle => exact hI
    | joined parent _ _ _ of join =>
      obtain ⟨p, hp⟩ := hdb.state parent
      have hpending : p.joinSatisfied = false := by
        by_contra hsatisfied
        have hlater := joinSatisfied_of_step hdb hfirst hp (by simpa using hsatisfied)
          join.step.folded
        rw [join.pending] at hlater
        cases hlater
      exact hjoin (hfirst.sound hdb) hI join
        ⟨t, s, p, hreports, hfirst.folded, hparent ▸ of, hp, hpending⟩
  have hmove : ∀ {mid db' : TaskTables} {n' : ℕ} {t : String} {etype : EventType}
      {s s' : TaskState} {e : Tasks.Event}, mid.Sound n → I mid → Moved mid n t etype s e s' db' n' →
      I db' := by
    intro mid db' n' t etype s s' e hmid hI' hmoved
    refine hstep hmid hI' hmoved.step fun hcreate ↦ ?_
    have hlegal := hmoved.legal
    rw [← hmoved.type, transitions_creation hcreate] at hlegal
    cases hlegal
  have hresult : ∀ {mid db' : TaskTables} {k n' : ℕ} {t vid : String} {result : Verdict}
      {s s' : TaskState} {e : Tasks.Event}, (result = .passed → Reports db call t) →
      Resulted db n t vid result s e s' mid k → (result = .passed ∧ MayJoin inp mid k s' db' n' ∨
        result ≠ .passed ∧ db' = mid ∧ n' = k) → I db' := by
    intro mid db' k n' t vid result s s' e hreports hresulted hafter
    have hmid := hstep hdb hI hresulted.step fun hcreate ↦ by
      have hdisjoint : ∀ x ∈ verificationResultEvents, x ∉ creationEvents := by decide
      exact absurd hcreate (hdisjoint _ (hresulted.type ▸ resultType_mem result))
    rcases hafter with ⟨hpassed, hjoined⟩ | ⟨-, rfl, rfl⟩
    · refine hmay (hreports hpassed) hresulted.step ?_ hmid hjoined
      rw [hresulted.decided]
      rfl
    · exact hmid
  cases h with
  | idle => exact hI
  | created _ _ t e _ creation => exact hstep hdb hI creation.step fun _ ↦ creation.fresh
  | subtask ctx cmd t e s' edge creation later =>
    rename_i k mid
    exact haside mid _ rfl rfl (hstep hdb hI creation.step fun _ ↦ creation.fresh)
  | moved _ _ t _ s e _ _ move => exact hmove hdb hI move
  | completed ctx t document s e _ move join =>
    refine hmay (.inl ⟨ctx, document, rfl⟩) move.step ?_ (hmove hdb hI move) join
    rw [move.moved, parentTaskId_move]
  | resulted ctx t vid _ s e _ outcome join =>
    exact hresult (fun hpassed ↦ .inr (.inl ⟨ctx, vid, by rw [hpassed]⟩)) outcome join
  | criteria _ t _ e note type =>
    exact hnoted hdb hI rfl note fun h ↦ absurd (type ▸ h) (by decide)
  | runCreated _ _ run e _ _ _ note type =>
    have hrun : (db.apply (.insertRun run)).Sound n := hdb.congr rfl
    exact hnoted hrun (haside db _ rfl rfl hI) rfl note fun h ↦ absurd (type ▸ h) (by decide)
  | runInserted | runMoved | scheduled =>
    exact haside db _ rfl rfl hI
  | runStarted _ vid _ target _ _ entered =>
    have hstatus : (db.apply (.setRunStatus vid target)).Sound n := hdb.congr rfl
    have hI' : I (db.apply (.setRunStatus vid target)) := haside db _ rfl rfl hI
    cases entered with
    | noTask | notImplemented | replayed =>
      exact hI'
    | moved t s e _ _ move' => exact hmove hstatus hI' move'
  | verdict ctx vid result run target move by' delivered later =>
    rename_i k mid
    refine haside mid _ rfl rfl ?_
    cases delivered with
    | noted e none note _ _ task =>
      exact hnoted hdb hI rfl note fun _ ↦ ⟨ctx, vid, result, run, rfl, move.found, none, task⟩
    | replayed => exact hI
    | resulted t s e _ _ k task outcome join =>
      exact hresult (fun hpassed ↦ .inr (.inr ⟨ctx, vid, run, by rw [hpassed], move.found, task⟩))
        outcome join

end Preserves

theorem history_invariant {C : TaskTables → ℕ → Call → (ℕ → TaskInput) → Prop}
    {I : TaskTables → Prop} (h₀ : I {}) (hstep : ∀ db n call inp db' n', db.Sound n → Indexed db → I
    db → C db n call inp → Performed cfg inp db n call db' n' → I db')
    (h : (taskDatabase cfg).History (body cfg) C {} m db n) : db.Sound n ∧ Indexed db ∧ I db := by
  refine History.invariant (D := taskDatabase cfg) (I := fun db n ↦ db.Sound n ∧ Indexed db ∧ I db)
    ⟨.empty, (fun _ _ hrun ↦ nomatch hrun), h₀⟩ ?_ ?_ h
  · rintro s n n' hle ⟨hs, hi, hI⟩
    exact ⟨hs.mono hle, hi, hI⟩
  · rintro s n call inp ⟨hs, hi, hI⟩ hC
    refine (returns_body hs hi call).mono fun _ s' n' hp ↦ ?_
    exact ⟨hp.sound hs, hp.indexed hi, hstep s n call inp s' n' hs hi hI hC hp⟩

end AgentColab.Verification
