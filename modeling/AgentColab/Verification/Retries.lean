import AgentColab.Transaction.Monitored
import AgentColab.Verification.Coupling

/-!
# Retries of verification commands

A command looks for the Event that it has recorded under its own scope before it moves the run. Only
the creation of a run and its verdict record an Event, so the other commands never find one: a retry
meets the status that the first execution left, from which the move is not legal any more.
-/

namespace AgentColab.Verification

open AgentColab Transaction Database Tasks Prog List

variable {α : Type} {cfg : Config} {inp : ℕ → TaskInput} {db db' : TaskTables} {n n' : ℕ}
  {kept : Option String} {ctx : Context}

/-! ## What the statements leave alone -/

/-- The scopes under which Events of runs are recorded. -/
def recordedScopes : List String := ["verification_run:create", "verification_run:result"]

/-- The statements that record Events of runs under these scopes only, and do not change the run. -/
def Apart (kept : Option String) : Tasks.Op → Prop
  | .append r => r.aggregateType = "verification_run" → r.idempotencyScope ∈ recordedScopes
  | .setRunStatus vid _ => some vid ≠ kept
  | .setRunResult vid _ _ => some vid ≠ kept
  | _ => True

/-- The statements that neither record an Event nor change a run. -/
def Silent : Tasks.Op → Prop
  | .append _ | .setRunStatus _ _ | .setRunResult _ _ _ => False
  | _ => True

theorem Silent.apart {o : Tasks.Op} (h : Silent o) : Apart kept o := by
  cases o <;> first | exact trivial | exact h.elim

theorem apart_of_silent {p : Body α} (h : p.Only Silent) : p.Only (Apart kept) :=
  h.mono fun _ ↦ Silent.apart

/-- The Events of runs were recorded under these scopes. -/
def Scoped (db : TaskTables) : Prop :=
  ∀ e ∈ db.events, e.aggregateType = "verification_run" → e.idempotencyScope ∈ recordedScopes

theorem events_exec (cfg : Config) (inp : TaskInput) (n : ℕ) (db : TaskTables) (o : Tasks.Op) :
    ((taskDatabase cfg).view db (execStatement cfg inp n db o).writes).events = db.events ∨
      ∃ r seq, o = .append r ∧
        (idPrefix r.aggregateType).toList.isPrefixOf r.aggregateId.toList = true ∧
        ((taskDatabase cfg).view db (execStatement cfg inp n db o).writes).events =
          db.events ++ [newEvent cfg.workspaceId n inp.now r seq] := by
  cases o with
  | append r =>
    dsimp only [execStatement, execAppend]
    split
    · split_ifs <;> exact .inl rfl
    · split_ifs with hnext hnamed
      · exact .inl rfl
      · exact .inl rfl
      split
      · exact .inl rfl
      · exact .inr ⟨r, _, rfl, by simpa using hnamed, rfl⟩
  | insertEdge =>
    dsimp only [execStatement, execInsertEdge]
    split
    · exact .inl rfl
    · split_ifs <;> exact .inl rfl
  | insertRun =>
    dsimp only [execStatement]
    split_ifs <;> exact .inl rfl
  | _ => exact .inl rfl

/-- **The rule for what is true of every Event.** -/
theorem keeps_events {P : Tasks.Op → Prop} {I : Tasks.Event → Prop}
    (h : ∀ r n now seq, P (.append r) →
      (idPrefix r.aggregateType).toList.isPrefixOf r.aggregateId.toList = true →
      I (newEvent cfg.workspaceId n now r seq)) :
    (taskDatabase cfg).Keeps P fun db ↦ ∀ e ∈ db.events, I e := by
  intro inp n db o ho hdb e he
  rcases events_exec cfg inp n db o with hsame | ⟨r, seq, rfl, hnamed, hnew⟩
  · exact hdb e (hsame ▸ he)
  · rcases mem_append.1 (hnew ▸ he) with he | he
    · exact hdb e he
    · obtain rfl := mem_singleton.1 he
      exact h r n inp.now seq ho hnamed

theorem keeps_scoped : (taskDatabase cfg).Keeps (Apart kept) Scoped :=
  keeps_events fun _ _ _ _ hr _ ↦ hr

variable {scope vid : String} {r : Tasks.AppendRequest}

theorem keeps_run {run : VerificationRun} :
    (taskDatabase cfg).Keeps (Apart (some vid)) fun db ↦ db.verificationRuns vid = some run := by
  intro inp n db o ho h
  cases o with
  | append r =>
    change ((taskDatabase cfg).view db
      (execAppend cfg.workspaceId inp n db r).writes).verificationRuns vid = some run
    rw [execAppend]
    split
    · split_ifs <;> exact h
    · dsimp only
      split_ifs
      · exact h
      · exact h
      split <;> exact h
  | insertEdge edge =>
    change ((taskDatabase cfg).view db
      (execInsertEdge db edge).writes).verificationRuns vid = some run
    rw [execInsertEdge]
    split
    · exact h
    · split_ifs <;> exact h
  | insertRun run' =>
    change ((taskDatabase cfg).view db
      (execStatement cfg inp n db (.insertRun run')).writes).verificationRuns vid = some run
    dsimp only [execStatement]
    split_ifs with hnew
    · exact h
    -- a run that is there is not the new one
    have hne : vid ≠ run'.verificationId := by
      rintro rfl
      rw [h] at hnew
      exact hnew rfl
    exact (Function.update_of_ne hne _ _).trans h
  | setRunStatus | setRunResult =>
    exact (Function.update_of_ne (fun hv ↦ ho (congrArg some hv.symm)) _ _).trans h
  | _ => exact h

/-! ## The statements of the Task commands -/

theorem only_ask (o : Tasks.Op) (ho : Apart kept o) : (ask o).Only (Apart kept) := .issue ho

theorem silent_ask (o : Tasks.Op) (ho : Silent o) : (ask o : Body (Res o)).Only Silent := .issue ho

theorem silent_orRaise (x : Except CommandError α) : (orRaise x).Only Silent := by
  cases x with
  | error => exact .raise
  | ok => exact .ret

theorem only_orRaise (x : Except CommandError α) : (orRaise x).Only (Apart kept) :=
  apart_of_silent (silent_orRaise x)

theorem silent_external (name : String) : (external name).Only Silent := by
  refine (silent_ask (.external name) trivial).bind ?_
  rintro (- | e)
  · exact .ret
  · exact .raise

theorem only_external (name : String) : (external name).Only (Apart kept) :=
  apart_of_silent (silent_external name)

theorem only_append
    (hr : r.aggregateType = "verification_run" → r.idempotencyScope ∈ recordedScopes) :
    (Tasks.append r).Only (Apart kept) :=
  (only_ask (.append r) hr).bind only_orRaise

theorem not_run (kind : String) (hr : r.aggregateType = kind) (hkind : kind ≠ "verification_run") :
    r.aggregateType = "verification_run" → r.idempotencyScope ∈ recordedScopes :=
  fun h ↦ absurd (hr.symm.trans h) hkind

theorem silent_loadTask (t : String) : (loadTask t).Only Silent := by
  refine (silent_ask (.stream "task" t) trivial).bind fun events ↦ Only.ite .raise ?_
  refine (Only.collect fun vid ↦ ?_).bind fun _ ↦ ?_
  · exact (silent_ask (.stream _ vid) trivial).bind fun _ ↦ .ret
  exact silent_orRaise _

theorem only_loadTask (t : String) : (loadTask t).Only (Apart kept) :=
  apart_of_silent (silent_loadTask t)

theorem only_replayFromStream (t scope : String) :
    (replayFromStream ctx t scope).Only (Apart kept) :=
  (only_ask (.stream "task" t) trivial).bind fun _ ↦ .ret

theorem silent_writeState (s : TaskState) (time : Time) : (writeState s time).Only Silent :=
  silent_ask (.writeState _ _) trivial

theorem only_writeState (s : TaskState) (time : Time) : (writeState s time).Only (Apart kept) :=
  apart_of_silent (silent_writeState s time)

theorem silent_setScheduleRun (run : ScheduleRun) (target : Schedules.RunStatus) :
    (setScheduleRun run target).Only Silent := by
  rw [setScheduleRun]
  split
  · exact .raise
  · exact (silent_ask (.setScheduleRunStatus _ _) trivial).bind fun _ ↦ .ret

theorem silent_closeScheduleRun (status : TaskStatus) (run : ScheduleRun) :
    (closeScheduleRun status run).Only Silent := by
  have hset : ∀ run target, (setScheduleRun run target >>= fun _ ↦ external "cleanup").Only
      Silent := fun run target ↦ (silent_setScheduleRun _ _).bind fun _ ↦ silent_external _
  refine Only.ite .ret (Only.ite (hset run .cancelled) (Only.ite ?_ (hset run _)))
  exact (silent_setScheduleRun _ _).bind fun run ↦ hset run _

theorem silent_terminalHook (t : String) : (terminalHook t).Only Silent := by
  refine (silent_ask (.rowStatus t) trivial).bind ?_
  rintro (- | status)
  · exact .ret
  · refine Only.ite .ret ((silent_ask (.scheduleRunsFor t) trivial).bind fun _ ↦ ?_)
    exact .forEach (silent_closeScheduleRun status)

theorem only_terminalHook (t : String) : (terminalHook t).Only (Apart kept) :=
  apart_of_silent (silent_terminalHook t)

theorem only_transition (scope : String) (s : TaskState) (etype : EventType) (payload : Payload) :
    (transition ctx scope s etype payload).Only (Apart kept) := by
  refine (only_replayFromStream _ _).bind ?_
  rintro (- | prior)
  · refine (only_orRaise _).bind fun status ↦ ?_
    refine (only_append (not_run "task" rfl (by decide))).bind fun res ↦ ?_
    refine Only.ite .ret ((only_orRaise _).bind fun s' ↦ ?_)
    refine Only.ite ((only_terminalHook _).bind fun _ ↦ ?_) ?_
    · exact (only_writeState _ _).bind fun _ ↦ .ret
    · exact (only_writeState _ _).bind fun _ ↦ .ret
  · exact .ret

theorem only_recordJoinIfSatisfied (t : String) :
    (recordJoinIfSatisfied ctx t).Only (Apart kept) := by
  refine (only_loadTask t).bind fun parent ↦ Only.ite .ret ?_
  refine (only_ask (.childrenOf _) trivial).bind fun children ↦ ?_
  refine (only_orRaise _).bind fun result ↦ ?_
  refine Only.ite .ret ((only_ask (.append _) (not_run "task" rfl (by decide))).bind ?_)
  rintro (e | res)
  · exact Only.ite .ret .raise
  · refine (only_ask .now trivial).bind fun now ↦ (only_loadTask t).bind fun parent ↦ ?_
    exact only_writeState _ _

theorem only_onChildTerminal (child : TaskState) :
    (onChildTerminal ctx child).Only (Apart kept) := by
  rw [onChildTerminal]
  split
  · exact .ret
  · exact only_recordJoinIfSatisfied _

theorem only_create (scope t : String) (etype : EventType) (payload : Payload) :
    (create ctx scope t etype payload).Only (Apart kept) := by
  refine (only_append (not_run "task" rfl (by decide))).bind fun res ↦ ?_
  refine (only_loadTask t).bind fun s ↦ ?_
  exact Only.ite ((only_writeState _ _).bind fun _ ↦ .ret) .ret

theorem only_createTask (cmd : CreateTask) : (createTask cfg ctx cmd).Only (Apart kept) := by
  refine (only_external _).bind fun _ ↦ Only.ite .raise (Only.ite .raise ?_)
  refine (only_external _).bind fun _ ↦ (only_create _ _ _ _).bind fun answer ↦ ?_
  exact Only.ite ((only_external _).bind fun _ ↦ .ret) .ret

theorem only_ancestorsOf (fuel : ℕ) (cur : String) (out : List String) :
    (ancestorsOf fuel cur out).Only (Apart kept) := by
  induction fuel generalizing cur out with
  | zero => exact .ret
  | succ _ ih =>
    refine (only_ask (.parentOf cur) trivial).bind ?_
    rintro (- | parent)
    · exact .ret
    · exact Only.ite .ret (ih _ _)

theorem only_checkSubtaskCreation (parent : TaskState) (child : String) :
    (checkSubtaskCreation cfg parent child).Only (Apart kept) :=
  (only_ask (.channelLimits _) trivial).bind fun _ ↦ (only_ask (.childrenOf _) trivial).bind fun _ ↦
    (only_ancestorsOf _ _ _).bind fun _ ↦ only_orRaise _

theorem only_createSubtask (cmd : CreateSubtask) :
    (createSubtask cfg ctx cmd).Only (Apart kept) := by
  refine (only_loadTask _).bind fun parent ↦ (only_external _).bind fun _ ↦ Only.ite .raise ?_
  refine Only.ite .raise ((only_replayFromStream _ _).bind fun prior ↦ ?_)
  have hrest : ∀ answer : Answer, (do
      if answer.replayed then return answer
      else
      external "persist_initial"
      orRaise (← ask (.insertEdge ⟨(orElse cmd.taskId none).getD (newTaskId cfg ctx
        "task:create_subtask"), cmd.parentTaskId, (orElse parent.rootTaskId none).getD
        cmd.parentTaskId, parent.delegationDepth + 1, answer.event.eventId⟩))
      return answer : Tasks.Body Answer).Only (Apart kept) := fun answer ↦
    Only.ite .ret ((only_external _).bind fun _ ↦ (only_ask (.insertEdge _) trivial).bind fun _ ↦
      (only_orRaise _).bind fun _ ↦ .ret)
  refine Only.ite ((only_checkSubtaskCreation _ _).bind fun _ ↦ ?_) ?_
  · exact (only_external _).bind fun _ ↦ (only_create _ _ _ _).bind hrest
  · exact (only_external _).bind fun _ ↦ (only_create _ _ _ _).bind hrest

theorem only_accountUuid (accountId : String) : (accountUuid accountId).Only (Apart kept) := by
  refine (only_ask (.accountUuid accountId) trivial).bind ?_
  rintro (- | uuid)
  · exact .raise
  · exact .ret

theorem only_unlessReplayed {t : String} {check : Tasks.Body Unit} (h : check.Only (Apart kept)) :
    (unlessReplayed ctx t scope check).Only (Apart kept) :=
  (only_replayFromStream _ _).bind fun _ ↦ Only.ite h .ret

theorem only_precheck (s : TaskState) (etype : EventType) (name : String) :
    (precheck s etype name).Only (Apart kept) :=
  (only_orRaise _).bind fun _ ↦ only_external _

theorem only_plainTransition (t permission scope : String) (etype : EventType) (payload : Payload) :
    (plainTransition ctx t permission scope etype payload).Only (Apart kept) :=
  (only_loadTask t).bind fun _ ↦ (only_external _).bind fun _ ↦ only_transition _ _ _ _

theorem only_transition_then (scope : String) (s : TaskState) (etype : EventType)
    (payload : Payload) {after : Answer → Tasks.Body Unit}
    (h : ∀ answer, (after answer).Only (Apart kept)) : (do
      let answer ← transition ctx scope s etype payload
      if !answer.replayed then after answer
      return answer).Only (Apart kept) :=
  (only_transition _ _ _ _).bind fun answer ↦ Only.ite ((h answer).bind fun _ ↦ .ret) .ret

theorem only_completionChecks (s : TaskState) : (completionChecks s).Only (Apart kept) := by
  have hjoin : (parentJoinCheck s).Only (Apart kept) :=
    (only_ask (.childrenOf _) trivial).bind fun _ ↦ Only.ite .ret (Only.ite .ret
      ((only_orRaise _).bind fun _ ↦ .ret))
  refine Only.ite .raise (hjoin.bind fun code ↦ Only.ite .raise ?_)
  cases code with
  | none => exact only_external _
  | some => exact .raise

theorem only_recordVerificationResult (t vid : String) (result : Verdict) :
    (recordVerificationResult ctx t vid result).Only (Apart kept) := by
  refine (only_loadTask t).bind fun s ↦ (only_external _).bind fun _ ↦ ?_
  refine (only_ask (.stream _ vid) trivial).bind fun events ↦ ?_
  dsimp only
  split
  · exact .ret
  refine Only.ite .raise ((only_ask (.stream _ vid) trivial).bind fun stream ↦ ?_)
  have hscope : "verification_run:result" ∈ recordedScopes := by decide
  refine (only_append fun _ ↦ hscope).bind fun res ↦ (only_loadTask t).bind fun s ↦ ?_
  refine (only_writeState _ _).bind fun _ ↦ Only.ite ?_ .ret
  exact (only_onChildTerminal _).bind fun _ ↦ .ret

theorem only_reviseCriteria (t : String) (revision : ℤ) :
    (Tasks.reviseCriteria ctx t revision).Only (Apart kept) := by
  refine (only_loadTask t).bind fun s ↦ (only_external _).bind fun _ ↦ Only.ite .raise ?_
  refine (only_ask (.stream _ t) trivial).bind fun events ↦ ?_
  dsimp only
  split
  · exact .ret
  refine (only_external _).bind fun _ ↦ (only_append (not_run "task_criteria" rfl (by decide))).bind
    fun res ↦ ?_
  exact Only.ite ((only_external _).bind fun _ ↦ .ret) .ret

theorem only_taskBody (call : TaskCall) : (taskBody cfg ctx call).Only (Apart kept) := by
  cases call with
  | createTask cmd => exact only_createTask cmd
  | createSubtask cmd => exact only_createSubtask cmd
  | delegate t =>
    refine (only_loadTask t).bind fun s ↦ (only_external _).bind fun _ ↦
      (only_accountUuid _).bind fun _ ↦ (only_unlessReplayed (only_precheck _ _ _)).bind fun _ ↦ ?_
    exact only_transition_then _ _ _ _ fun _ ↦ only_external _
  | reassign t =>
    refine (only_loadTask t).bind fun s ↦ (only_external _).bind fun _ ↦
      (only_accountUuid _).bind fun _ ↦ ?_
    exact only_transition_then _ _ _ _ fun _ ↦ only_external _
  | accept t =>
    refine (only_loadTask t).bind fun s ↦ (only_external _).bind fun _ ↦ Only.bind
      (only_unlessReplayed ((only_orRaise _).bind fun _ ↦ Only.ite .raise (only_external _)))
      fun _ ↦ only_transition _ _ _ _
  | submit t =>
    refine (only_loadTask t).bind fun s ↦ (only_external _).bind fun _ ↦
      (only_unlessReplayed (only_precheck _ _ _)).bind fun _ ↦ ?_
    exact only_transition_then _ _ _ _ fun _ ↦ only_external _
  | recordResult t vid result => exact only_recordVerificationResult t vid result
  | complete t =>
    refine (only_loadTask t).bind fun s ↦ (only_external _).bind fun _ ↦
      (only_unlessReplayed (only_completionChecks _)).bind fun _ ↦ ?_
    exact only_transition_then _ _ _ _ fun answer ↦ only_onChildTerminal _
  | reviseCriteria t revision => exact only_reviseCriteria t revision
  | _ => exact only_plainTransition _ _ _ _ _

/-! ## The statements of the verification commands -/

theorem only_loadRun (vid : String) : (loadRun vid).Only (Apart kept) := by
  refine (only_ask (.loadRun vid) trivial).bind ?_
  rintro (- | run)
  · exact .raise
  · exact .ret

theorem only_replay (vid scope : String) : (replay ctx vid scope).Only (Apart kept) :=
  (only_ask (.stream _ vid) trivial).bind fun _ ↦ .ret

theorem only_appendRunEvent (run : VerificationRun) (etype : EventType)
    (hscope : scope ∈ recordedScopes) : (appendRunEvent ctx run etype scope).Only (Apart kept) :=
  (only_ask (.stream _ _) trivial).bind fun _ ↦ only_append fun _ ↦ hscope

theorem only_moveRun (run : VerificationRun) (op : VerificationOp) :
    (moveRun run op).Only (Apart kept) := only_orRaise _

theorem only_check (run : VerificationRun) (mover : Mover) :
    (mover.check ctx run).Only (Apart kept) := by
  cases mover with
  | anyone => exact .ret
  | verifier => exact Only.ite .raise .ret
  | implementer => exact Only.ite .raise .ret

theorem only_simpleMove (hvid : some vid ≠ kept) (op : VerificationOp) (scope permission : String)
    (mover : Mover) : (simpleMove ctx vid op scope permission mover).Only (Apart kept) := by
  refine (only_loadRun vid).bind fun run ↦ (only_check run mover).bind fun _ ↦
    (only_external _).bind fun _ ↦ (only_replay _ _).bind ?_
  rintro (- | prior)
  · refine (only_moveRun _ _).bind fun target ↦ ?_
    refine (only_ask (.setRunStatus vid target) hvid).bind fun _ ↦ ?_
    exact (only_external _).bind fun _ ↦ .ret
  · exact .ret

theorem only_enterTaskVerifying (vid : String) :
    (enterTaskVerifying ctx vid).Only (Apart kept) := by
  refine (only_loadRun vid).bind fun run ↦ ?_
  split
  · exact .ret
  · refine (only_loadTask _).bind fun s ↦ Only.ite ?_ .ret
    exact (only_plainTransition _ _ _ _ _).bind fun _ ↦ .ret

theorem only_createVerificationRun (cmd : CreateVerificationRun) :
    (createVerificationRun cfg ctx cmd).Only (Apart kept) := by
  refine (only_external _).bind fun _ ↦ Only.ite .raise ?_
  refine (only_accountUuid _).bind fun _ ↦ (only_accountUuid _).bind fun _ ↦
    (only_external _).bind fun _ ↦ (only_ask (.loadRun _) trivial).bind fun existing ↦
    (only_replay _ _).bind fun prior ↦ Only.ite .ret ?_
  refine (only_ask (.insertRun _) trivial).bind fun _ ↦ (only_orRaise _).bind fun _ ↦ ?_
  exact (only_appendRunEvent _ _ (by decide)).bind fun _ ↦ only_external _

theorem only_submitVerdict (hvid : some vid ≠ kept) (result : Verdict) :
    (submitVerdict ctx vid result).Only (Apart kept) := by
  refine (only_loadRun vid).bind fun run ↦ (only_external _).bind fun _ ↦ Only.ite .raise ?_
  refine (only_external _).bind fun _ ↦ (only_replay _ _).bind ?_
  rintro (- | prior)
  · refine (only_external _).bind fun _ ↦ (only_moveRun _ _).bind fun _ ↦ Only.bind ?_ fun _ ↦ ?_
    · rw [verdictEvent]
      split
      · exact (only_recordVerificationResult _ _ _).bind fun _ ↦ .ret
      · exact (only_appendRunEvent _ _ (by decide)).bind fun _ ↦ .ret
    refine (only_external _).bind fun _ ↦ (only_ask (.setRunResult vid _ _) hvid).bind fun _ ↦ ?_
    exact only_external _
  · exact .ret

/-- The run that a command is on. A creation makes its own. -/
def RunCall.runId : RunCall → Option String
  | .create _ => none
  | .assign vid => some vid
  | .start vid => some vid
  | .verdict vid _ => some vid
  | .fix vid => some vid
  | .recheck vid => some vid
  | .cancel vid => some vid

/-- Not a command on the run. -/
def Elsewhere (vid : String) : Call → Prop
  | .run _ command => command.runId ≠ some vid
  | _ => True

/-- **A command changes the run that it is on, and no other.** -/
theorem only_body {call : Call} (h : ∀ vid ∈ kept, Elsewhere vid call) :
    (body cfg call).Only (Apart kept) := by
  cases call with
  | task _ call => exact (only_taskBody call).bind fun _ ↦ .ret
  | schedule runs => exact only_ask (.setScheduleRuns runs) trivial
  | run _ call =>
    have hne : ∀ {vid : String}, call.runId = some vid → some vid ≠ kept :=
      fun hrun hkept ↦ h _ hkept.symm hrun
    cases call with
    | create cmd => exact only_createVerificationRun cmd
    | start vid =>
      refine (only_simpleMove (hne rfl) _ _ _ _).bind fun moved ↦ Only.ite ?_ .ret
      exact only_enterTaskVerifying vid
    | verdict _ result => exact only_submitVerdict (hne rfl) result
    | assign | fix | recheck | cancel =>
      exact (only_simpleMove (hne rfl) _ _ _ _).bind fun _ ↦ .ret

theorem scoped_of_history {m : ℕ}
    (h : (taskDatabase cfg).History (body cfg) (fun _ _ _ _ ↦ True) {} m db n) : Scoped db := by
  have hkeeps : (taskDatabase cfg).Keeps (Apart none) Scoped := keeps_scoped
  refine hkeeps.history (fun _ _ call _ _ ↦ only_body fun vid hvid ↦ ?_) (fun e he ↦ ?_) h
  · cases hvid
  · exact absurd he not_mem_nil

/-! ## Retries -/

/-- The run and the move of a command that records no Event of the run. -/
def bareMove : RunCall → Option (String × VerificationOp)
  | .start vid => some (vid, .start)
  | command => runMove command

/-- Executed now, the command returns and leaves the tables as they are. -/
def Replays (cfg : Config) (ctx : Context) (call : RunCall) (inp : ℕ → TaskInput) (db : TaskTables)
    (n : ℕ) : Prop :=
  ∃ n', (taskDatabase cfg).serial inp n db (runBody cfg ctx call) = (.ok (), db, n')

/-- After its success, the command can be executed again as long as the run is left alone and no
other package objects. -/
def RetrySafe (cfg : Config) (ctx : Context) (call : RunCall) (vid : String) (db : TaskTables)
    (n : ℕ) : Prop :=
  ∀ db' n' inp, (taskDatabase cfg).History (body cfg) (fun _ _ c _ ↦ Elsewhere vid c) db n db' n' →
    (∀ k, (inp k).refusal = none) → Replays cfg ctx call inp db' n'

theorem transitions_again {current target : VerificationStatus} {op : VerificationOp}
    (h : current.transitions op = some target) : target.transitions op = none := by
  rw [VerificationStatus.transitions.eq_def] at h
  split at h <;> simp_all
  all_goals subst h
  all_goals first | rfl | skip
  next result => cases result <;> rfl

section

variable {vid scope permission : String} {op : VerificationOp} {mover : Mover} (hdb : Scoped db)

include hdb

theorem returns_simpleMove_new (hscope : scope ∉ recordedScopes)
    {Q : Bool → TaskTables → ℕ → Prop} (hmove : ∀ run target k, n ≤ k →
      RunMoved db vid op run target → Q true (db.apply (.setRunStatus vid target)) k) :
    (taskDatabase cfg).Returns inp (simpleMove ctx vid op scope permission mover) Q db n := by
  refine returns_simpleMove (fun e hrecorded he _ _ ↦ absurd ?_ hscope) hmove
  obtain ⟨hmem, hstream⟩ := mem_filter.1 hrecorded
  simp only [decide_eq_true_eq] at hstream
  exact he ▸ hdb e hmem hstream.1

theorem returns_bareMove {call : RunCall} (hcall : bareMove call = some (vid, op)) :
    (taskDatabase cfg).Returns inp (runBody cfg ctx call) (fun _ db' _ ↦ ∃ run target,
      RunMoved db vid op run target ∧
        db'.verificationRuns vid = some { run with status := target }) db n := by
  have hset : ∀ run target, RunMoved db vid op run target →
      (db.apply (.setRunStatus vid target)).verificationRuns vid =
        some { run with status := target } := by
    intro run target hmove
    simp [TaskTables.apply, hmove.found]
  have hplain : ∀ {scope permission mover}, scope ∉ recordedScopes →
      (taskDatabase cfg).Returns inp (do
        let _ ← simpleMove ctx vid op scope permission mover) (fun _ db' _ ↦ ∃ run target,
      RunMoved db vid op run target ∧
        db'.verificationRuns vid = some { run with status := target }) db n :=
    fun hscope ↦ returns_do (returns_simpleMove_new hdb hscope fun run target _ _ hmove ↦
      returns_ret.2 ⟨run, target, hmove, hset run target hmove⟩)
  cases call with
  | create => cases hcall
  | verdict => cases hcall
  | start =>
    cases hcall
    refine returns_do (returns_simpleMove_new hdb (by decide) fun run target k _ hmove ↦ ?_)
    rw [if_pos rfl]
    refine (keeps_run.returns (only_enterTaskVerifying vid) (hset run target hmove)).mono ?_
    exact fun _ _ _ hfound ↦ ⟨run, target, hmove, hfound⟩
  | assign | fix | recheck | cancel =>
    cases hcall
    exact hplain (by decide)

end

/-- **No retry succeeds.** After a command of this kind has succeeded, in every state that other
commands lead to and whatever other packages say, executing it again does not return. -/
theorem retry_never_replays {m n₁ n₂ : ℕ} {db₁ db₂ : TaskTables} {call : RunCall} {vid : String}
    {op : VerificationOp} {again : ℕ → TaskInput}
    (h : (taskDatabase cfg).History (body cfg) (fun _ _ _ _ ↦ True) {} m db n)
    (hcall : bareMove call = some (vid, op))
    (hdone : (taskDatabase cfg).serial inp n db (runBody cfg ctx call) = (.ok (), db₁, n₁))
    (hlater : (taskDatabase cfg).History (body cfg) (fun _ _ c _ ↦ Elsewhere vid c) db₁ n₁ db₂ n₂) :
    ¬Replays cfg ctx call again db₂ n₂ := by
  have hfirst : (taskDatabase cfg).transact inp n db (body cfg (.run ctx call)) = (db₁, n₁) := by
    change (taskDatabase cfg).transact inp n db (runBody cfg ctx call) = _
    rw [Database.transact, hdone]
  have hhistory : (taskDatabase cfg).History (body cfg) (fun _ _ _ _ ↦ True) {} m db₂ n₂ := by
    have hstep := History.step (.run ctx call) inp h trivial
    rw [hfirst] at hstep
    exact hstep.trans (hlater.mono fun _ _ _ _ _ ↦ trivial)
  have hscoped : Scoped db := scoped_of_history h
  have hscoped₂ : Scoped db₂ := scoped_of_history hhistory
  obtain ⟨run, target, hmove, hfound⟩ := (returns_bareMove hscoped hcall).of_serial hdone
  have hfound₂ : db₂.verificationRuns vid = some { run with status := target } :=
    keeps_run.history (fun _ _ c _ hc ↦ only_body fun v hv ↦ by
      obtain rfl := Option.some.inj hv
      exact hc) hfound hlater
  rintro ⟨n', hagain⟩
  obtain ⟨run', target', hmove', -⟩ := (returns_bareMove hscoped₂ hcall).of_serial hagain
  obtain rfl := Option.some.inj (hmove'.found.symm.trans hfound₂)
  have hlegal := hmove'.legal
  rw [transitions_again hmove.legal] at hlegal
  cases hlegal

namespace Sample

def planned : List Call := [task, .run (verifier "run") (.create taskRun)]

def assignment : Call := .run (verifier "assign") (.assign runId)

def delegation : Call := .task (caller "delegate") (.delegate "task-1" "agent-1" "fits")

theorem after_concat (calls : List Call) (call : Call) : after (calls ++ [call]) =
    (taskDatabase config).transact ticking (after calls).2 (after calls).1 (body config call) := by
  rw [after, foldl_append]
  rfl

theorem serial_assign : (taskDatabase config).serial ticking (after planned).2 (after planned).1
    (runBody config (verifier "assign") (.assign runId)) =
      (.ok (), (after (planned ++ [assignment])).1, (after (planned ++ [assignment])).2) := by
  rw [after_concat]
  exact serial_of_isOk (by decide)

theorem later_delegation : (taskDatabase config).History (body config)
    (fun _ _ c _ ↦ Elsewhere runId c)
    (after (planned ++ [assignment])).1 (after (planned ++ [assignment])).2
    (after (planned ++ [assignment] ++ [delegation])).1
    (after (planned ++ [assignment] ++ [delegation])).2 := by
  rw [after_concat (planned ++ [assignment]) delegation]
  exact History.step (D := taskDatabase config) (C := fun _ _ c _ ↦ Elsewhere runId c) delegation
    ticking .refl trivial

end Sample

open Sample

/-- The assignment is tried again after the Task was delegated. -/
theorem retry_never_replays_assign :
    ¬Replays config (verifier "assign") (.assign Sample.runId) ticking
      (Sample.after (planned ++ [Sample.assignment] ++ [delegation])).1
      (Sample.after (planned ++ [Sample.assignment] ++ [delegation])).2 :=
  retry_never_replays (after_history planned fun _ _ _ _ ↦ trivial) rfl
    serial_assign later_delegation

/-- The assignment cannot even be repeated at once. -/
theorem retry_not_safe : ¬∀ (cfg : Config) (m n n₁ : ℕ) (db db₁ : TaskTables) (ctx : Context)
    (call : RunCall) (vid : String) (op : VerificationOp) (inp : ℕ → TaskInput),
    (taskDatabase cfg).History (body cfg) (fun _ _ _ _ ↦ True) {} m db n →
    bareMove call = some (vid, op) →
    (taskDatabase cfg).serial inp n db (runBody cfg ctx call) = (.ok (), db₁, n₁) →
      RetrySafe cfg ctx call vid db₁ n₁ := by
  intro h
  obtain ⟨n', hagain⟩ := h _ _ _ _ _ _ _ _ _ _ _
    (after_history planned fun _ _ _ _ ↦ trivial) rfl serial_assign
    _ _ ticking .refl fun _ ↦ rfl
  have hrefused : ((taskDatabase config).serial ticking
      (Sample.after (planned ++ [Sample.assignment])).2
      (Sample.after (planned ++ [Sample.assignment])).1
      (runBody config (verifier "assign") (.assign Sample.runId))).1.isOk = false := by
    decide
  rw [hagain] at hrefused
  cases hrefused

end AgentColab.Verification
