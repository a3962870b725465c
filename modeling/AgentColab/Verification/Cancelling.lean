import AgentColab.Verification.Retries

/-!
# Cancelling a Run

A running Run whose cancellation is requested asks its Task to cancel. It sends `CancelTask`, which
only a Task that has not been started yet obeys, or one whose cancellation is under way already; and
what the command raises is logged.
-/

namespace AgentColab.Verification

open AgentColab Transaction Database Tasks Prog List
open AgentColab.Schedules (RunStatus cancelRun runTransition)
open Except (ok)

variable {cfg : Config} {inp : ℕ → TaskInput} {db db' : TaskTables} {n n' : ℕ} {ctx : Context}
  {t scope : String} {s s' : TaskState}

/-! ## The numbers of a stream -/

/-- A Task knows the number of the last Event of its stream. -/
def Numbered (db : TaskTables) : Prop :=
  ∀ t s, db.stateOf t = .ok s → Tasks.nextSeq (db.stream "task" t) = s.lastAggregateSeq + 1

/-- The ids of aggregates have their prefixes. -/
def Named (db : TaskTables) : Prop :=
  ∀ e ∈ db.events, (idPrefix e.aggregateType).toList.isPrefixOf e.aggregateId.toList = true

variable {e : Tasks.Event} {name : String} {etype : EventType} {payload : Payload}

theorem lastAggregateSeq_of_applied (h : applyEvent s e = .ok s') (hformed : e.Formed)
    (hexists : e.aggregateType = "task" → e.aggregateId = s.taskId → s'.exists' = true) :
    s'.lastAggregateSeq = if e.aggregateType = "task" ∧ e.aggregateId = s.taskId then
      e.aggregateSeq else s.lastAggregateSeq := by
  rw [applyEvent] at h
  split_ifs at h with hcreate hown hunborn hresult htask hactive hother hannotate
  · obtain rfl := ok.inj h
    exact (if_neg fun hstream ↦ hown hstream.2).symm
  · obtain rfl := ok.inj h
    exact (if_pos ⟨hformed.creation hcreate, not_not.1 hown⟩).symm
  · obtain rfl := ok.inj h
    refine (if_neg fun hstream ↦ ?_).symm
    rw [hexists hstream.1 hstream.2] at hunborn
    cases hunborn
  -- a result is an Event of its run
  · obtain rfl := ok.inj h
    exact (if_neg fun hstream ↦ absurd ((hformed.result hresult).1.symm.trans hstream.1)
      (by decide)).symm
  · obtain rfl := ok.inj h
    exact (if_neg fun hstream ↦ absurd ((hformed.result hresult).1.symm.trans hstream.1)
      (by decide)).symm
  · have hseq : s'.lastAggregateSeq = s.lastAggregateSeq := by
      split at h <;> obtain rfl := ok.inj h <;> rfl
    rw [hseq]
    exact (if_neg fun hstream ↦ absurd ((hformed.result hresult).1.symm.trans hstream.1)
      (by decide)).symm
  · obtain rfl := ok.inj h
    exact (if_neg (by tauto)).symm
  · obtain rfl := ok.inj h
    rw [if_pos (by tauto), TaskState.annotate]
    split_ifs <;> rfl
  · cases hnext : Tasks.nextStatus s.status e.type with
    | error =>
      rw [hnext] at h
      cases h
    | ok =>
      rw [hnext] at h
      obtain rfl := ok.inj h
      rw [if_pos (by tauto), TaskState.move, TaskState.detail]
      split_ifs <;> rfl

theorem Numbered.append (hnumbered : Numbered db) (hdb : db.Sound n) (hformed : e.Formed)
    (hevents : db'.events = db.events ++ [e]) (hexists : e.aggregateType = "task" → ∀ s,
    db'.stateOf e.aggregateId = .ok s → s.exists' = true) : Numbered db' := by
  intro t s' hs'
  obtain ⟨s, hs⟩ := hdb.state t
  have htask := taskId_of_stateOf hs
  have happly := hs'
  rw [stateOf_append hevents, hs] at happly
  have hseq := lastAggregateSeq_of_applied happly hformed fun hkind hid ↦
    hexists hkind s' (by rwa [hid, htask])
  have hstream : db'.stream "task" t = db.stream "task" t ++
      if e.aggregateType = "task" ∧ e.aggregateId = t then [e] else [] := by
    rw [TaskTables.stream, hevents, filter_append, TaskTables.stream, filter_singleton]
    simp
  rw [hseq, hstream, htask]
  split_ifs with hown
  · simp [Tasks.nextSeq]
  · rw [append_nil]
    exact hnumbered t s hs

theorem Numbered.congr (h : Numbered db) (hevents : db'.events = db.events) : Numbered db' := by
  intro t s hs
  rw [TaskTables.stateOf, hevents] at hs
  rw [TaskTables.stream, hevents]
  exact h t s hs

theorem Numbered.step (h : Numbered db) (hdb : db.Sound n) {time : Time}
    (hstep : Step db n t s e s' time db' n') : Numbered db' := by
  refine h.append hdb hstep.formed hstep.events fun hkind r hr ↦ ?_
  obtain rfl := Formed.concerns_unique hstep.formed (.inl ⟨hkind, rfl⟩) hstep.concerns
  rw [hstep.stateOf] at hr
  obtain rfl := ok.inj hr
  exact hstep.exists'

theorem Performed.numbered {call : Call} (hdb : db.Sound n) (h : Numbered db)
    (hperformed : Performed cfg inp db n call db' n') : Numbered db' := by
  refine hperformed.preserves ?_ ?_ ?_ ?_ hdb h
  · exact fun _ _ hevents _ hI ↦ hI.congr hevents
  · exact fun hdb hI hstep _ ↦ hI.step hdb hstep
  · exact fun hdb hI hjoin _ ↦ hI.step hdb hjoin.step
  · intro mid db' n' e hmid hI _ hnote _
    refine hI.append hmid hnote.formed (by rw [hnote.eq]; rfl) fun hkind ↦ ?_
    exact absurd hkind hnote.kind

theorem keeps_named : (taskDatabase cfg).Keeps (fun _ ↦ True) Named :=
  keeps_events fun _ _ _ _ _ hnamed ↦ hnamed

theorem numbered_of_history {m : ℕ}
    (h : (taskDatabase cfg).History (body cfg) (fun _ _ _ _ ↦ True) {} m db n) :
    db.Sound n ∧ Numbered db ∧ Named db := by
  have hempty : Numbered {} := fun t s hs ↦ by
    obtain rfl := ok.inj hs
    rfl
  obtain ⟨hdb, -, hnumbered⟩ := history_invariant (I := Numbered) hempty
    (fun _ _ _ _ _ _ hdb _ hI _ hperformed ↦ hperformed.numbered hdb hI) h
  refine ⟨hdb, hnumbered, keeps_named.history (fun _ _ _ _ _ ↦ .all) ?_ h⟩
  exact fun e he ↦ absurd he not_mem_nil

/-! ## What the functions find -/

theorem wp_read {o : Tasks.Op} {r : Res o} (ho : execStatement cfg (inp n) n db o = read r)
    {Q : Except CommandError (Res o) → TaskTables → ℕ → Prop} (h : Q (.ok r) db (n + 1)) :
    (taskDatabase cfg).wp inp (ask o) Q db n := by
  refine wp_issue.2 ?_
  change Q (.ok (execStatement cfg (inp n) n db o).result)
    ((taskDatabase cfg).view db (execStatement cfg (inp n) n db o).writes) (n + 1)
  rw [ho]
  exact h

theorem wp_orRaise {α : Type} {x : Except CommandError α}
    {Q : Except CommandError α → TaskTables → ℕ → Prop} (h : Q x db n) :
    (taskDatabase cfg).wp inp (orRaise x) Q db n := by
  cases x with
  | error => exact wp_raise.2 h
  | ok => exact wp_ret.2 h

theorem wp_external {Q : Except CommandError Unit → TaskTables → ℕ → Prop}
    (hrefused : ∀ e, (inp n).refusal = some e → Q (.error e) db (n + 1))
    (hdone : (inp n).refusal = none → Q (.ok ()) db (n + 1)) :
    (taskDatabase cfg).wp inp (external name) Q db n := by
  refine wp_do (wp_read rfl ?_)
  cases hrefusal : (inp n).refusal with
  | some e => exact wp_raise.2 (hrefused e hrefusal)
  | none => exact wp_ret.2 (hdone hrefusal)

theorem wp_collectResults {vids : List String}
    {Q : Except CommandError (List (List Tasks.Event)) → TaskTables → ℕ → Prop}
    (h : Q (.ok (vids.map fun vid ↦
      (db.stream "verification_run" vid).filter (·.taskId = some t))) db (n + vids.length)) :
    (taskDatabase cfg).wp inp (Prog.collect vids fun vid ↦ do
      return (← ask (.stream "verification_run" vid)).filter (·.taskId = some t)) Q db n := by
  induction vids generalizing n Q with
  | nil => exact wp_ret.2 h
  | cons _ _ ih =>
    refine wp_bind.2 (wp_do (wp_read rfl (wp_ret.2 (wp_bind.2 (ih ?_)))))
    refine wp_ret.2 ?_
    rwa [length_cons, ← Nat.add_assoc, Nat.add_right_comm] at h

/-- The number of statements that `load_task` issues. -/
def lookups (db : TaskTables) (t : String) : ℕ := 1 + (startedIn (db.stream "task" t)).length

theorem wp_loadTask (hdb : db.Ordered n) (hs : db.stateOf t = .ok s)
    (hborn : db.stream "task" t ≠ []) {Q : Except CommandError TaskState → TaskTables → ℕ → Prop}
    (h : Q (.ok s) db (n + lookups db t)) : (taskDatabase cfg).wp inp (loadTask t) Q db n := by
  refine wp_do (wp_read rfl ?_)
  dsimp only
  rw [if_neg (by simpa using hborn)]
  refine wp_do (wp_collectResults (wp_orRaise ?_))
  change Q ((fold t (db.merged t)).mapError conflict) db _
  rw [fold_merged hdb, hs]
  rwa [lookups, ← Nat.add_assoc] at h

/-- The Event was recorded under the key of the command. -/
def Answers (ctx : Context) (scope : String) (e : Tasks.Event) : Prop :=
  e.actorAccountId = ctx.accountUuid ∧ e.idempotencyScope = scope ∧
    e.idempotencyKey = ctx.idempotencyKey

/-- The transition is one, nothing was recorded under its key, and the store accepts its Event. -/
structure Taken (inp : ℕ → TaskInput) (n : ℕ) (db : TaskTables) (ctx : Context) (scope : String)
    (s : TaskState) (etype : EventType) : Prop where
  legal : (transitions s.status etype).isSome = true
  fresh : ∀ e ∈ db.events, ¬Answers ctx scope e
  accepted : (inp (n + 1)).appendError = none

theorem keeps_recorded {events : List Tasks.Event} :
    (taskDatabase cfg).Keeps Silent fun db ↦ db.events = events := by
  intro inp n db o ho hdb
  rcases events_exec cfg inp n db o with hsame | ⟨r, seq, rfl, -⟩
  · exact hsame.trans hdb
  · exact ho.elim

theorem silent_after (s : TaskState) (e : Tasks.Event) (status : TaskStatus) : (do
      let state ← orRaise ((applyEvent s e).mapError conflict)
      let state := { state with status := status }
      if status ∈ TaskStatus.terminal then terminalHook state.taskId
      writeState state e.occurredAt
      return (⟨e, state, false⟩ : Answer) : Body Answer).Only Silent := by
  refine (silent_orRaise _).bind fun s' ↦ Only.ite ((silent_terminalHook _).bind fun _ ↦ ?_) ?_
  · exact (silent_writeState _ _).bind fun _ ↦ .ret
  · exact (silent_writeState _ _).bind fun _ ↦ .ret

theorem wp_replayFromStream {Q : Except CommandError (Option Tasks.Event) → TaskTables → ℕ → Prop}
    (hsome : ∀ e ∈ db.events, Answers ctx scope e → Q (.ok (some e)) db (n + 1))
    (hnone : Q (.ok none) db (n + 1)) :
    (taskDatabase cfg).wp inp (replayFromStream ctx t scope) Q db n := by
  refine wp_do (wp_read rfl (wp_ret.2 ?_))
  cases hfind : (db.stream "task" t).find? fun e ↦ e.idempotencyScope = scope &&
      e.idempotencyKey = ctx.idempotencyKey && e.actorAccountId = ctx.accountUuid with
  | none => exact hnone
  | some e =>
    have hmatch := List.find?_some hfind
    simp only [Bool.and_eq_true, decide_eq_true_eq] at hmatch
    refine hsome e ?_ ⟨hmatch.2, hmatch.1.1, hmatch.1.2⟩
    exact mem_of_mem_filter (mem_of_find?_eq_some hfind)

/-- The store appends the Event that is asked for. -/
structure Accepts (inp : ℕ → TaskInput) (n : ℕ) (db : TaskTables) (r : Tasks.AppendRequest) :
    Prop where
  fresh : ∀ e ∈ db.events, e.sameKey r = false
  next : r.expectedSeq = Tasks.nextSeq (db.stream r.aggregateType r.aggregateId)
  named : (idPrefix r.aggregateType).toList.isPrefixOf r.aggregateId.toList = true
  willing : (inp n).appendError = none

theorem wp_append {r : Tasks.AppendRequest}
    {Q : Except CommandError Tasks.AppendResult → TaskTables → ℕ → Prop}
    (hrefused : ¬Accepts inp n db r → ∀ e, Q (.error e) db (n + 1))
    (hreplayed : ¬Accepts inp n db r → ∀ prior, Q (.ok ⟨prior, true⟩) db (n + 1))
    (hnew : Accepts inp n db r → ∀ e, e.Records n (inp n).now r →
      Q (.ok ⟨e, false⟩) (db.apply (.insertEvent e)) (n + 1)) :
    (taskDatabase cfg).wp inp (Tasks.append r) Q db n := by
  refine wp_do (wp_issue.2 (wp_orRaise ?_))
  change Q (execAppend cfg.workspaceId (inp n) n db r).result
    ((taskDatabase cfg).view db (execAppend cfg.workspaceId (inp n) n db r).writes) (n + 1)
  rw [execAppend]
  cases hfind : db.events.find? (·.sameKey r) with
  | some prior =>
    have hstale : ¬Accepts inp n db r := fun h ↦ by
      have hsame := h.fresh prior (mem_of_find?_eq_some hfind)
      rw [List.find?_some hfind] at hsame
      cases hsame
    dsimp only
    split_ifs
    · exact hreplayed hstale prior
    · exact hrefused hstale _
  | none =>
    dsimp only
    split_ifs with hnext hnamed
    · exact hrefused (fun h ↦ hnext h.next) _
    · exact hrefused (fun h ↦ by simp [h.named] at hnamed) _
    · cases herror : (inp n).appendError with
      | some e =>
        refine hrefused (fun h ↦ ?_) e
        rw [h.willing] at herror
        cases herror
      | none =>
        refine hnew ⟨fun e he ↦ ?_, not_not.1 hnext, by simpa using hnamed, herror⟩ _ ?_
        · simpa using List.find?_eq_none.1 hfind e he
        · exact ⟨rfl, rfl, rfl, rfl, rfl, (not_not.1 hnext).symm, rfl, rfl, rfl, rfl, rfl⟩

theorem Taken.accepts (hnumbered : Numbered db) (hnamed : Named db) (hs : db.stateOf t = .ok s)
    (hborn : db.stream "task" t ≠ []) (h : Taken inp n db ctx scope s etype) :
    Accepts inp (n + 1) db (taskRequest ctx scope s etype payload) := by
  have htask := taskId_of_stateOf hs
  have hseq := hnumbered t s hs
  obtain ⟨e, he⟩ := exists_mem_of_ne_nil _ hborn
  simp only [TaskTables.stream, mem_filter, decide_eq_true_eq] at he
  refine ⟨fun e he ↦ ?_, ?_, ?_, h.accepted⟩
  · by_contra hkey
    simp only [Event.sameKey, Bool.not_eq_false, Bool.and_eq_true, decide_eq_true_eq] at hkey
    exact h.fresh e he ⟨hkey.1.1, hkey.1.2, hkey.2⟩
  · change s.lastAggregateSeq + 1 = Tasks.nextSeq (db.stream "task" s.taskId)
    rw [htask, hseq]
  · have hname := hnamed e he.1
    rw [he.2.1, he.2.2] at hname
    change (idPrefix "task").toList.isPrefixOf s.taskId.toList = true
    rw [htask]
    exact hname

/-- **A transition is recorded just when it is taken.** -/
theorem wp_transition (hnumbered : Numbered db) (hnamed : Named db) (hs : db.stateOf t = .ok s)
    (hexists : s.exists' = true) (hborn : db.stream "task" t ≠ []) (hmoves : etype.Moves) :
    (taskDatabase cfg).wp inp (transition ctx scope s etype payload) (fun _ db' _ ↦
      (Taken inp n db ctx scope s etype → ∃ target e, transitions s.status etype = some target ∧
        applyEvent s e = .ok (s.move e target) ∧ db'.events = db.events ++ [e]) ∧
      (¬Taken inp n db ctx scope s etype → db'.events = db.events)) db n := by
  refine wp_do (wp_replayFromStream (fun e he hanswers ↦ ?_) ?_)
  · exact wp_ret.2 ⟨fun htaken ↦ absurd hanswers (htaken.fresh e he), fun _ ↦ rfl⟩
  refine wp_do (wp_orRaise ?_)
  cases hnext : Tasks.nextStatus s.status etype with
  | error =>
    refine ⟨fun htaken ↦ ?_, fun _ ↦ rfl⟩
    obtain ⟨target, hlegal⟩ := Option.isSome_iff_exists.1 htaken.legal
    rw [Tasks.nextStatus_eq_ok.2 hlegal] at hnext
    cases hnext
  | ok status =>
    have hlegal := Tasks.nextStatus_eq_ok.1 hnext
    refine wp_do (wp_append (fun hrefused _ ↦ ?_) (fun hrefused prior ↦ ?_)
      fun haccepts e hrec ↦ ?_)
    · exact ⟨fun htaken ↦ absurd (htaken.accepts hnumbered hnamed hs hborn) hrefused, fun _ ↦ rfl⟩
    · exact wp_ret.2
        ⟨fun htaken ↦ absurd (htaken.accepts hnumbered hnamed hs hborn) hrefused, fun _ ↦ rfl⟩
    · have htaken : Taken inp n db ctx scope s etype := by
        refine ⟨by rw [hlegal]; rfl, fun e he hanswers ↦ ?_, haccepts.willing⟩
        have hfresh := haccepts.fresh e he
        have hkey : e.sameKey (taskRequest ctx scope s etype payload) = true := by
          simp [Event.sameKey, taskRequest, hanswers.1, hanswers.2.1, hanswers.2.2]
        rw [hkey] at hfresh
        cases hfresh
      have happly : applyEvent s e = .ok (s.move e status) :=
        applyEvent_move hexists (by rw [hrec.type]; exact hmoves) hrec.aggregateType
          hrec.aggregateId (by rw [hrec.type]; exact hlegal)
      refine (keeps_recorded.wp (silent_after s e status) rfl).mono fun _ db' _ hevents ↦ ?_
      exact ⟨fun _ ↦ ⟨status, e, hlegal, happly, hevents⟩, fun h ↦ absurd htaken h⟩

/-! ## The Task that is cancelled -/

/-- The Task has stopped, or was asked to. -/
def Stopped (db : TaskTables) (t : String) : Prop :=
  ∃ s, db.stateOf t = .ok s ∧ s.status ∈ [TaskStatus.cancelled, .cancelRequested]

/-- The command `CancelTask` is carried out: the authorizer permits it, and it is taken. -/
structure Obeyed (inp : ℕ → TaskInput) (n : ℕ) (db : TaskTables) (ctx : Context) (t : String)
    (s : TaskState) : Prop where
  permitted : (inp (n + lookups db t)).refusal = none
  taken : Taken inp (n + lookups db t + 1) db ctx "task:cancel" s .taskCancelled

theorem Obeyed.congr (h : Obeyed inp n db ctx t s) (hevents : db'.events = db.events) :
    Obeyed inp n db' ctx t s := by
  have hlookups : lookups db' t = lookups db t := by
    rw [lookups, TaskTables.stream, hevents]
    rfl
  refine ⟨by rw [hlookups]; exact h.permitted, ?_⟩
  rw [hlookups]
  exact ⟨h.taken.legal, hevents ▸ h.taken.fresh, h.taken.accepted⟩

theorem cancelled_of_transitions {current target : TaskStatus}
    (h : transitions current .taskCancelled = some target) : target = .cancelled := by
  revert h
  cases current <;> simp +contextual [transitions, eq_comm]

theorem stopped_of_events (hs : db.stateOf t = .ok s) (hopen : s.status ∉ TaskStatus.terminal)
    (hevents : db'.events = db.events) : Stopped db' t ↔ s.status = .cancelRequested := by
  have hs' : db'.stateOf t = .ok s := by
    rw [TaskTables.stateOf, hevents]
    exact hs
  constructor
  · rintro ⟨r, hr, hstatus⟩
    obtain rfl := ok.inj (hr.symm.trans hs')
    revert hstatus hopen
    cases r.status <;> decide
  · exact fun hrequested ↦ ⟨s, hs', by simp [hrequested]⟩

theorem wp_cancelTask (hdb : db.Sound n) (hnumbered : Numbered db) (hnamed : Named db)
    (hs : db.stateOf t = .ok s) (hborn : db.stream "task" t ≠ [])
    (hopen : s.status ∉ TaskStatus.terminal) {reason : String} :
    (taskDatabase cfg).wp inp (cancelTask ctx t reason) (fun _ db' _ ↦
      (Stopped db' t ↔ s.status = .cancelRequested ∨ Obeyed inp n db ctx t s)) db n := by
  have hexists : s.exists' = true := (hdb.exists_iff hs).2 hborn
  refine wp_do (wp_loadTask hdb.ordered hs hborn (wp_do (wp_external (fun e hrefused ↦ ?_)
    fun hpermitted ↦ ?_)))
  · rw [stopped_of_events hs hopen rfl]
    refine ⟨.inl, ?_⟩
    rintro (hrequested | hobeyed)
    · exact hrequested
    · rw [hobeyed.permitted] at hrefused
      cases hrefused
  · have hmoves : EventType.taskCancelled.Moves := ⟨by decide, by decide, by decide⟩
    refine (wp_transition hnumbered hnamed hs hexists hborn hmoves).mono ?_
    rintro - db' - ⟨hrecorded, hsame⟩
    by_cases htaken : Taken inp (n + lookups db t + 1) db ctx "task:cancel" s .taskCancelled
    · obtain ⟨target, e, hlegal, happly, hevents⟩ := hrecorded htaken
      refine ⟨fun _ ↦ .inr ⟨hpermitted, htaken⟩, fun _ ↦ ⟨s.move e target, ?_, ?_⟩⟩
      · rw [stateOf_append hevents, hs]
        exact happly
      · rw [status_move, cancelled_of_transitions hlegal]
        exact mem_cons_self
    · rw [stopped_of_events hs hopen (hsame htaken)]
      exact ⟨.inl, fun h ↦ h.resolve_right fun hobeyed ↦ htaken hobeyed.taken⟩

/-! ## The request -/

/-- `request_cancel` of a Run. What `CancelTask` raises is logged. -/
def requestRunCancel (ctx : Context) (run : ScheduleRun) : Body ScheduleRun := do
  let target ← orRaise ((cancelRun run.status).mapError fun e ↦ ⟨e.code, e.detail, 409⟩)
  if target = .cancelled then
    let cancelled ← setScheduleRun run .cancelled
    external "append_run_event RUN_CANCELLED"
    external "release_for_run"
    return cancelled
  else
    let requested ← setScheduleRun run .cancelRequested
    external "append_run_event RUN_CANCEL_REQUESTED"
    match orElse run.taskId none with
    | none => return requested
    | some taskId =>
      let _ ← Prog.tryCatch
        (do
          let _ ← cancelTask { ctx with idempotencyKey := run.runId ++ ":cancel" } taskId
            "SCHEDULE_RUN_CANCELLED")
        fun _ ↦ pure ()
      return requested

/-- The request to cancel the Run raises. -/
def Refused (inp : ℕ → TaskInput) (n : ℕ) (run : ScheduleRun) : Prop :=
  run.status ∉ RunStatus.pendingStatuses ∧ run.status ∉ RunStatus.runningStatuses ∨
    (inp (n + 1)).refusal ≠ none ∨
    run.status ∈ RunStatus.pendingStatuses ∧ (inp (n + 2)).refusal ≠ none

/-- The request is refused, or the Task of the Run has stopped. -/
def StopsTask (t : String) (out : Except CommandError ScheduleRun × TaskTables × ℕ) : Prop :=
  ∀ run, out.1 = .ok run → Stopped out.2.1 t

theorem wp_setScheduleRun {run : ScheduleRun} {target : RunStatus}
    (hedge : target ∈ run.status.transitions)
    {Q : Except CommandError ScheduleRun → TaskTables → ℕ → Prop}
    (h : Q (.ok { run with status := target }) (db.apply (.setScheduleRunStatus run.runId target))
      (n + 1)) : (taskDatabase cfg).wp inp (setScheduleRun run target) Q db n := by
  have hlegal : runTransition run.status target = .ok target := by
    rw [runTransition, if_neg fun hterm ↦ ?_, if_pos hedge]
    rw [RunStatus.transitions_eq_nil.2 hterm] at hedge
    cases hedge
  rw [setScheduleRun, hlegal]
  exact wp_do (wp_issue.2 (wp_ret.2 h))

/-- The request is refused, the Task was asked to cancel already, or the Run is running and its
Task obeys. -/
def Heeded (inp : ℕ → TaskInput) (n : ℕ) (db : TaskTables) (ctx : Context) (run : ScheduleRun)
    (t : String) (s : TaskState) : Prop :=
  Refused inp n run ∨ s.status = .cancelRequested ∨ run.status ∈ RunStatus.runningStatuses ∧
      Obeyed inp (n + 2) db { ctx with idempotencyKey := run.runId ++ ":cancel" } t s

theorem wp_reported {run : ScheduleRun} {p : Body ScheduleRun} {k : ℕ}
    (hrefused : (inp n).refusal ≠ none → Refused inp k run) (hdone : (inp n).refusal = none →
    (taskDatabase cfg).wp inp p (fun x db' n' ↦ StopsTask t (x, db', n') ↔ Heeded inp k db ctx run
    t s) db' (n + 1)) : (taskDatabase cfg).wp inp (external name >>= fun _ ↦ p) (fun x db' n' ↦
      StopsTask t (x, db', n') ↔ Heeded inp k db ctx run t s) db' n := by
  refine wp_do (wp_external (fun e he ↦ ⟨fun _ ↦ .inl (hrefused ?_), ?_⟩) hdone)
  · rw [he]
    exact nofun
  · intro _ run' hrun'
    cases hrun'

theorem cancelRun_cases (status : RunStatus) : (status ∈ RunStatus.pendingStatuses ∧
      status ∉ RunStatus.runningStatuses ∧ RunStatus.cancelled ∈ status.transitions ∧
      cancelRun status = .ok .cancelled) ∨
    (status ∉ RunStatus.pendingStatuses ∧ status ∈ RunStatus.runningStatuses ∧
      RunStatus.cancelRequested ∈ status.transitions ∧ cancelRun status = .ok .cancelRequested) ∨
    status ∉ RunStatus.pendingStatuses ∧ status ∉ RunStatus.runningStatuses ∧
      ∃ e, cancelRun status = .error e := by
  cases status <;> simp [cancelRun, RunStatus.pendingStatuses,
    RunStatus.runningStatuses, RunStatus.terminal, RunStatus.transitions]

/-- **When cancelling a Run cancels its Task.** From every state that is reached, a request to
cancel a Run of a Task that has not ended is refused, or leaves the Task cancelled or asked to
cancel, just when it is heeded. -/
theorem request_cancel_stops_iff {m : ℕ}
    (h : (taskDatabase cfg).History (body cfg) (fun _ _ _ _ ↦ True) {} m db n)
    {run : ScheduleRun} (htask : run.taskId = some t) (hs : db.stateOf t = .ok s)
    (hborn : db.stream "task" t ≠ []) (hopen : s.status ∉ TaskStatus.terminal) :
    StopsTask t ((taskDatabase cfg).serial inp n db (requestRunCancel ctx run)) ↔
      Heeded inp n db ctx run t s := by
  obtain ⟨hdb, hnumbered, hnamed⟩ := numbered_of_history h
  suffices hwp : (taskDatabase cfg).wp inp (requestRunCancel ctx run) (fun x db' k ↦
      StopsTask t (x, db', k) ↔ Heeded inp n db ctx run t s) db n by
    rwa [wp] at hwp
  have hname : orElse run.taskId none = some t := by
    obtain ⟨e, he⟩ := exists_mem_of_ne_nil _ hborn
    simp only [TaskTables.stream, mem_filter, decide_eq_true_eq] at he
    have hne : t ≠ "" := he.2.2 ▸ (hdb.ordered.formed e he.1).named
    rw [htask, orElse.eq_def]
    split <;> simp_all
  refine wp_do (wp_orRaise ?_)
  rcases cancelRun_cases run.status with ⟨hpending, hrunning, hedge, hcancel⟩ |
    ⟨hpending, hrunning, hedge, hcancel⟩ | ⟨hpending, hrunning, e, hcancel⟩ <;> rw [hcancel]
  · refine wp_do (wp_setScheduleRun hedge ?_)
    refine wp_reported (fun hrefused ↦ .inr (.inl hrefused)) fun hevent ↦ ?_
    refine wp_reported (fun hrefused ↦ .inr (.inr ⟨hpending, hrefused⟩)) fun hrelease ↦
      wp_ret.2 ?_
    have hsame : Stopped (db.apply (.setScheduleRunStatus run.runId .cancelled)) t ↔
        s.status = .cancelRequested := stopped_of_events hs hopen rfl
    have hgranted : ¬Refused inp n run := by
      rw [Refused]
      tauto
    simp [StopsTask, Heeded, hsame, hgranted, hrunning]
  · refine wp_do (wp_setScheduleRun hedge ?_)
    refine wp_reported (fun hrefused ↦ .inr (.inl hrefused)) fun hevent ↦ ?_
    dsimp only
    rw [hname]
    have hgranted : ¬Refused inp n run := by
      rw [Refused]
      tauto
    -- whatever the command does, the request returns
    have hreturns : ∀ run' db' k, (Stopped db' t ↔ s.status = .cancelRequested ∨
        Obeyed inp (n + 2) db { ctx with idempotencyKey := run.runId ++ ":cancel" } t s) →
        (StopsTask t (.ok run', db', k) ↔ Heeded inp n db ctx run t s) := by
      intro run' db' k hstopped
      simp [StopsTask, Heeded, hstopped, hgranted, hrunning]
    refine wp_do (wp_tryCatch.2 (wp_do ?_))
    have hmid : (db.apply (.setScheduleRunStatus run.runId .cancelRequested)).Sound (n + 2) :=
      (hdb.mono (by omega)).congr rfl
    refine (wp_cancelTask hmid (hnumbered.congr rfl) hnamed hs hborn hopen).mono ?_
    have hobeyed : Obeyed inp (n + 2) (db.apply (.setScheduleRunStatus run.runId .cancelRequested))
        { ctx with idempotencyKey := run.runId ++ ":cancel" } t s ↔
        Obeyed inp (n + 2) db { ctx with idempotencyKey := run.runId ++ ":cancel" } t s :=
      ⟨fun h ↦ h.congr rfl, fun h ↦ h.congr rfl⟩
    rintro (e | answer) db' k hstopped
    · exact wp_ret.2 (wp_ret.2 (hreturns _ db' k (hstopped.trans (or_congr_right hobeyed))))
    · exact wp_ret.2 (wp_ret.2 (hreturns _ db' k (hstopped.trans (or_congr_right hobeyed))))
  · exact ⟨fun _ ↦ .inl (.inl ⟨hpending, hrunning⟩), fun _ run' hrun' ↦ (by cases hrun')⟩

namespace Sample

/-- The Task is at work, and so is the Run that waits for it. -/
def working : List Call := [task, .schedule [⟨"run-1", some "task-1", .running⟩],
  .task (caller "delegate") (.delegate "task-1" "agent-1" "fits"),
  .task (verifier "accept") (.accept "task-1"), .task (verifier "begin") (.start "task-1")]

def workingRun : ScheduleRun := ⟨"run-1", some "task-1", .running⟩

def requested : Except CommandError ScheduleRun × TaskTables × ℕ :=
  (taskDatabase config).serial ticking (after working).2 (after working).1
    (requestRunCancel (caller "") workingRun)

theorem requested_run : requested.1 = .ok { workingRun with status := .cancelRequested } := by
  have hrun : requested.1.toOption = some { workingRun with status := .cancelRequested } := by
    decide
  cases hout : requested.1 with
  | error =>
    rw [hout] at hrun
    cases hrun
  | ok =>
    rw [hout] at hrun
    rw [Option.some.inj hrun]

theorem born_working : (after working).1.stream "task" "task-1" ≠ [] := by decide

end Sample

open Sample

theorem request_cancel_stops_iff_working : ∃ s, s.status = .running ∧
    (StopsTask "task-1" requested ↔ Heeded ticking (after working).2 (after working).1 (caller "")
      workingRun "task-1" s) := by
  obtain ⟨s, hs, hrunning⟩ := stateOf_of_statusIn
    (show statusIn (after working).1 = some .running by decide)
  exact ⟨s, hrunning, request_cancel_stops_iff (after_history working
    fun _ _ _ _ ↦ trivial) rfl hs born_working (by rw [hrunning]; decide)⟩

/-- A Run that is asked to cancel while its Task carries on. -/
theorem cancelled_run_leaves_task : ¬∀ (cfg : Config) (m n : ℕ) (db : TaskTables) (ctx : Context)
    (run : ScheduleRun) (t : String) (s : TaskState) (inp : ℕ → TaskInput),
    (taskDatabase cfg).History (body cfg) (fun _ _ _ _ ↦ True) {} m db n →
    run ∈ db.scheduleRuns → run.taskId = some t → db.stateOf t = .ok s →
    db.stream "task" t ≠ [] → s.status ∉ TaskStatus.terminal →
      StopsTask t ((taskDatabase cfg).serial inp n db (requestRunCancel ctx run)) := by
  intro h
  obtain ⟨s, hs, hrunning⟩ := stateOf_of_statusIn
    (show statusIn (after working).1 = some .running by decide)
  have hstops := h config _ _ _ (caller "") workingRun "task-1" s
    ticking (after_history working fun _ _ _ _ ↦ trivial) (by decide) rfl hs
    born_working (by rw [hrunning]; decide)
  obtain ⟨r, hr, hstopped⟩ := hstops _ requested_run
  obtain ⟨r', hr', hstill⟩ := stateOf_of_statusIn
    (show statusIn requested.2.1 = some .running by decide)
  obtain rfl := ok.inj (hr.symm.trans hr')
  rw [hstill] at hstopped
  exact absurd hstopped (by decide)

end AgentColab.Verification
