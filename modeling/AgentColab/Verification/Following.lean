import AgentColab.Tasks.Status
import AgentColab.Verification.Performed

/-!
# A Run follows its Task

When a Task ends, the hook closes the Runs of the Schedules that wait for it. It reads the status
from the row, which still says what the Task was before: a cancelled Task closes no Run, and a
completed one only because the hook knows `VERIFIED`. A Run whose cancellation was requested is
passed over.
-/

namespace AgentColab.Verification

open AgentColab Transaction Database Tasks List
open AgentColab.Tasks.TaskStatus (terminal)
open Except (ok toOption)

variable {cfg : Config} {inp : ℕ → TaskInput} {db db' : TaskTables} {n n' : ℕ} {call : Call}

/-! ## How a Task ends -/

theorem Performed.rowsFollow (hdb : db.Sound n) (hrows : RowsFollow db)
    (h : Performed cfg inp db n call db' n') : RowsFollow db' := by
  refine h.preserves ?_ ?_ ?_ ?_ hdb hrows
  · intro mid db' hevents hrows' hI t row s hrow hs
    rw [hrows'] at hrow
    rw [TaskTables.stateOf, hevents] at hs
    exact hI t row s hrow hs
  · exact fun hdb hI hstep _ ↦ rowsFollow_step hdb hI hstep
  · exact fun hdb hI hjoin _ ↦ rowsFollow_step hdb hI hjoin.step
  · exact fun hdb hI _ hnote _ ↦ rowsFollow_noted hdb hI hnote

/-- The command makes this transition of the Task. -/
def Transits (call : Call) (t : String) (etype : EventType) : Prop :=
  ∃ ctx, (∃ c, call = .task ctx c ∧ taskMove c = some (t, etype)) ∨
    ∃ document, call = .task ctx (.complete t document) ∧ etype = .taskCompleted

variable {t : String} {s s' : TaskState} {status : TaskStatus} {through : List ScheduleRun}
    {run : ScheduleRun}

theorem Performed.ended (hdb : db.Sound n) (h : Performed cfg inp db n call db' n')
    (hs : db.stateOf t = .ok s) (hs' : db'.stateOf t = .ok s')
    (hbefore : s.status ∉ terminal) (hafter : s'.status ∈ terminal) :
    ∃ etype e s₁ db₁ n₁, Moved db n t etype s e s₁ db₁ n₁ ∧ s₁.status = s'.status ∧
      db'.scheduleRuns = db₁.scheduleRuns ∧ Transits call t etype := by
  have hsame : s'.status ≠ s.status := fun heq ↦ hbefore (heq ▸ hafter)
  have hheard : ∀ x ∈ heard, x ∉ terminal := by decide
  have hresult : ∀ {mid : TaskTables} {k : ℕ} {u vid : String} {result : Verdict}
      {s₀ s₁ r : TaskState} {e : Tasks.Event}, Resulted db n u vid result s₀ e s₁ mid k →
      mid.stateOf t = .ok r → r.status ∉ terminal := by
    intro mid k u vid result s₀ s₁ r e hresulted hr
    rcases hresulted.step.status hdb hs hr with heq | ⟨-, rfl, rfl⟩
    · rw [heq]
      exact hbefore
    · have happlied := applied_of_applyEvent hresulted.step.applied
      rcases heard_of_result (hresulted.type ▸ resultType_mem result) happlied with heq | ⟨-, hmem⟩
      · rw [heq]
        exact hbefore
      · exact hheard _ hmem
  have hdelivered : ∀ {mid db' : TaskTables} {k n' : ℕ} {u vid : String} {result : Verdict}
      {s₀ s₁ r : TaskState} {e : Tasks.Event}, Resulted db n u vid result s₀ e s₁ mid k →
      (result = .passed ∧ MayJoin inp mid k s₁ db' n' ∨ result ≠ .passed ∧ db' = mid ∧ n' = k) →
      db'.stateOf t = .ok r → r.status ∉ terminal := by
    intro mid db' k n' u vid result s₀ s₁ r e hresulted hjoin hr
    rcases hjoin with ⟨-, hjoin⟩ | ⟨-, rfl, rfl⟩
    · have hmid := hresulted.step.sound hdb
      obtain ⟨q, hq⟩ := hmid.state t
      rw [hjoin.status hmid hq hr]
      exact hresult hresulted hq
    · exact hresult hresulted hr
  cases h with
  | idle => exact absurd (by rw [ok.inj (hs.symm.trans hs')]) hsame
  | scheduled => exact absurd (by rw [ok.inj (hs.symm.trans hs')]) hsame
  | created _ _ u e _ creation | subtask _ _ u e _ _ creation =>
    rcases creation.step.status hdb hs hs' with heq | ⟨-, -, rfl⟩
    · exact absurd heq hsame
    · rw [creation.created, status_create] at hafter
      exact absurd hafter (by decide)
  | moved ctx call u etype _ e _ target move =>
    rcases move.step.status hdb hs hs' with heq | ⟨rfl, rfl, rfl⟩
    · exact absurd heq hsame
    · exact ⟨etype, e, _, db', n', move, rfl, rfl, ctx, .inl ⟨call, rfl, target⟩⟩
  | completed ctx u document s₀ e s₁ move join =>
    rename_i k mid
    have hmid := move.step.sound hdb
    obtain ⟨q, hq⟩ := hmid.state t
    have heq := join.status hmid hq hs'
    rcases move.step.status hdb hs hq with hkept | ⟨rfl, rfl, rfl⟩
    · exact absurd (heq.trans hkept) hsame
    · exact ⟨_, e, _, mid, k, move, heq.symm, join.scheduleRuns, ctx, .inr ⟨document, rfl, rfl⟩⟩
  | resulted _ u _ _ _ e _ outcome join =>
    exact absurd hafter (hdelivered outcome join hs')
  | criteria _ u _ e note =>
    rcases note.status hdb hs hs' with heq | ⟨-, hmem⟩
    · exact absurd heq hsame
    · exact absurd hafter (hheard _ hmem)
  | runCreated _ _ run e _ _ _ note =>
    have hrun : (db.apply (.insertRun run)).Sound n := hdb.congr rfl
    rcases note.status hrun hs hs' with heq | ⟨-, hmem⟩
    · exact absurd heq hsame
    · exact absurd hafter (hheard _ hmem)
  | runInserted | runMoved =>
    exact absurd (by rw [ok.inj (hs.symm.trans hs')]) hsame
  | runStarted _ vid _ target _ _ entered =>
    have hstatus : (db.apply (.setRunStatus vid target)).Sound n := hdb.congr rfl
    cases entered with
    | noTask => exact absurd (by rw [ok.inj (hs.symm.trans hs')]) hsame
    | notImplemented | replayed =>
      exact absurd (by rw [ok.inj (hs.symm.trans hs')]) hsame
    | moved u _ e _ _ move' =>
      rcases move'.step.status hstatus hs hs' with heq | ⟨-, -, rfl⟩
      · exact absurd heq hsame
      · rcases ends_of_transitions move'.legal hafter with ⟨h, -⟩ | ⟨h, -⟩ <;> cases h
  | verdict _ _ _ _ _ _ _ delivered later =>
    cases delivered with
    | noted e _ note =>
      rcases note.status hdb hs hs' with heq | ⟨-, hmem⟩
      · exact absurd heq hsame
      · exact absurd hafter (hheard _ hmem)
    | replayed =>
      exact absurd (by rw [ok.inj (hs.symm.trans hs')]) hsame
    | resulted u _ e _ _ k _ outcome join =>
      exact absurd hafter (hdelivered outcome join hs')

/-! ## The Runs -/

def openRunStatuses : List Schedules.RunStatus :=
  [.taskCreated, .running, .verifying, .cancelRequested]

/-- How a Run ends when its Task ends with this status (`on_task_terminal`). -/
def closedStatus (task : TaskStatus) (run : Schedules.RunStatus) : Schedules.RunStatus :=
  if run = .cancelRequested then .cancelled else outcomeOf task

/-- **The Runs follow the Task** that ends with this status: those that were open are closed with
the status that matches, and none is open afterwards. -/
structure Follows (db db' : TaskTables) (t : String) (status : TaskStatus) : Prop where
  closed : ∀ run ∈ db.linked t, run.status ∈ openRunStatuses →
    { run with status := closedStatus status run.status } ∈ db'.linked t
  settled : ∀ run ∈ db'.linked t, run.status ∉ openRunStatuses

/-- The Runs of the Task will be closed when it ends: there is nothing to close, or the row says
`VERIFIED` and no cancellation was requested. -/
def Closable (db : TaskTables) (t : String) : Prop :=
  (∀ run ∈ db.linked t, run.status ∉ openRunStatuses) ∨
    (∃ row, db.rows t = some row ∧ row.status = .verified) ∧
      ∀ run ∈ db.linked t, run.status ≠ .cancelRequested

/-- `run_id` is a key. -/
def UniqueRuns (db : TaskTables) : Prop := (db.scheduleRuns.map (·.runId)).Nodup

theorem taskId_closedBy (status : TaskStatus) (through : List ScheduleRun) (run : ScheduleRun) :
    (closedBy status through run).taskId = run.taskId := by
  rw [closedBy]
  split_ifs <;> rfl

theorem runId_closedBy (status : TaskStatus) (through : List ScheduleRun) (run : ScheduleRun) :
    (closedBy status through run).runId = run.runId := by
  rw [closedBy]
  split_ifs <;> rfl

theorem open_of_closedBy (h : (closedBy status through run).status ∈ openRunStatuses) :
    run.status ∈ openRunStatuses := by
  rw [closedBy] at h
  split_ifs at h
  · revert h
    change outcomeOf status ∈ openRunStatuses → _
    rw [outcomeOf]
    split_ifs <;> exact fun h ↦ absurd h (by decide)
  · exact h

theorem linked_closedBy (h : db'.scheduleRuns = db.scheduleRuns.map (closedBy status through))
    (t : String) : db'.linked t = (db.linked t).map (closedBy status through) := by
  rw [TaskTables.linked, h, TaskTables.linked, List.filter_map]
  congr 1
  refine filter_congr fun run _ ↦ ?_
  simp [taskId_closedBy]

theorem closedBy_linked (hunique : UniqueRuns db) (hrun : run ∈ db.linked t) :
    closedBy status (db.linked t) run = if run.status ∈ closableStatuses status then
      { run with status := outcomeOf status } else run := by
  rw [closedBy]
  congr 1
  refine propext ⟨?_, fun h ↦ ⟨run, hrun, rfl, h⟩⟩
  rintro ⟨x, hx, hid, hstatus⟩
  have hmem : ∀ y ∈ db.linked t, y ∈ db.scheduleRuns := fun y hy ↦ mem_of_mem_filter hy
  obtain rfl := inj_on_of_nodup_map hunique (hmem x hx) (hmem run hrun) hid
  exact hstatus

theorem Performed.scheduleRuns (h : Performed cfg inp db n call db' n') :
    db'.scheduleRuns = db.scheduleRuns ∨ call = .schedule db'.scheduleRuns ∨
      ∃ status through, db'.scheduleRuns = db.scheduleRuns.map (closedBy status through) := by
  have hmoved : ∀ {mid db' : TaskTables} {k n' : ℕ} {t : String} {etype : EventType}
      {s s' : TaskState} {e : Tasks.Event}, Moved mid k t etype s e s' db' n' →
      db'.scheduleRuns = mid.scheduleRuns ∨
        ∃ status through, db'.scheduleRuns = mid.scheduleRuns.map (closedBy status through) := by
    intro mid db' k n' t etype s s' e hmove
    by_cases hterm : s'.status ∈ terminal
    · have hhook := hmove.hooked hterm
      generalize db'.scheduleRuns = runs at hhook
      cases hhook with
      | silent => exact .inl rfl
      | closed => exact .inr ⟨_, _, rfl⟩
    · exact .inl (hmove.kept hterm)
  have hresult : ∀ {mid db' : TaskTables} {k n' : ℕ} {u vid : String} {result : Verdict}
      {s₀ s₁ : TaskState} {e : Tasks.Event}, Resulted db n u vid result s₀ e s₁ mid k →
      (result = .passed ∧ MayJoin inp mid k s₁ db' n' ∨ result ≠ .passed ∧ db' = mid ∧ n' = k) →
      db'.scheduleRuns = db.scheduleRuns := by
    intro mid db' k n' u vid result s₀ s₁ e hresulted hjoin
    rcases hjoin with ⟨-, hjoin⟩ | ⟨-, rfl, rfl⟩
    · exact hjoin.scheduleRuns.trans hresulted.kept
    · exact hresulted.kept
  cases h with
  | idle | runInserted | runMoved => exact .inl rfl
  | created _ _ u e _ creation => exact .inl creation.kept
  | subtask _ _ u e _ _ creation => exact .inl creation.kept
  | moved _ _ u _ _ e _ _ move =>
    rcases hmoved move with h | h
    · exact .inl h
    · exact .inr (.inr h)
  | completed _ u _ _ e _ move join =>
    rw [join.scheduleRuns]
    rcases hmoved move with h | h
    · exact .inl h
    · exact .inr (.inr h)
  | resulted _ u _ _ _ e _ outcome join => exact .inl (hresult outcome join)
  | criteria _ u _ e note | runCreated _ _ _ e _ _ _ note =>
    rw [note.eq]
    exact .inl rfl
  | runStarted _ _ _ _ _ _ entered =>
    cases entered with
    | noTask | notImplemented | replayed => exact .inl rfl
    | moved u _ e _ _ move' =>
      rcases hmoved move' with h | h
      · exact .inl h
      · exact .inr (.inr h)
  | verdict ctx vid result run target move by' delivered later =>
    rename_i k mid
    refine .inl ?_
    change mid.scheduleRuns = db.scheduleRuns
    cases delivered with
    | noted e _ note =>
      rw [note.eq]
      rfl
    | replayed => rfl
    | resulted u _ e _ _ k _ outcome join => exact hresult outcome join
  | scheduled => exact .inr (.inl rfl)

/-! ## When the Runs follow -/

/-- **The hook closes the Runs just when it can.** -/
theorem follows_iff_of_moved {mid : TaskTables} {etype : EventType} {e : Tasks.Event}
    (hrows : RowsFollow db) (hunique : UniqueRuns db) (hmove : Moved db n t etype s e s' mid n')
    (hterm : s'.status ∈ terminal) (hruns : db'.scheduleRuns = mid.scheduleRuns) :
    Follows db db' t s'.status ↔ Closable db t := by
  have hhook := hmove.hooked hterm
  rw [← hruns] at hhook
  generalize hall : db'.scheduleRuns = runs at hhook
  cases hhook with
  | silent quiet =>
    have hsame : db'.linked t = db.linked t := by rw [TaskTables.linked, hall, TaskTables.linked]
    constructor
    · intro h
      exact .inl fun run hrun ↦ h.settled run (hsame ▸ hrun)
    · rintro (hnone | ⟨⟨row, hrow, hverified⟩, -⟩)
      · exact ⟨fun run hrun hopen ↦ absurd hopen (hnone run hrun), hsame ▸ hnone⟩
      · exact absurd (by rw [hverified]; decide) (quiet row hrow)
  | closed row found known =>
    -- of the statuses that the hook knows the row can only say `VERIFIED`
    have hverified : row.status = .verified ∧ s'.status = .completed := by
      rcases ends_of_transitions hmove.legal hterm with ⟨-, hs, hs'⟩ | ⟨-, h₁, h₂, h₃, h₄, -⟩
      · rcases hrows t row s found hmove.step.folded with heq | ⟨heq, -⟩
        · exact ⟨heq.trans hs, hs'⟩
        · rw [heq] at known
          exact absurd known (by decide)
      · rcases hrows t row s found hmove.step.folded with heq | ⟨heq, -⟩
        · have hstatus := hmove.legal
          have hlive : s.status ∉ terminal := fun h ↦ by
            rw [transitions_terminal h] at hstatus
            cases hstatus
          rw [heq] at known
          exfalso
          revert known h₁ hlive
          cases s.status <;> decide
        · rw [heq] at known
          exact absurd known (by decide)
    obtain ⟨hrow, hcompleted⟩ := hverified
    have hlinked := linked_closedBy hall t
    rw [hrow] at hlinked
    have hone : ∀ run ∈ db.linked t, closedBy .verified (db.linked t) run =
        if run.status ∈ closableStatuses .verified then
          { run with status := outcomeOf .verified } else run :=
      fun run hrun ↦ closedBy_linked hunique hrun
    constructor
    · intro h
      refine .inr ⟨⟨row, found, hrow⟩, fun run hrun hcancel ↦ ?_⟩
      refine h.settled run ?_ (by rw [hcancel]; decide)
      rw [hlinked]
      refine List.mem_map.2 ⟨run, hrun, ?_⟩
      rw [hone run hrun, hcancel, if_neg (by decide)]
    · intro h
      have hcancel : ∀ run ∈ db.linked t, run.status ≠ .cancelRequested := by
        rcases h with hnone | ⟨-, h⟩
        · intro run hrun heq
          exact hnone run hrun (by rw [heq]; decide)
        · exact h
      refine ⟨fun run hrun hopen ↦ ?_, fun run hrun ↦ ?_⟩
      · rw [hlinked]
        refine List.mem_map.2 ⟨run, hrun, ?_⟩
        rw [hone run hrun, closedStatus, if_neg (hcancel run hrun), hcompleted, if_pos]
        · rfl
        · have hne := hcancel run hrun
          revert hopen hne
          cases run.status <;> decide
      · rw [hlinked] at hrun
        obtain ⟨x, hx, rfl⟩ := List.mem_map.1 hrun
        rw [hone x hx]
        have hne := hcancel x hx
        split_ifs with hclose
        · exact (by decide : outcomeOf .verified ∉ openRunStatuses)
        · revert hclose hne
          cases x.status <;> decide

/-! ## Histories -/

/-- The scheduler respects the key of its table. -/
def KeyedRuns (_ : TaskTables) (_ : ℕ) (call : Call) (_ : ℕ → TaskInput) : Prop :=
  ∀ runs, call = .schedule runs → (runs.map (·.runId)).Nodup

/-- The Task that a command may end. -/
def Ends (db : TaskTables) (call : Call) (t : String) : Prop :=
  ∃ s ctx, db.stateOf t = .ok s ∧
    ((∃ document, call = .task ctx (.complete t document)) ∧ s.status = .verified ∨
      (∃ reason, call = .task ctx (.cancel t reason)) ∧
        transitions s.status .taskCancelled = some .cancelled)

/-- A command ends a Task only when its Runs will be closed, and the scheduler leaves no Run open
whose Task has ended. -/
structure Prudent (db : TaskTables) (n : ℕ) (call : Call) (inp : ℕ → TaskInput) : Prop where
  keyed : KeyedRuns db n call inp
  closable : ∀ t, Ends db call t → Closable db t
  live : ∀ runs, call = .schedule runs → ∀ run ∈ runs, run.status ∈ openRunStatuses →
    ∀ t s, run.taskId = some t → db.stateOf t = .ok s → s.status ∉ terminal

theorem Performed.uniqueRuns (hunique : UniqueRuns db) (hkeyed : KeyedRuns db n call inp)
    (h : Performed cfg inp db n call db' n') : UniqueRuns db' := by
  rcases h.scheduleRuns with hsame | hcall | ⟨status, through, hclosed⟩
  · rw [UniqueRuns, hsame]
    exact hunique
  · exact hkeyed _ hcall
  · rw [UniqueRuns, hclosed, List.map_map]
    refine Eq.mp ?_ hunique
    rw [UniqueRuns]
    congr 1
    exact map_congr_left fun run _ ↦ (runId_closedBy status through run).symm

theorem rows_of_history {m : ℕ} (h : (taskDatabase cfg).History (body cfg) KeyedRuns {} m db n) :
    db.Sound n ∧ Indexed db ∧ RowsFollow db ∧ UniqueRuns db := by
  refine history_invariant (I := fun db ↦ RowsFollow db ∧ UniqueRuns db) ⟨?_, nodup_nil⟩ ?_ h
  · intro t row s hrow
    cases hrow
  · rintro db n call inp db' n' hdb - ⟨hrows, hunique⟩ hkeyed hperformed
    exact ⟨hperformed.rowsFollow hdb hrows, hperformed.uniqueRuns hunique hkeyed⟩

/-- No Run of a Task that has ended is open. -/
def Settled (db : TaskTables) : Prop :=
  ∀ t s, db.stateOf t = .ok s → s.status ∈ terminal →
    ∀ run ∈ db.linked t, run.status ∉ openRunStatuses

theorem Performed.ends (hdb : db.Sound n) (h : Performed cfg inp db n call db' n')
    (hs : db.stateOf t = .ok s) (hs' : db'.stateOf t = .ok s')
    (hbefore : s.status ∉ terminal) (hafter : s'.status ∈ terminal) : Ends db call t := by
  obtain ⟨etype, e, s₁, db₁, n₁, hmove, hstatus, -, ctx, htransits⟩ :=
    h.ended hdb hs hs' hbefore hafter
  have hlegal := hmove.legal
  refine ⟨s, ctx, hs, ?_⟩
  rcases ends_of_transitions hlegal (hstatus ▸ hafter) with ⟨rfl, hverified, -⟩ |
    ⟨rfl, -, -, -, -, hcancelled⟩
  · rcases htransits with ⟨c, rfl, hmoves⟩ | ⟨document, rfl, -⟩
    · cases c <;> simp [taskMove] at hmoves
    · exact .inl ⟨⟨document, rfl⟩, hverified⟩
  · rcases htransits with ⟨c, rfl, hmoves⟩ | ⟨document, -, hne⟩
    · cases c with
      | cancel u reason =>
        obtain rfl : u = t := by simpa [taskMove] using hmoves
        exact .inr ⟨⟨reason, rfl⟩, hcancelled ▸ hlegal⟩
      | _ => simp [taskMove] at hmoves
    · cases hne

theorem Performed.settled (hdb : db.Sound n) (hrows : RowsFollow db) (hunique : UniqueRuns db)
    (hsettled : Settled db) (hprudent : Prudent db n call inp)
    (h : Performed cfg inp db n call db' n') : Settled db' := by
  intro t s' hs' hafter run hrun hopen
  obtain ⟨s, hs⟩ := hdb.state t
  by_cases hbefore : s.status ∈ terminal
  · rcases h.scheduleRuns with hsame | hcall | ⟨status, through, hclosed⟩
    · rw [TaskTables.linked, hsame] at hrun
      exact hsettled t s hs hbefore run hrun hopen
    · simp only [TaskTables.linked, mem_filter, decide_eq_true_eq] at hrun
      exact hprudent.live _ hcall run hrun.1 hopen t s hrun.2 hs hbefore
    · rw [linked_closedBy hclosed] at hrun
      obtain ⟨x, hx, rfl⟩ := List.mem_map.1 hrun
      exact hsettled t s hs hbefore x hx (open_of_closedBy hopen)
  · have hends := h.ends hdb hs hs' hbefore hafter
    obtain ⟨etype, e, s₁, db₁, n₁, hmove, hstatus, hruns, -⟩ := h.ended hdb hs hs' hbefore hafter
    have hterm : s₁.status ∈ terminal := hstatus ▸ hafter
    exact ((follows_iff_of_moved hrows hunique hmove hterm hruns).2
      (hprudent.closable t hends)).settled run hrun hopen

/-- **When a Run follows its Task.** From every state that is reached, a command that ends a Task
closes its Runs just when the row says `VERIFIED` and no cancellation was requested, or there is
nothing to close; and if every command that ends a Task finds it so, no state that is reached has a
Run that is open and a Task that has ended. -/
theorem run_follows_task_iff :
    (∀ {m n n' : ℕ} {db db' : TaskTables} {call : Call} {inp : ℕ → TaskInput} {t : String}
      {s s' : TaskState}, (taskDatabase cfg).History (body cfg) KeyedRuns {} m db n →
      (taskDatabase cfg).serial inp n db (body cfg call) = (.ok (), db', n') →
      db.stateOf t = .ok s → db'.stateOf t = .ok s' → s.status ∉ terminal →
      s'.status ∈ terminal → (Follows db db' t s'.status ↔ Closable db t)) ∧
    ∀ {m n : ℕ} {db : TaskTables}, (taskDatabase cfg).History (body cfg) Prudent {} m db n →
      Settled db := by
  constructor
  · intro m n n' db db' call inp t s s' hhistory hserial hs hs' hbefore hafter
    obtain ⟨hdb, hindexed, hrows, hunique⟩ := rows_of_history hhistory
    have hperformed := (returns_body hdb hindexed call).of_serial hserial
    obtain ⟨etype, e, s₁, db₁, n₁, hmove, hstatus, hruns, -⟩ :=
      hperformed.ended hdb hs hs' hbefore hafter
    rw [← hstatus]
    exact follows_iff_of_moved hrows hunique hmove (hstatus ▸ hafter) hruns
  · intro m n db hhistory
    have hinv := history_invariant (I := fun db ↦ RowsFollow db ∧ UniqueRuns db ∧ Settled db)
      ⟨fun t row s hrow ↦ (by cases hrow), nodup_nil, fun t s hs hterm ↦ ?_⟩ ?_ hhistory
    · exact hinv.2.2.2.2
    · intro run hrun
      cases hrun
    · rintro db n call inp db' n' hdb - ⟨hrows, hunique, hsettled⟩ hprudent hperformed
      exact ⟨hperformed.rowsFollow hdb hrows, hperformed.uniqueRuns hunique hprudent.keyed,
        hperformed.settled hdb hrows hunique hsettled hprudent⟩

namespace Sample

def config : Config := ⟨"ws-1", fun _ ↦ {}, id, id⟩

def caller (key : String) : Context := ⟨"human-1", key, "policy-1"⟩

def environment : ℕ → TaskInput := fun _ ↦ { account := some "agent-1" }

def task : Call := .task (caller "create") (.createTask
  { title := "Report", channelId := "ch-1", domain := "ops", taskId := some "task-1" })

def opened : TaskTables × ℕ :=
  (taskDatabase config).transact environment 0 {} (body config task)

def linked : TaskTables × ℕ :=
  (taskDatabase config).transact environment opened.2 opened.1
    (body config (.schedule [⟨"run-1", some "task-1", .taskCreated⟩]))

def cancel : Call := .task (caller "cancel") (.cancel "task-1" "obsolete")

def cancelled : TaskTables × ℕ :=
  (taskDatabase config).transact environment linked.2 linked.1 (body config cancel)

theorem opened_history : (taskDatabase config).History (body config) Prudent {} 0 opened.1 opened.2 := by
  refine History.step (D := taskDatabase config) _ environment .refl ?_
  refine ⟨fun runs h ↦ (by cases h), fun t h ↦ ?_, fun runs h ↦ (by cases h)⟩
  obtain ⟨s, c, -, ⟨⟨_, h⟩, -⟩ | ⟨⟨_, h⟩, -⟩⟩ := h <;> cases h

theorem linked_history : (taskDatabase config).History (body config) KeyedRuns {} 0 linked.1 linked.2 := by
  have hkeyed : ∀ db n inp, KeyedRuns db n (.schedule [⟨"run-1", some "task-1", .taskCreated⟩]) inp := by
    rintro db n inp runs h
    cases h
    decide
  exact .step _ environment (opened_history.mono fun _ _ _ _ h ↦ h.keyed) (hkeyed _ _ _)

theorem cancel_serial : (taskDatabase config).serial environment linked.2 linked.1 (body config cancel) =
    (.ok (), cancelled.1, cancelled.2) :=
  serial_of_isOk (by decide)

def statusIn (db : TaskTables) : Option TaskStatus :=
  (db.stateOf "task-1").toOption.map (·.status)

theorem stateOf_of_statusIn (h : statusIn db = some status) :
    ∃ s, db.stateOf "task-1" = .ok s ∧ s.status = status := by
  rw [statusIn] at h
  cases hs : db.stateOf "task-1" with
  | error => simp [hs, toOption] at h
  | ok s => exact ⟨s, rfl, by simpa [hs, toOption] using h⟩

def ticking : ℕ → TaskInput := fun n ↦ { account := some "agent-1", now := n * 1000000 }

def verifier (key : String) : Context := ⟨"agent-1", key, "policy-1"⟩

def runId : String := newVerificationId config (verifier "run")

def after (calls : List Call) : TaskTables × ℕ :=
  calls.foldl (fun s call ↦ (taskDatabase config).transact ticking s.2 s.1 (body config call))
    ({}, 0)

theorem after_history {C : TaskTables → ℕ → Call → (ℕ → TaskInput) → Prop} (calls : List Call)
    (hC : ∀ pre call post, calls = pre ++ call :: post →
      C (after pre).1 (after pre).2 call ticking) :
    (taskDatabase config).History (body config) C {} 0 (after calls).1 (after calls).2 := by
  induction calls using List.reverseRecOn with
  | nil => exact .refl
  | append_singleton calls call ih =>
    have hprev := ih fun pre c post h ↦ hC pre c (post ++ [call]) (by rw [h]; simp)
    have hlast := History.step call ticking hprev (hC calls call [] rfl)
    rw [after, foldl_append]
    exact hlast

end Sample

open Sample

/-- The Run of the Task that was cancelled is not closed. -/
theorem run_follows_task_iff_cancelled : (Follows linked.1 Sample.cancelled.1 "task-1" .cancelled ↔
      Closable linked.1 "task-1") ∧ Settled opened.1 := by
  obtain ⟨s, hs, hopen⟩ := stateOf_of_statusIn (show statusIn linked.1 = some .open' by decide)
  obtain ⟨s', hs', hcancelled⟩ := stateOf_of_statusIn
    (show statusIn Sample.cancelled.1 = some .cancelled by decide)
  rw [← hcancelled]
  exact ⟨run_follows_task_iff.1 linked_history cancel_serial hs hs'
    (by rw [hopen]; decide) (by rw [hcancelled]; decide), run_follows_task_iff.2 opened_history⟩

theorem cancelled_run_open :
    ¬∀ (cfg : Config) (m n n' : ℕ) (db db' : TaskTables) (call : Call) (inp : ℕ → TaskInput)
      (t : String) (s s' : TaskState), (taskDatabase cfg).History (body cfg) KeyedRuns {} m db n →
      (taskDatabase cfg).serial inp n db (body cfg call) = (.ok (), db', n') →
      db.stateOf t = .ok s → db'.stateOf t = .ok s' → s.status ∉ terminal →
      s'.status ∈ terminal → Follows db db' t s'.status := by
  intro h
  obtain ⟨s, hs, hopen⟩ := stateOf_of_statusIn (show statusIn linked.1 = some .open' by decide)
  obtain ⟨s', hs', hcancelled⟩ := stateOf_of_statusIn
    (show statusIn Sample.cancelled.1 = some .cancelled by decide)
  have hfollows := h config 0 _ _ _ _ _ _ _ s s' linked_history cancel_serial hs
    hs' (by rw [hopen]; decide) (by rw [hcancelled]; decide)
  refine hfollows.settled ⟨"run-1", some "task-1", .taskCreated⟩ ?_ (by decide)
  decide

end AgentColab.Verification
