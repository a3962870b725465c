import AgentColab.Verification.Performed
import Mathlib.Data.Fintype.EquivFin

/-!
# Bringing a run to its verdict

A run that is not terminal can be brought to `RUNNING`, and a running one to a verdict. If the run
is the active one of a Task in `VERIFYING`, the verdict moves the Task. Here nothing refuses, every
command has a key of its own, and the verdict is `FAILED`, so that no parent is looked at.
-/

namespace AgentColab.Verification

open AgentColab Transaction Database Tasks

variable {cfg : Config} {inp : ℕ → TaskInput} {db db' : TaskTables} {n n' : ℕ}

/-- Nothing in the environment refuses. -/
def Willing (inp : ℕ → TaskInput) : Prop :=
  ∀ k, (inp k).refusal = none ∧ (inp k).appendError = none

/-- No Event was recorded under the key. -/
def Fresh (db : TaskTables) (key : String) : Prop := ∀ e ∈ db.events, e.idempotencyKey ≠ key

theorem exists_fresh (db : TaskTables) : ∃ key, Fresh db key := by
  obtain ⟨key, hkey⟩ := Infinite.exists_notMem_finset (db.events.map (·.idempotencyKey)).toFinset
  refine ⟨key, fun e he heq ↦ hkey ?_⟩
  rw [List.mem_toFinset]
  exact List.mem_map.2 ⟨e, he, heq⟩

/-! ## Statements that succeed -/

theorem succeeds_read {o : Op} {r : Res o} (ho : execStatement cfg (inp n) n db o = read r)
    {Q : Res o → TaskTables → ℕ → Prop} (h : Q r db (n + 1)) :
    (taskDatabase cfg).Succeeds inp (ask o) Q db n := by
  refine succeeds_issue.2 ?_
  change Q (execStatement cfg (inp n) n db o).result
    ((taskDatabase cfg).view db (execStatement cfg (inp n) n db o).writes) (n + 1)
  rw [ho]
  exact h

theorem succeeds_orRaise {α : Type} {x : Except CommandError α} {a : α} (hx : x = .ok a)
    {Q : α → TaskTables → ℕ → Prop} (h : Q a db n) :
    (taskDatabase cfg).Succeeds inp (orRaise x) Q db n := by
  rw [hx]
  exact succeeds_ret.2 h

section Willing

variable (hwilling : Willing inp)

include hwilling

theorem succeeds_external {name : String} {Q : Unit → TaskTables → ℕ → Prop}
    (h : Q () db (n + 1)) : (taskDatabase cfg).Succeeds inp (external name) Q db n := by
  refine succeeds_do (succeeds_read rfl ?_)
  rw [(hwilling n).1]
  exact succeeds_ret.2 h

/-- An Event under a new key with the number that comes next is recorded. -/
theorem succeeds_append {r : Tasks.AppendRequest} {Q : Tasks.AppendResult → TaskTables → ℕ → Prop}
    (hfresh : Fresh db r.idempotencyKey)
    (hnext : r.expectedSeq = Tasks.nextSeq (db.stream r.aggregateType r.aggregateId))
    (hnamed : (idPrefix r.aggregateType).toList.isPrefixOf r.aggregateId.toList = true)
    (h : ∀ e, e.Records n (inp n).now r → Q ⟨e, false⟩ (db.apply (.insertEvent e)) (n + 1)) :
    (taskDatabase cfg).Succeeds inp (Tasks.append r) Q db n := by
  have hnone : db.events.find? (·.sameKey r) = none := by
    refine List.find?_eq_none.2 fun e he hsame ↦ hfresh e he ?_
    simp only [Event.sameKey, Bool.and_eq_true, decide_eq_true_eq] at hsame
    exact hsame.2
  have hexec : execAppend cfg.workspaceId (inp n) n db r =
      ⟨.ok ⟨newEvent cfg.workspaceId n (inp n).now r r.expectedSeq, false⟩,
        [.insertEvent (newEvent cfg.workspaceId n (inp n).now r r.expectedSeq)],
        [.stream r.aggregateType r.aggregateId,
          .idempotency r.actorAccountId r.idempotencyScope r.idempotencyKey]⟩ := by
    rw [execAppend, hnone]
    dsimp only
    rw [← hnext, if_neg (fun hne ↦ hne rfl), hnamed, if_neg (by simp), (hwilling n).2]
  refine succeeds_do (succeeds_issue.2 ?_)
  change (taskDatabase cfg).Succeeds inp (orRaise (execAppend cfg.workspaceId (inp n) n db r).result)
    Q ((taskDatabase cfg).view db (execAppend cfg.workspaceId (inp n) n db r).writes) (n + 1)
  rw [hexec]
  exact succeeds_ret.2 (h _ ⟨rfl, rfl, rfl, rfl, rfl, rfl, rfl, rfl, rfl, rfl, rfl⟩)

end Willing

variable {t vid : String} {s : TaskState} {run : VerificationRun} {e : Tasks.Event}
    {result : Verdict}

theorem succeeds_collectResults {vids : List String}
    {Q : List (List Tasks.Event) → TaskTables → ℕ → Prop} (h : ∀ k, n ≤ k → Q (vids.map fun vid ↦
    (db.stream "verification_run" vid).filter (·.taskId = some t)) db k) :
    (taskDatabase cfg).Succeeds inp (Prog.collect vids fun vid ↦ do
      return (← ask (.stream "verification_run" vid)).filter (·.taskId = some t)) Q db n := by
  induction vids generalizing n Q with
  | nil => exact succeeds_ret.2 (h n (Nat.le_refl n))
  | cons _ _ ih =>
    refine succeeds_bind.2 (succeeds_do (succeeds_read rfl (succeeds_ret.2 (succeeds_bind.2 ?_))))
    refine ih fun k hk ↦ succeeds_ret.2 (h k (by omega))

theorem succeeds_loadTask (hdb : db.Ordered n) (hs : db.stateOf t = .ok s)
    (hborn : db.stream "task" t ≠ []) {Q : TaskState → TaskTables → ℕ → Prop}
    (h : ∀ k, n ≤ k → Q s db k) : (taskDatabase cfg).Succeeds inp (loadTask t) Q db n := by
  refine succeeds_do (succeeds_read rfl ?_)
  rw [if_neg (by simpa using hborn)]
  refine succeeds_do (succeeds_collectResults fun k hk ↦ succeeds_orRaise ?_ (h k (by omega)))
  change (fold t (db.merged t)).mapError conflict = .ok s
  rw [fold_merged hdb, hs]
  rfl

theorem succeeds_loadRun (hrun : db.verificationRuns vid = some run)
    {Q : VerificationRun → TaskTables → ℕ → Prop} (h : Q run db (n + 1)) :
    (taskDatabase cfg).Succeeds inp (loadRun vid) Q db n := by
  refine succeeds_do (succeeds_issue.2 ?_)
  dsimp only [execStatement]
  rw [hrun]
  exact succeeds_ret.2 h

theorem succeeds_replay {ctx : Context} {scope : String} (hfresh : Fresh db ctx.idempotencyKey)
    {Q : Option Tasks.Event → TaskTables → ℕ → Prop} (h : Q none db (n + 1)) :
    (taskDatabase cfg).Succeeds inp (replay ctx vid scope) Q db n := by
  refine succeeds_do (succeeds_read rfl (succeeds_ret.2 ?_))
  have hnone : (db.stream "verification_run" vid).find? (fun e ↦ e.idempotencyScope = scope &&
      e.idempotencyKey = ctx.idempotencyKey && e.actorAccountId = ctx.accountUuid) = none := by
    refine List.find?_eq_none.2 fun e he hmatch ↦ hfresh e (List.mem_of_mem_filter he) ?_
    simp only [Bool.and_eq_true, decide_eq_true_eq] at hmatch
    exact hmatch.1.2
  rw [hnone]
  exact h

/-! ## Moves -/

section Moves

variable {ctx : Context} {vid : String} {run : VerificationRun} (hwilling : Willing inp)
  (hrun : db.verificationRuns vid = some run) (hfresh : Fresh db ctx.idempotencyKey)

include hwilling hrun hfresh

theorem succeeds_simpleMove {op : VerificationOp} {scope permission : String} {mover : Mover}
    {target : VerificationStatus} (hmover : mover.check ctx run = pure ())
    (hlegal : run.status.transitions op = some target) {Q : Bool → TaskTables → ℕ → Prop}
    (h : ∀ k, n ≤ k → Q true (db.apply (.setRunStatus vid target)) k) :
    (taskDatabase cfg).Succeeds inp (simpleMove ctx vid op scope permission mover) Q db n := by
  refine succeeds_do (succeeds_loadRun hrun ?_)
  rw [hmover]
  refine succeeds_do (succeeds_ret.2 (succeeds_do (succeeds_external hwilling (succeeds_do
    (succeeds_replay hfresh ?_)))))
  refine succeeds_do (succeeds_orRaise (a := target) ?_ ?_)
  · rw [nextStatus_eq_ok.2 hlegal]
    rfl
  · exact succeeds_do (succeeds_issue.2 (succeeds_do (succeeds_external hwilling
      (succeeds_ret.2 (h _ (by omega))))))

theorem succeeds_start (hdb : db.Ordered n) (hverifier : ctx.accountUuid = run.verifierAccountId)
    (hlegal : run.status.transitions .start = some .running)
    (htask : ∀ t, targetTask run = some t → db.stream "task" t ≠ [] ∧
      ∃ s, db.stateOf t = .ok s ∧ s.status ≠ .implemented) {Q : Unit → TaskTables → ℕ → Prop}
    (h : ∀ k, Q () (db.apply (.setRunStatus vid .running)) k) :
    (taskDatabase cfg).Succeeds inp (startVerification ctx vid) Q db n := by
  have hmover : Mover.check ctx run .verifier = pure () := if_neg fun hne ↦ hne hverifier
  have hfound : (db.apply (.setRunStatus vid .running)).verificationRuns vid =
      some { run with status := .running } := by
    simp [TaskTables.apply, hrun]
  have henter : ∀ k, n ≤ k → (taskDatabase cfg).Succeeds inp (enterTaskVerifying ctx vid) Q
      (db.apply (.setRunStatus vid .running)) k := by
    intro k hk
    refine succeeds_do (succeeds_loadRun hfound ?_)
    rw [targetTask_setRunStatus]
    cases htarget : targetTask run with
    | none => exact succeeds_ret.2 (h _)
    | some t =>
      obtain ⟨hborn, s, hs, hstatus⟩ := htask t htarget
      have hordered : (db.apply (.setRunStatus vid .running)).Ordered (k + 1) :=
        (hdb.mono (by omega)).congr rfl
      refine succeeds_do (succeeds_loadTask hordered hs hborn fun j _ ↦ ?_)
      rw [if_neg hstatus]
      exact succeeds_ret.2 (h _)
  refine succeeds_do ((succeeds_simpleMove (Q := fun b db' k ↦ b = true ∧
    db' = db.apply (.setRunStatus vid .running) ∧ n ≤ k) hwilling hrun hfresh hmover hlegal
    fun k hk ↦ ⟨rfl, rfl, hk⟩).mono ?_)
  rintro b db₁ k ⟨rfl, rfl, hk⟩
  rw [if_pos rfl]
  exact henter k hk

end Moves

/-! ## The way to a verdict -/

/-- The run is the active one of a Task in `VERIFYING`, and not terminal. -/
structure Pending (db : TaskTables) (t vid : String) (run : VerificationRun) : Prop where
  found : db.verificationRuns vid = some run
  names : run.taskId = some t
  live : run.status ∉ VerificationStatus.terminal
  born : db.stream "task" t ≠ []
  verifying : ∃ s, db.stateOf t = .ok s ∧ s.status = .verifying ∧ s.activeVerificationId = some vid
  id : run.verificationId = vid
  named : (idPrefix "verification_run").toList.isPrefixOf vid.toList = true

theorem targetTask_eq_some {t' : String} (hnames : run.taskId = some t)
    (h : targetTask run = some t') : t' = t := by
  rw [targetTask, hnames] at h
  split_ifs at h
  rw [orElse.eq_def] at h
  split at h
  · cases h
  · cases h
  · next heq =>
    obtain rfl := Option.some.inj heq
    exact (Option.some.inj h).symm

/-- How many commands there are before the verdict. -/
def distance : VerificationStatus → ℕ
  | .failed => 3
  | .planned => 2
  | .blocked => 2
  | .fixSubmitted => 2
  | .assigned => 1
  | .recheckAssigned => 1
  | _ => 0

theorem exists_advance (cfg : Config) (hdb : db.Sound n) (h : Pending db t vid run)
    (hrunning : run.status ≠ .running) (hwilling : Willing inp) :
    ∃ ctx call target, (taskDatabase cfg).Succeeds inp (body cfg (.run ctx call))
        (fun _ db' _ ↦ db' = db.apply (.setRunStatus vid target)) db n ∧
      target ∉ VerificationStatus.terminal ∧ distance target < distance run.status := by
  obtain ⟨key, hfresh⟩ := exists_fresh db
  obtain ⟨s, hs, hverifying, -⟩ := h.verifying
  have hplain : ∀ (account : String) (call : RunCall) (op : VerificationOp)
      (scope permission : String) (mover : Mover) (target : VerificationStatus),
      (runBody cfg ⟨account, key, ""⟩ call = do
        let _ ← simpleMove ⟨account, key, ""⟩ vid op scope permission mover) →
      mover.check ⟨account, key, ""⟩ run = pure () → run.status.transitions op = some target →
      (taskDatabase cfg).Succeeds inp (body cfg (.run ⟨account, key, ""⟩ call))
        (fun _ db' _ ↦ db' = db.apply (.setRunStatus vid target)) db n := by
    intro account call op scope permission mover target hbody hmover hlegal
    change (taskDatabase cfg).Succeeds inp (runBody cfg ⟨account, key, ""⟩ call) _ db n
    rw [hbody]
    exact succeeds_do (succeeds_simpleMove hwilling h.found hfresh hmover hlegal
      fun k _ ↦ succeeds_ret.2 rfl)
  have hstart : run.status.transitions .start = some .running → (taskDatabase cfg).Succeeds inp
        (body cfg (.run ⟨run.verifierAccountId, key, ""⟩ (.start vid)))
        (fun _ db' _ ↦ db' = db.apply (.setRunStatus vid .running)) db n := by
    intro hlegal
    refine succeeds_start hwilling h.found hfresh hdb.ordered rfl hlegal (fun t' ht' ↦ ?_)
      fun k ↦ rfl
    obtain rfl := targetTask_eq_some h.names ht'
    exact ⟨h.born, s, hs, by rw [hverifying]; decide⟩
  have hlive := h.live
  cases hstatus : run.status with
  | planned =>
    refine ⟨_, .assign vid, .assigned, hplain "" _ _ _ _ .anyone _ rfl rfl ?_, by decide,
      by decide⟩
    rw [hstatus]
    rfl
  | assigned | recheckAssigned =>
    refine ⟨_, .start vid, .running, hstart ?_, by decide, by decide⟩
    rw [hstatus]
    rfl
  | running => exact absurd hstatus hrunning
  | passed | cancelled =>
    rw [hstatus] at hlive
    exact absurd (by decide) hlive
  | failed =>
    refine ⟨_, .fix vid, .fixSubmitted, hplain run.implementerAccountId _ _ _ _ .implementer _ rfl
      (if_neg fun hne ↦ hne rfl) ?_, by decide, by decide⟩
    rw [hstatus]
    rfl
  | blocked | fixSubmitted =>
    refine ⟨_, .recheck vid, .recheckAssigned, hplain "" _ _ _ _ .anyone _ rfl rfl ?_, by decide,
      by decide⟩
    rw [hstatus]
    rfl

/-- The Event of a result on the run, for the Task. -/
structure IsResult (e : Tasks.Event) (t vid : String) (result : Verdict) : Prop where
  type : e.type = resultType result
  kind : e.aggregateType = "verification_run"
  run : e.aggregateId = vid
  task : e.taskId = some t
  payload : e.payload.verificationId = some vid
  numbered : 0 < e.aggregateSeq

theorem IsResult.formed (h : IsResult e t vid result) (hvid : vid ≠ "") : e.Formed := by
  have hne : e.aggregateId ≠ "" := h.run ▸ hvid
  refine ⟨fun hc ↦ ?_, fun _ ↦ ⟨h.kind, by rw [h.payload, h.run], hne⟩, h.numbered, hne⟩
  have hdisjoint : ∀ x ∈ verificationResultEvents, x ∉ creationEvents := by decide
  exact absurd hc (hdisjoint _ (h.type ▸ resultType_mem result))

theorem IsResult.applies (h : IsResult e t vid result) (htask : s.taskId = t)
    (hexists : s.exists' = true) (hverifying : s.status = .verifying)
    (hactive : s.activeVerificationId = some vid) : ∃ target,
      transitions .verifying (resultType result) = some target ∧
        applyEvent s e = .ok (s.result e target) := by
  obtain ⟨target, htarget, -⟩ := transitions_resultType result
  have hmem : e.type ∈ verificationResultEvents := h.type ▸ resultType_mem result
  have hdisjoint : ∀ x ∈ verificationResultEvents, x ∉ creationEvents := by decide
  refine ⟨target, htarget, applyEvent_result hexists (hdisjoint _ hmem) hmem ?_ ?_ ?_⟩
  · rw [h.task, htask]
  · rw [h.payload, hactive]
  · rw [hverifying, h.type]
    exact htarget

/-- **The verdict on the run has reached the Task.** -/
structure Landed (db db' : TaskTables) (t vid : String) (result : Verdict) : Prop where
  recorded : ∃ e ∈ db'.events, e ∉ db.events ∧ e.type = resultType result ∧ e.aggregateId = vid ∧
    e.taskId = some t
  decided : ∃ run, db'.verificationRuns vid = some run ∧ run.status = result.status ∧
    run.result = some result
  applied : ∃ s, db'.stateOf t = .ok s ∧
    transitions .verifying (resultType result) = some s.status ∧
    s.verificationStatus = resultStatus (resultType result)

/-- Some sequence of commands brings the run to a verdict that reaches the Task. -/
def CanLand (cfg : Config) (db : TaskTables) (n : ℕ) (t vid : String) : Prop :=
  ∃ db' n' result, (taskDatabase cfg).History (body cfg) (fun _ _ _ _ ↦ True) db n db' n' ∧
    Landed db db' t vid result

/-- What the verdict leaves before the run is closed. -/
structure Reached (db db' : TaskTables) (t vid : String) (result : Verdict) : Prop where
  recorded : ∃ e ∈ db'.events, e ∉ db.events ∧ e.type = resultType result ∧ e.aggregateId = vid ∧
    e.taskId = some t
  applied : ∃ s, db'.stateOf t = .ok s ∧
    transitions .verifying (resultType result) = some s.status ∧
    s.verificationStatus = resultStatus (resultType result)
  kept : db'.verificationRuns = db.verificationRuns

theorem reached_of_insert (hdb : db.Sound n) (h : Pending db t vid run)
    (hresult : IsResult e t vid result) (hseq : n ≤ e.recordedSeq)
    {rows : String → Option TaskRow} :
    Reached db { db.apply (.insertEvent e) with rows := rows } t vid result := by
  obtain ⟨s, hs, hverifying, hactive⟩ := h.verifying
  obtain ⟨target, htarget, happly⟩ := hresult.applies (taskId_of_stateOf hs)
    ((hdb.exists_iff hs).2 h.born) hverifying hactive
  refine ⟨⟨e, by simp [TaskTables.apply], fun he ↦ ?_, hresult.type, hresult.run, hresult.task⟩,
    ⟨s.result e target, ?_, htarget, by rw [TaskState.result, hresult.type]⟩, rfl⟩
  · exact absurd (hdb.ordered.bounded e he) (by omega)
  · have hinsert : (db.apply (.insertEvent e)).stateOf t =
        (db.stateOf t).bind fun s ↦ applyEvent s e := stateOf_insert e t
    rw [hs] at hinsert
    exact hinsert.trans happly

section Verdict

variable {ctx : Context} {t vid : String} {run : VerificationRun} (hwilling : Willing inp)
  (hdb : db.Sound n) (h : Pending db t vid run) (hfresh : Fresh db ctx.idempotencyKey)

include hwilling hdb h hfresh

theorem succeeds_recordVerificationResult {Q : Answer → TaskTables → ℕ → Prop}
    (hQ : ∀ a db' k, Reached db db' t vid .failed → Q a db' k) :
    (taskDatabase cfg).Succeeds inp (recordVerificationResult ctx t vid .failed) Q db n := by
  obtain ⟨s, hs, hverifying, hactive⟩ := h.verifying
  refine succeeds_do (succeeds_loadTask hdb.ordered hs h.born fun k hk ↦ succeeds_do
    (succeeds_external hwilling (succeeds_do (succeeds_read rfl ?_))))
  have hnone : (db.stream "verification_run" vid).find? (fun e ↦
      e.idempotencyScope = "verification_run:result" &&
        e.idempotencyKey = ctx.idempotencyKey) = none := by
    refine List.find?_eq_none.2 fun e he hmatch ↦ hfresh e (List.mem_of_mem_filter he) ?_
    simp only [Bool.and_eq_true, decide_eq_true_eq] at hmatch
    exact hmatch.2
  dsimp only
  rw [hnone]
  dsimp only
  rw [if_neg (by simp [hverifying, hactive])]
  refine succeeds_do (succeeds_read rfl (succeeds_do (succeeds_append hwilling hfresh rfl h.named
    fun e hrec ↦ ?_)))
  have hresult : IsResult e t vid .failed := ⟨hrec.type, hrec.aggregateType, hrec.aggregateId,
    hrec.taskId, by rw [hrec.payload], by rw [hrec.aggregateSeq]; exact Nat.succ_pos _⟩
  have hseq : n ≤ e.recordedSeq := by
    rw [hrec.recordedSeq]
    omega
  obtain ⟨target, htarget, happly⟩ := hresult.applies (taskId_of_stateOf hs)
    ((hdb.exists_iff hs).2 h.born) hverifying hactive
  have hordered : (db.apply (.insertEvent e)).Ordered (k + 1 + 1 + 1 + 1) :=
    (hdb.ordered.mono (by omega)).insert hrec.recordedSeq
      (hresult.formed (ne_empty_of_idPrefix h.named))
  have hstate : (db.apply (.insertEvent e)).stateOf t = .ok (s.result e target) := by
    have hinsert : (db.apply (.insertEvent e)).stateOf t =
        (db.stateOf t).bind fun s ↦ applyEvent s e := stateOf_insert e t
    rw [hs] at hinsert
    exact hinsert.trans happly
  have hborn : (db.apply (.insertEvent e)).stream "task" t ≠ [] := by
    rw [TaskTables.stream, TaskTables.apply, List.filter_append]
    exact fun hnil ↦ h.born (List.append_eq_nil_iff.1 hnil).1
  refine succeeds_do (succeeds_loadTask hordered hstate hborn fun j _ ↦ succeeds_do
    (succeeds_issue.2 ?_))
  rw [if_neg (by decide)]
  exact succeeds_ret.2 (hQ _ _ _ (reached_of_insert hdb h hresult hseq))

theorem succeeds_verdictEvent {Q : Unit → TaskTables → ℕ → Prop}
    (hQ : ∀ db' k, Reached db db' t vid .failed → Q () db' k) :
    (taskDatabase cfg).Succeeds inp (verdictEvent ctx run .failed) Q db n := by
  rw [verdictEvent, h.id]
  cases htarget : targetTask run with
  | some =>
    obtain rfl := targetTask_eq_some h.names htarget
    exact succeeds_do (succeeds_recordVerificationResult hwilling hdb h hfresh
      fun _ db' k hreached ↦ succeeds_ret.2 (hQ db' k hreached))
  | none =>
    refine succeeds_do (succeeds_do (succeeds_read rfl (succeeds_append hwilling hfresh rfl ?_
      fun e hrec ↦ succeeds_ret.2 (hQ _ _ ?_))))
    · dsimp only
      rw [h.id]
      exact h.named
    · have hresult : IsResult e t vid .failed := by
        refine ⟨hrec.type, hrec.aggregateType, hrec.aggregateId.trans h.id,
          hrec.taskId.trans h.names, ?_, ?_⟩
        · rw [hrec.payload, h.id]
        · rw [hrec.aggregateSeq]
          exact Nat.succ_pos _
      refine reached_of_insert hdb h hresult ?_
      rw [hrec.recordedSeq]
      omega

theorem succeeds_submitVerdict (hrunning : run.status = .running)
    (hverifier : ctx.accountUuid = run.verifierAccountId) :
    (taskDatabase cfg).Succeeds inp (body cfg (.run ctx (.verdict vid .failed)))
      (fun _ db' _ ↦ Landed db db' t vid .failed) db n := by
  refine succeeds_do (succeeds_loadRun h.found (succeeds_do (succeeds_external hwilling ?_)))
  rw [if_neg fun hne ↦ hne hverifier]
  refine succeeds_do (succeeds_external hwilling (succeeds_do (succeeds_replay hfresh
    (succeeds_do (succeeds_external hwilling (succeeds_do (succeeds_orRaise (a := .failed) ?_
      ?_)))))))
  · rw [hrunning]
    rfl
  refine succeeds_do (succeeds_verdictEvent hwilling (hdb.mono (by omega)) h hfresh
    fun db' k hreached ↦ succeeds_do (succeeds_external hwilling (succeeds_do (succeeds_issue.2
      (succeeds_external hwilling ?_)))))
  obtain ⟨hrecorded, happlied, hkept⟩ := hreached
  refine ⟨hrecorded, ⟨{ run with
    status := .failed, currentRevision := run.currentRevision + 1, result := some .failed }, ?_,
    rfl, rfl⟩, happlied⟩
  have hfound : db'.verificationRuns vid = some run := by rw [hkept, h.found]
  change (db'.apply (.setRunResult vid (run.currentRevision + 1) .failed)).verificationRuns vid = _
  simp [TaskTables.apply, hfound, Verdict.status]

end Verdict

/-- **A pending run can land.** The induction is on how many commands there are before the
verdict. -/
theorem canLand_of_pending (hdb : db.Sound n) (h : Pending db t vid run) :
    CanLand cfg db n t vid := by
  let inp : ℕ → TaskInput := fun _ ↦ {}
  have hwilling : Willing inp := fun _ ↦ ⟨rfl, rfl⟩
  induction hd : distance run.status using Nat.strong_induction_on generalizing db n run with
  | _ d ih =>
    by_cases hrunning : run.status = .running
    · obtain ⟨key, hfresh⟩ := exists_fresh db
      have hsucceeds : (taskDatabase cfg).Succeeds inp
          (body cfg (.run ⟨run.verifierAccountId, key, ""⟩ (.verdict vid .failed)))
          (fun _ db' _ ↦ Landed db db' t vid .failed) db n :=
        succeeds_submitVerdict hwilling hdb h hfresh hrunning rfl
      obtain ⟨_, hlanded⟩ := hsucceeds.transact
      exact ⟨_, _, .failed, .step _ inp .refl trivial, hlanded⟩
    · obtain ⟨ctx, call, target, hsucceeds, hlive, hnearer⟩ :=
        exists_advance cfg hdb h hrunning hwilling
      obtain ⟨_, heq⟩ := hsucceeds.transact
      have hle : n ≤ ((taskDatabase cfg).transact inp n db
        (body cfg (.run ctx call))).2 := le_transact _
      have hfirst : (taskDatabase cfg).History (body cfg) (fun _ _ _ _ ↦ True) db n _ _ :=
        .step (.run ctx call) inp .refl trivial
      rw [heq] at hfirst
      have hnext : Pending (db.apply (.setRunStatus vid target)) t vid
          { run with status := target } := by
        refine ⟨?_, h.names, hlive, h.born, h.verifying, h.id, h.named⟩
        simp [TaskTables.apply, h.found]
      have hsound : (db.apply (.setRunStatus vid target)).Sound _ := (hdb.mono hle).congr rfl
      obtain ⟨db', n', result, hhistory, hrecorded, hdecided, happlied⟩ :=
        ih _ (hd ▸ hnearer) hsound hnext rfl
      exact ⟨db', n', result, hfirst.trans hhistory, hrecorded, hdecided, happlied⟩

end AgentColab.Verification
