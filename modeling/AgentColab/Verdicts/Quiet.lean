import AgentColab.Transaction.Monitored
import AgentColab.Verdicts.Commands

/-!
# Work without a verdict

Everything but the submission of a verdict leaves the revisions alone. It may plan a run, and it may
move a run to any status but `PASSED`; the parties of a run, its result and the number of its last
revision stay what they are. This holds however such work ends, so a caller may catch its errors.
-/

namespace AgentColab.Verdicts

open Transaction
open Verification (VerificationStatus VerificationOp nextStatus)

variable {α β : Type} {cfg : Config} {ctx : CommandContext} {inp : ℕ → Input} {s s₀ s₁ s₂ : Store}
  {n : ℕ}

/-! ## Runs in a store -/

variable {vid : String} {p : Body α}

theorem verificationId_of_run {run : RunRow} (h : s.run vid = some run) :
    run.verificationId = vid := by
  simpa using List.find?_some h

theorem run_updateRun (vid i : String) (change : RunRow → RunRow)
    (hchange : ∀ row, (change row).verificationId = row.verificationId) :
    (s.apply (.updateRun i change)).run vid =
      if i = vid then (s.run vid).map change else s.run vid := by
  simp only [Store.run, Store.apply, List.find?_map]
  have hsame : ((fun r : RunRow ↦ decide (r.verificationId = vid)) ∘ fun row ↦
      if row.verificationId = i then change row else row) =
      fun r : RunRow ↦ decide (r.verificationId = vid) := by
    funext row
    by_cases h : row.verificationId = i <;> simp [h, hchange]
  rw [hsame]
  rcases hfind : s.runs.find? (fun r ↦ decide (r.verificationId = vid)) with - | row
  · simp [hfind]
  · have hid : row.verificationId = vid := by simpa using List.find?_some hfind
    by_cases hi : i = vid
    · simp [hfind, hid, hi]
    · simp [hfind, hid, hi, Ne.symm hi]

theorem run_insertRun (vid : String) (row : RunRow) : (s.apply (.insertRun row)).run vid =
    (s.run vid).or (if row.verificationId = vid then some row else none) := by
  rw [Store.run, Store.apply, List.find?_append]
  by_cases h : row.verificationId = vid <;> simp [Store.run, h]

/-! ## What stays -/

/-- What a run may undergo without a verdict. -/
def RunKept : Option RunRow → Option RunRow → Prop
  | none, none => True
  | none, some run => run.currentRevision = 0 ∧ run.result = none ∧ run.status ≠ .passed
  | some _, none => False
  | some run, some run' => run'.parties = run.parties ∧ run'.workspaceId = run.workspaceId ∧
      run'.currentRevision = run.currentRevision ∧ run'.result = run.result ∧
      (run'.status = .passed → run.status = .passed)

theorem RunKept.refl (o : Option RunRow) : RunKept o o := by
  rcases o with - | run
  · trivial
  · exact ⟨rfl, rfl, rfl, rfl, id⟩

theorem RunKept.trans {o₀ o₁ o₂ : Option RunRow} (h : RunKept o₀ o₁) (h' : RunKept o₁ o₂) :
    RunKept o₀ o₂ := by
  rcases o₀ with - | run₀ <;> rcases o₁ with - | run₁ <;> rcases o₂ with - | run₂
  · trivial
  · exact h'
  · trivial
  · obtain ⟨hrevision, hresult, hstatus⟩ := h
    obtain ⟨-, -, hrevision', hresult', hstatus'⟩ := h'
    exact ⟨hrevision'.trans hrevision, hresult'.trans hresult, fun hp ↦ hstatus (hstatus' hp)⟩
  · exact h.elim
  · exact h.elim
  · exact h'.elim
  · obtain ⟨hparties, hworkspace, hrevision, hresult, hstatus⟩ := h
    obtain ⟨hparties', hworkspace', hrevision', hresult', hstatus'⟩ := h'
    exact ⟨hparties'.trans hparties, hworkspace'.trans hworkspace, hrevision'.trans hrevision,
      hresult'.trans hresult, fun hp ↦ hstatus (hstatus' hp)⟩

/-- No verdict was recorded on the way from the first store to the second. -/
structure Quiet (s₀ s : Store) : Prop where
  revisions : s.revisions = s₀.revisions
  run : ∀ vid, RunKept (s₀.run vid) (s.run vid)

theorem Quiet.refl (s : Store) : Quiet s s := ⟨rfl, fun _ ↦ .refl _⟩

theorem Quiet.trans (h : Quiet s₀ s₁) (h' : Quiet s₁ s₂) : Quiet s₀ s₂ :=
  ⟨h'.revisions.trans h.revisions, fun vid ↦ (h.run vid).trans (h'.run vid)⟩

theorem quiet_withStatus {status : VerificationStatus} (vid : String) (h : status ≠ .passed) :
    Quiet s (s.apply (.updateRun vid (·.withStatus status))) := by
  refine ⟨rfl, fun i ↦ ?_⟩
  rw [run_updateRun i vid (·.withStatus status) fun _ ↦ rfl]
  split
  · rcases s.run i with - | run
    · trivial
    · exact ⟨rfl, rfl, rfl, rfl, fun hp ↦ absurd hp h⟩
  · exact .refl _

theorem quiet_insertRun {row : RunRow} (hrevision : row.currentRevision = 0)
    (hresult : row.result = none) (hstatus : row.status ≠ .passed) :
    Quiet s (s.apply (.insertRun row)) := by
  refine ⟨rfl, fun i ↦ ?_⟩
  rw [run_insertRun]
  rcases s.run i with - | run
  · rw [Option.none_or]
    split
    · exact ⟨hrevision, hresult, hstatus⟩
    · trivial
  · exact .refl (some run)

/-! ## The monitor -/

/-- The statements that record no verdict. -/
def quiet : Monitor Res Unit where
  may _
    | .insertRevision _ => False
    | .setResult _ _ _ => False
    | .setStatus _ status => status ≠ .passed
    | .insertRun row => row.currentRevision = 0 ∧ row.result = none ∧ row.status ≠ .passed
    | _ => True
  ok _ _ _ := True
  next _ _ _ := ()

theorem quiet_statement (inp : Input) (n : ℕ) (s : Store) (o : Op) (ho : quiet.may () o) :
    Quiet s (database.view s (execStatement inp n (fun _ ↦ false) s o).writes) := by
  cases o with
  | insertRun =>
    simp only [execStatement, execInsertRun]
    split_ifs
    · exact .refl s
    · exact .refl s
    · exact quiet_insertRun ho.1 ho.2.1 ho.2.2
  | insertFinding =>
    simp only [execStatement, execInsertFinding]
    split_ifs
    · exact .refl s
    · exact ⟨rfl, fun _ ↦ .refl _⟩
  | setStatus vid => exact quiet_withStatus vid ho
  | setAliases => exact ⟨rfl, fun _ ↦ .refl _⟩
  | insertRevision => exact ho.elim
  | setResult => exact ho.elim
  | _ => exact .refl s

theorem keeps_quiet (s₀ : Store) : database.Keeps (quiet.may ()) (Quiet s₀) :=
  fun inp n s o ho hs ↦ hs.trans (quiet_statement inp n s o ho)

/-- However the body ends, it has recorded no verdict. -/
def Silent (p : Body α) : Prop := p.Conforms quiet (fun _ _ ↦ True) ()

theorem Silent.returns (h : Silent p) : database.Returns inp p (fun _ s' _ ↦ Quiet s s') s n :=
  (keeps_quiet s).returns h (.refl s)

/-! ## Silent bodies -/

theorem silent_pure (a : α) : Silent (pure a) := Prog.Conforms.ret trivial

theorem silent_throw (e : CommandError) : Silent (throw e : Body α) := Prog.Conforms.raise trivial

theorem Silent.bind {f : α → Body β} (hp : Silent p) (hf : ∀ a, Silent (f a)) : Silent (p >>= f) :=
  Prog.Only.bind hp hf

theorem Silent.tryCatch {h : CommandError → Body α} (hp : Silent p) (hh : ∀ e, Silent (h e)) :
    Silent (p.tryCatch h) := by
  refine Prog.conforms_tryCatch.2 (hp.mono ?_)
  rintro (e | a) ⟨⟩ -
  · exact hh e
  · trivial

theorem Silent.forEach {xs : List β} {f : β → Body Unit} (hf : ∀ x, Silent (f x)) :
    Silent (Prog.forEach xs f) :=
  Prog.Only.forEach hf

theorem Silent.ite {c : Prop} [Decidable c] {q : Body α} (hp : Silent p) (hq : Silent q) :
    Silent (if c then p else q) :=
  Prog.Only.ite hp hq

theorem silent_ask (o : Op) (ho : quiet.may () o) : Silent (ask o) :=
  Prog.Conforms.issue ho fun _ _ ↦ trivial

theorem silent_orRaise (x : Except CommandError α) : Silent (orRaise x) := by
  rcases x with e | a
  · exact silent_throw e
  · exact silent_pure a

theorem silent_external (call : External) : Silent (external call) :=
  (silent_ask (.external call) trivial).bind silent_orRaise

theorem silent_account (accountId : String) : Silent (account accountId) := by
  refine (silent_external _).bind ?_
  rintro (- | uuid)
  · exact silent_throw _
  · exact silent_pure uuid

theorem silent_loadRun (vid : String) : Silent (loadRun vid) := by
  refine (silent_ask (.loadRun vid) trivial).bind ?_
  rintro (- | run)
  · exact silent_throw _
  · exact silent_pure run

theorem silent_runOrError (vid : String) : Silent (runOrError ctx vid) :=
  (silent_loadRun vid).bind fun _ ↦ (silent_pure _).ite (silent_throw _)

theorem silent_orRejected {action : VerdictError → String} (x : Except VerdictError α) :
    Silent (orRejected action x) := by
  rcases x with e | a
  · exact (silent_external _).bind fun _ ↦ silent_throw _
  · exact silent_pure a

theorem silent_withVerifier (cmd : CreateVerificationRun) : Silent (withVerifier cmd) := by
  refine Silent.ite ?_ (silent_pure cmd)
  rw [resolveAutoAssign]
  split
  · exact silent_throw _
  · exact (silent_ask (.resolveAutoAssign _ _) trivial).bind fun x ↦
      (silent_orRaise x).bind fun _ ↦ silent_pure _

theorem silent_createVerificationRun (cmd : CreateVerificationRun) :
    Silent (createVerificationRun cfg ctx cmd) := by
  refine (silent_external _).bind fun _ ↦ Silent.ite (silent_throw _) ?_
  refine (silent_withVerifier cmd).bind fun cmd ↦ ?_
  refine Silent.bind ?_ fun parties ↦ ?_
  · exact (silent_account _).bind fun _ ↦ (silent_account _).bind fun _ ↦ silent_pure _
  refine (silent_ask (.aliasGraph _) trivial).bind fun graph ↦ ?_
  refine (silent_orRejected _).bind fun _ ↦ (silent_ask (.loadRun _) trivial).bind fun existing ↦ ?_
  refine (silent_external _).bind fun replay ↦ ?_
  refine (silent_pure ()).ite ?_
  -- a new run is planned, without a revision
  have hnew : quiet.may () (.insertRun (newRun ctx cmd (newVerificationId cfg ctx) parties)) :=
    ⟨rfl, rfl, fun h ↦ nomatch h⟩
  refine (silent_ask _ hnew).bind fun x ↦ (silent_orRaise _).bind fun _ ↦ ?_
  refine (silent_external _).bind fun _ ↦ Silent.ite ?_ (silent_pure ())
  exact (silent_external _).bind fun _ ↦ silent_pure ()

theorem ne_passed_of_nextStatus {current target : VerificationStatus} {op : VerificationOp}
    (hop : ∀ v, op ≠ .verdict v) (h : nextStatus current op = .ok target) : target ≠ .passed := by
  rintro rfl
  have htarget := Verification.nextStatus_eq_ok.1 h
  rcases Verification.terminal_of_transitions htarget (by decide) with ⟨rfl, -⟩ | rfl
  · exact hop _ rfl
  · revert htarget
    cases current <;> decide

theorem silent_simpleMove {scope permission : String} {mover : Mover} (op : VerificationOp)
    (hop : ∀ v, op ≠ .verdict v) : Silent (simpleMove ctx vid op scope permission mover) := by
  refine (silent_runOrError vid).bind fun run ↦ Silent.bind ?_ fun _ ↦ ?_
  · cases mover with
    | anyone => exact silent_pure ()
    | verifier => exact (silent_pure ()).ite (silent_throw _)
    | implementer => exact (silent_pure ()).ite (silent_throw _)
  refine (silent_external _).bind fun _ ↦ (silent_external _).bind ?_
  rintro (- | eventId)
  · rcases hnext : nextStatus run.status op with e | target
    · rw [moveRun, hnext]
      exact silent_throw _
    · rw [moveRun, hnext]
      have htarget := ne_passed_of_nextStatus hop hnext
      refine (silent_ask (.setStatus vid target) htarget).bind fun _ ↦ ?_
      exact (silent_external _).bind fun _ ↦ silent_pure false
  · exact silent_pure true

theorem silent_cancelVerification (vid : String) : Silent (cancelVerification ctx vid) :=
  (silent_simpleMove .cancel fun _ h ↦ nomatch h).bind fun _ ↦ silent_pure ()

theorem silent_onExhausted (run : RunRow) (taskId : String) : Silent (onExhausted run taskId) := by
  refine (silent_external _).bind fun _ ↦ (silent_external _).bind fun _ ↦ Silent.tryCatch ?_ ?_
  · exact (silent_external _).bind fun _ ↦ silent_pure ()
  · exact fun e ↦ (silent_pure ()).ite (silent_throw e)

theorem silent_timeOut (offer : Offer) : Silent (timeOut cfg ctx offer) := by
  refine (silent_loadRun _).bind fun run ↦ Silent.ite ?_ ?_
  · exact (silent_external _).bind fun _ ↦ silent_pure ()
  refine (silent_external _).bind fun _ ↦ (silent_cancelVerification _).bind fun _ ↦ ?_
  refine Silent.tryCatch ?_ fun e ↦ (silent_throw e).ite (silent_onExhausted run _)
  exact (silent_external _).bind fun _ ↦ (silent_external _).bind fun _ ↦
    silent_createVerificationRun _

theorem silent_body {call : Call} (h : ∀ cmd, call ≠ .verdict cmd) :
    Silent (body cfg ctx call) := by
  cases call with
  | create cmd => exact silent_createVerificationRun cmd
  | assign => exact (silent_simpleMove .assign fun _ h ↦ nomatch h).bind fun _ ↦ silent_pure ()
  | start =>
    refine (silent_simpleMove .start fun _ h ↦ nomatch h).bind fun replayed ↦ ?_
    refine (silent_pure ()).ite ?_
    exact (silent_external _).bind fun _ ↦ silent_pure ()
  | verdict cmd => exact absurd rfl (h cmd)
  | fix => exact (silent_simpleMove .fix fun _ h ↦ nomatch h).bind fun _ ↦ silent_pure ()
  | recheck =>
    exact (silent_simpleMove .recheck fun _ h ↦ nomatch h).bind fun _ ↦ silent_pure ()
  | cancel vid => exact silent_cancelVerification vid
  | sweepTimeouts => exact Silent.forEach silent_timeOut
  | posthocReview cmd =>
    refine (silent_createVerificationRun cmd).tryCatch fun e ↦ ?_
    exact (silent_external _).bind fun _ ↦ silent_pure ()
  | setAliases rows => exact silent_ask (.setAliases rows) trivial

end AgentColab.Verdicts
