import AgentColab.Verification.Following
import AgentColab.Verification.Landing

/-!
# A Task and its verification

The start of a run moves its Task only if the Task is `IMPLEMENTED`; a cancelled run leaves its Task
in `VERIFYING`; a cancellation of the Task, and a result that is recorded on the Task directly,
leave the run in `RUNNING`. Where the commands avoid these, the two stay coupled, and every Task in
`VERIFYING` has a run that can be brought to a verdict.
-/

namespace AgentColab.Verification

open AgentColab Transaction Database Tasks
open Function (update update_of_ne update_self)
open VerificationStatus (terminal)
open Except (ok)

section

variable {cfg : Config} {inp : ℕ → TaskInput} {db db' : TaskTables} {n n' : ℕ} {call : Call}

/-! ## What a step makes of a verification -/

/-- As far as verifications go nothing has changed. -/
def Alike (s s' : TaskState) : Prop :=
  s'.status = s.status ∧ s'.activeVerificationId = s.activeVerificationId

variable {t u vid : String} {child s s' s₀ s₁ : TaskState} {e : Tasks.Event} {run : VerificationRun}
    {etype : EventType} {ctx : Context} {mid : TaskTables} {k : ℕ} {result : Verdict}
    {target : VerificationStatus}

theorem alike_of_step (hdb : db.Sound n) {time : Time} (h : Step db n t s₀ e s₁ time db' n')
    (hs' : db'.stateOf u = .ok s') :
    ∃ s, db.stateOf u = .ok s ∧ (Alike s s' ∨ u = t ∧ s = s₀ ∧ s' = s₁) := by
  obtain ⟨s, hs⟩ := hdb.state u
  refine ⟨s, hs, ?_⟩
  by_cases hu : u = t
  · subst hu
    exact .inr ⟨rfl, ok.inj (hs.symm.trans h.folded), ok.inj (hs'.symm.trans h.stateOf)⟩
  · rw [h.stateOf_of_ne hdb hu, hs] at hs'
    obtain rfl := ok.inj hs'
    exact .inl ⟨rfl, rfl⟩

theorem alike_of_mayJoin (hdb : db.Sound n) (h : MayJoin inp db n child db' n')
    (hs' : db'.stateOf u = .ok s') : ∃ s, db.stateOf u = .ok s ∧ Alike s s' := by
  cases h with
  | idle => exact ⟨s', hs', rfl, rfl⟩
  | joined _ _ e _ _ join =>
    obtain ⟨s, hs, hcase⟩ := alike_of_step hdb join.step hs'
    rcases hcase with hsame | ⟨-, rfl, rfl⟩
    · exact ⟨s, hs, hsame⟩
    · exact ⟨s, hs, status_annotate _ _, activeVerificationId_annotate _ _⟩

theorem alike_of_noted (hdb : db.Sound n) (h : Noted db n e db' n') (hs' : db'.stateOf u = .ok s') :
    ∃ s, db.stateOf u = .ok s ∧
      (Alike s s' ∨ e.type ∈ verificationResultEvents ∧ s'.status ≠ .verifying ∧
        s.activeVerificationId = some e.aggregateId) := by
  have hevents : db'.events = db.events ++ [e] := by rw [h.eq]; rfl
  obtain ⟨s, hs⟩ := hdb.state u
  refine ⟨s, hs, ?_⟩
  by_cases hc : e.Concerns u
  · have hresult := h.result hc
    rw [stateOf_append hevents, hs] at hs'
    rcases applied_of_applyEvent hs' with _ | ⟨htype, -⟩ | ⟨target, -, -, hactive, hlegal⟩ |
      ⟨htype, -⟩ | ⟨target, -, hkind, -, -, -⟩
    · exact .inl ⟨rfl, rfl⟩
    · exact absurd (h.formed.creation htype) h.kind
    · refine .inr ⟨hresult, (verifying_of_result hresult hlegal).2, ?_⟩
      rw [← hactive, (h.formed.result hresult).2.1]
    · rw [List.mem_singleton.1 htype] at hresult
      exact absurd hresult (by decide)
    · exact absurd hkind h.kind
  · rw [stateOf_of_not_concerns hdb h.formed hevents hc, hs] at hs'
    obtain rfl := ok.inj hs'
    exact .inl ⟨rfl, rfl⟩

/-! ## The invariant -/

/-- **Tasks and runs are coupled.** -/
structure Coupled (db : TaskTables) : Prop where
  /-- A run that is `RUNNING` is the active one of its Task. -/
  running : ∀ vid run t s, db.verificationRuns vid = some run → run.status = .running →
    targetTask run = some t → db.stateOf t = .ok s →
    s.status = .verifying ∧ s.activeVerificationId = some vid
  /-- A Task in `VERIFYING` has an active run that names it and is not terminal. -/
  verifying : ∀ t s, db.stateOf t = .ok s → s.status = .verifying →
    ∃ vid run, s.activeVerificationId = some vid ∧ db.verificationRuns vid = some run ∧
      run.taskId = some t ∧ run.status ∉ terminal
  named : ∀ vid run, db.verificationRuns vid = some run →
    (idPrefix "verification_run").toList.isPrefixOf vid.toList = true

/-- The runs are as before: the Tasks are, too, but for one that has left `VERIFYING` and has no
run that is `RUNNING`, and one that has entered it. -/
theorem Coupled.tasks (h : Coupled db) (hruns : db'.verificationRuns = db.verificationRuns)
    (hstates : ∀ t s', db'.stateOf t = .ok s' → ∃ s, db.stateOf t = .ok s ∧ (Alike s s' ∨
      (s'.status ≠ .verifying ∧ ∀ vid run, db.verificationRuns vid = some run →
        run.status = .running → targetTask run ≠ some t) ∨
      (s.status ≠ .verifying ∧ ∃ vid run, s'.activeVerificationId = some vid ∧
        db.verificationRuns vid = some run ∧ run.taskId = some t ∧
        run.status ∉ terminal))) : Coupled db' := by
  refine ⟨fun vid run t s' hrun hrunning htarget hs' ↦ ?_, fun t s' hs' hverifying ↦ ?_, ?_⟩
  · rw [hruns] at hrun
    obtain ⟨s, hs, hcase⟩ := hstates t s' hs'
    obtain ⟨hwas, hactive⟩ := h.running vid run t s hrun hrunning htarget hs
    rcases hcase with ⟨hstatus, hsame⟩ | ⟨-, hnone⟩ | ⟨hnot, -⟩
    · exact ⟨hstatus.trans hwas, hsame.trans hactive⟩
    · exact absurd htarget (hnone vid run hrun hrunning)
    · exact absurd hwas hnot
  · obtain ⟨s, hs, hcase⟩ := hstates t s' hs'
    rw [hruns]
    rcases hcase with ⟨hstatus, hsame⟩ | ⟨hnot, -⟩ | ⟨-, hentered⟩
    · rw [hsame]
      exact h.verifying t s hs (hstatus.symm.trans hverifying)
    · exact absurd hverifying hnot
    · exact hentered
  · rw [hruns]
    exact h.named

section Run

variable {vid : String} {run run' : VerificationRun} (h : Coupled db)
  (hfound : db.verificationRuns vid = some run)
  (hruns : db'.verificationRuns = update db.verificationRuns vid (some run'))
  (htask : run'.taskId = run.taskId)

include h hfound hruns htask

theorem Coupled.stop (hstopped : run'.status ≠ .running)
    (hstates : ∀ t s', db'.stateOf t = .ok s' → ∃ s, db.stateOf t = .ok s ∧
      (Alike s s' ∧ (s.status = .verifying → s.activeVerificationId = some vid →
        run.taskId = some t → run'.status ∉ terminal) ∨
      s'.status ≠ .verifying ∧ s.activeVerificationId = some vid)) : Coupled db' := by
  refine ⟨fun v r t s' hr hrunning htarget hs' ↦ ?_, fun t s' hs' hverifying ↦ ?_, fun v r hr ↦ ?_⟩
  · rw [hruns] at hr
    by_cases hv : v = vid
    · subst hv
      rw [update_self] at hr
      obtain rfl := Option.some.inj hr
      exact absurd hrunning hstopped
    · rw [update_of_ne hv] at hr
      obtain ⟨s, hs, hcase⟩ := hstates t s' hs'
      obtain ⟨hwas, hactive⟩ := h.running v r t s hr hrunning htarget hs
      rcases hcase with ⟨⟨hstatus, hsame⟩, -⟩ | ⟨-, hleft⟩
      · exact ⟨hstatus.trans hwas, hsame.trans hactive⟩
      · exact absurd (Option.some.inj (hactive.symm.trans hleft)) hv
  · obtain ⟨s, hs, hcase⟩ := hstates t s' hs'
    rcases hcase with ⟨⟨hstatus, hsame⟩, hlive⟩ | ⟨hnot, -⟩
    · have hwas := hstatus.symm.trans hverifying
      obtain ⟨v, r, hactive, hr, hnames, hrlive⟩ := h.verifying t s hs hwas
      rw [hsame, hruns]
      by_cases hv : v = vid
      · subst hv
        obtain rfl := Option.some.inj (hr.symm.trans hfound)
        exact ⟨v, run', hactive, update_self .., htask.trans hnames, hlive hwas hactive hnames⟩
      · exact ⟨v, r, hactive, (update_of_ne hv ..).trans hr, hnames, hrlive⟩
    · exact absurd hverifying hnot
  · by_cases hv : v = vid
    · exact h.named v run (hv ▸ hfound)
    · rw [hruns, update_of_ne hv] at hr
      exact h.named v r hr

theorem Coupled.start (hlive : run'.status ∉ terminal) (htarget : targetTask run' = targetTask run)
    (hactive : ∀ t s', targetTask run = some t → db'.stateOf t = .ok s' →
      s'.status = .verifying ∧ s'.activeVerificationId = some vid)
    (hstates : ∀ t s', db'.stateOf t = .ok s' → ∃ s, db.stateOf t = .ok s ∧ (Alike s s' ∨
      s.status ≠ .verifying ∧ s'.activeVerificationId = some vid ∧ run.taskId = some t)) :
    Coupled db' := by
  refine ⟨fun v r t s' hr hrunning htarget' hs' ↦ ?_, fun t s' hs' hverifying ↦ ?_, fun v r hr ↦ ?_⟩
  · rw [hruns] at hr
    by_cases hv : v = vid
    · subst hv
      rw [update_self] at hr
      obtain rfl := Option.some.inj hr
      exact hactive t s' (htarget.symm.trans htarget') hs'
    · rw [update_of_ne hv] at hr
      obtain ⟨s, hs, hcase⟩ := hstates t s' hs'
      obtain ⟨hwas, hactive'⟩ := h.running v r t s hr hrunning htarget' hs
      rcases hcase with ⟨hstatus, hsame⟩ | ⟨hnot, -⟩
      · exact ⟨hstatus.trans hwas, hsame.trans hactive'⟩
      · exact absurd hwas hnot
  · obtain ⟨s, hs, hcase⟩ := hstates t s' hs'
    rw [hruns]
    rcases hcase with ⟨hstatus, hsame⟩ | ⟨-, hentered, hnames⟩
    · obtain ⟨v, r, hactive', hr, hnames, hrlive⟩ :=
        h.verifying t s hs (hstatus.symm.trans hverifying)
      rw [hsame]
      by_cases hv : v = vid
      · subst hv
        obtain rfl := Option.some.inj (hr.symm.trans hfound)
        exact ⟨v, run', hactive', update_self .., htask.trans hnames, hlive⟩
      · exact ⟨v, r, hactive', (update_of_ne hv ..).trans hr, hnames, hrlive⟩
    · exact ⟨vid, run', hentered, update_self .., htask.trans hnames, hlive⟩
  · by_cases hv : v = vid
    · exact h.named v run (hv ▸ hfound)
    · rw [hruns, update_of_ne hv] at hr
      exact h.named v r hr

end Run

/-! ## Commands that keep the coupling -/

/-- **Commands that keep the two coupled.** -/
structure Careful (db : TaskTables) (_ : ℕ) (call : Call) (_ : ℕ → TaskInput) : Prop where
  /-- A run is started when its Task is `IMPLEMENTED`, or waits for it already. -/
  starts : ∀ ctx vid run t s, call = .run ctx (.start vid) → db.verificationRuns vid = some run →
    run.status.transitions .start = some .running → targetTask run = some t →
    db.stream "task" t ≠ [] → db.stateOf t = .ok s →
    (s.status = .implemented ∧ ∀ e, ¬Produced db ctx t "task:verify" e) ∨
      s.status = .verifying ∧ s.activeVerificationId = some vid
  /-- A run for which a Task waits is not cancelled. -/
  cancels : ∀ ctx vid run t s, call = .run ctx (.cancel vid) → db.verificationRuns vid = some run →
    run.taskId = some t → db.stateOf t = .ok s → s.status = .verifying →
    s.activeVerificationId ≠ some vid
  /-- A verification that is started on a Task names a run that is not terminal. -/
  verifies : ∀ ctx t vid s, call = .task ctx (.verify t vid) → db.stateOf t = .ok s →
    s.status = .implemented → ∃ run, db.verificationRuns vid = some run ∧ run.taskId = some t ∧
      run.status ∉ terminal
  /-- A Task is not moved away from a run that is `RUNNING`. -/
  leaves : ∀ ctx t s vid run, ((∃ reason, call = .task ctx (.requestCancel t reason)) ∨
      ∃ result, call = .task ctx (.recordResult t vid result)) →
    db.stateOf t = .ok s → s.status = .verifying → s.activeVerificationId = some vid →
    db.verificationRuns vid = some run → run.status = .running → targetTask run ≠ some t
  /-- A pass has a key under which no result of the run was recorded by another account. -/
  passes : ∀ ctx vid run t e, call = .run ctx (.verdict vid .passed) →
    db.verificationRuns vid = some run → targetTask run = some t → ¬Answered db ctx vid e

theorem taskId_of_targetTask (h : targetTask run = some t) : run.taskId = some t := by
  rw [targetTask] at h
  split_ifs at h
  rw [orElse.eq_def] at h
  split at h
  · cases h
  · cases h
  · next heq => rw [heq, h]

theorem verifying_of_transitions {current target : TaskStatus}
    (h : transitions current etype = some target) (htype : etype ∉ verificationResultEvents) :
    (current = .verifying → etype = .taskCancelRequested) ∧
      (target = .verifying → current = .implemented ∧ etype = .taskVerificationStarted) := by
  rw [transitions.eq_def] at h
  split at h
  all_goals
    first
    | cases h; done
    | skip
  all_goals
    obtain rfl := Option.some.inj h
    refine ⟨fun h ↦ ?_, fun h ↦ ?_⟩
    all_goals first
      | exact ⟨rfl, rfl⟩
      | rfl
      | exact absurd (by decide) htype
      | cases h

theorem Coupled.none_running (h : Coupled db) (hs : db.stateOf t = .ok s)
    (hnot : s.status ≠ .verifying) : ∀ vid run,
    db.verificationRuns vid = some run → run.status = .running → targetTask run ≠ some t :=
  fun vid run hrun hrunning htarget ↦ hnot (h.running vid run t s hrun hrunning htarget hs).1

theorem Coupled.transition (hdb : db.Sound n) (h : Coupled db)
    (hmove : Moved db n t etype s₀ e s₁ db' n') (hresult : etype ∉ verificationResultEvents)
    (hleaves : etype = .taskCancelRequested → s₀.status = .verifying → ∀ vid run,
    s₀.activeVerificationId = some vid → db.verificationRuns vid = some run → run.status = .running
    → targetTask run ≠ some t) (henters : etype = .taskVerificationStarted → s₀.status =
    .implemented → ∃ vid run, s₁.activeVerificationId = some vid ∧ db.verificationRuns vid = some
    run ∧ run.taskId = some t ∧ run.status ∉ terminal) : Coupled db' := by
  refine h.tasks hmove.step.verificationRuns fun u s' hs' ↦ ?_
  obtain ⟨s, hs, hcase⟩ := alike_of_step hdb hmove.step hs'
  refine ⟨s, hs, ?_⟩
  rcases hcase with hsame | ⟨rfl, rfl, rfl⟩
  · exact .inl hsame
  obtain ⟨hout, hin⟩ := verifying_of_transitions hmove.legal hresult
  by_cases htarget : s'.status = .verifying
  · obtain ⟨himplemented, htype⟩ := hin htarget
    exact .inr (.inr ⟨by rw [himplemented]; decide, henters htype himplemented⟩)
  · refine .inr (.inl ⟨htarget, fun vid run hrun hrunning htask ↦ ?_⟩)
    obtain ⟨hwas, hactive⟩ := h.running vid run u s hrun hrunning htask hs
    exact hleaves (hout hwas) hwas vid run hactive hrun hrunning htask

theorem Coupled.mayJoin (hdb : db.Sound n) (h : Coupled db)
    (hjoin : MayJoin inp db n child db' n') : Coupled db' := by
  refine h.tasks hjoin.verificationRuns fun u s' hs' ↦ ?_
  obtain ⟨s, hs, hsame⟩ := alike_of_mayJoin hdb hjoin hs'
  exact ⟨s, hs, .inl hsame⟩

theorem Coupled.noted (hdb : db.Sound n) (h : Coupled db) (hnote : Noted db n e db' n')
    (htype : e.type ∉ verificationResultEvents) : Coupled db' := by
  refine h.tasks hnote.verificationRuns fun u s' hs' ↦ ?_
  obtain ⟨s, hs, hcase⟩ := alike_of_noted hdb hnote hs'
  rcases hcase with hsame | ⟨hresult, -⟩
  · exact ⟨s, hs, .inl hsame⟩
  · exact absurd hresult htype

theorem isPrefixOf_newVerificationId (cfg : Config) (ctx : Context) :
    (idPrefix "verification_run").toList.isPrefixOf (newVerificationId cfg ctx).toList = true := by
  rw [newVerificationId, String.toList_append, List.isPrefixOf_iff_prefix]
  exact List.prefix_append _ _

theorem Coupled.insertRun (h : Coupled db) (fresh : db.verificationRuns run.verificationId = none)
    (planned : run.status = .planned) (named : run.verificationId = newVerificationId cfg ctx) :
    Coupled (db.apply (.insertRun run)) := by
  have hkept : ∀ vid r, db.verificationRuns vid = some r →
      (db.apply (.insertRun run)).verificationRuns vid = some r := by
    intro vid r hr
    have hne : vid ≠ run.verificationId := by
      rintro rfl
      rw [fresh] at hr
      cases hr
    exact (update_of_ne hne ..).trans hr
  refine ⟨fun vid r t s hr hrunning htarget hs ↦ ?_, fun t s hs hverifying ↦ ?_, fun vid r hr ↦ ?_⟩
  · by_cases hvid : vid = run.verificationId
    · subst hvid
      obtain rfl : run = r := by simpa [TaskTables.apply] using hr
      rw [planned] at hrunning
      cases hrunning
    · refine h.running vid r t s ?_ hrunning htarget hs
      simpa [TaskTables.apply, update_of_ne hvid] using hr
  · obtain ⟨vid, r, hactive, hr, hnames, hlive⟩ := h.verifying t s hs hverifying
    exact ⟨vid, r, hactive, hkept vid r hr, hnames, hlive⟩
  · by_cases hvid : vid = run.verificationId
    · rw [hvid, named]
      exact isPrefixOf_newVerificationId cfg ctx
    · refine h.named vid r ?_
      simpa [TaskTables.apply, update_of_ne hvid] using hr

theorem Coupled.create (hdb : db.Sound n) (h : Coupled db) (hcreated : Created db n t e s' db' n') :
    Coupled db' := by
  refine h.tasks hcreated.step.verificationRuns fun u s' hs' ↦ ?_
  obtain ⟨s, hs, hcase⟩ := alike_of_step hdb hcreated.step hs'
  refine ⟨s, hs, ?_⟩
  rcases hcase with hsame | ⟨rfl, rfl, rfl⟩
  · exact .inl hsame
  · refine .inr (.inl ⟨?_, h.none_running hs (show TaskStatus.open' ≠ .verifying by decide)⟩)
    rw [hcreated.created, status_create]
    decide

theorem alike_of_resulted (hdb : db.Sound n) (h : Resulted db n t vid result s₀ e s₁ mid k)
    (hjoin : result = .passed ∧ MayJoin inp mid k s₁ db' n' ∨ result ≠ .passed ∧ db' = mid ∧ n' = k)
    (hs' : db'.stateOf u = .ok s') :
    ∃ s, db.stateOf u = .ok s ∧ (u ≠ t ∧ Alike s s' ∨ u = t ∧ s = s₀ ∧ s'.status ≠ .verifying) := by
  have hmid : ∀ r, mid.stateOf u = .ok r → ∃ s, db.stateOf u = .ok s ∧ (u ≠ t ∧ Alike s r ∨
      u = t ∧ s = s₀ ∧ r.status ≠ .verifying) := by
    intro r hr
    by_cases hu : u = t
    · subst hu
      obtain rfl := ok.inj (h.step.stateOf.symm.trans hr)
      exact ⟨s₀, h.step.folded, .inr ⟨rfl, rfl,
        (verifying_of_result (resultType_mem result) h.legal).2⟩⟩
    · rw [h.step.stateOf_of_ne hdb hu] at hr
      exact ⟨r, hr, .inl ⟨hu, rfl, rfl⟩⟩
  rcases hjoin with ⟨-, hjoin⟩ | ⟨-, rfl, rfl⟩
  · obtain ⟨r, hr, hstatus, hactive⟩ := alike_of_mayJoin (h.step.sound hdb) hjoin hs'
    obtain ⟨s, hs, hcase⟩ := hmid r hr
    refine ⟨s, hs, ?_⟩
    rcases hcase with ⟨hu, hstatus', hactive'⟩ | ⟨hu, heq, hleft⟩
    · exact .inl ⟨hu, hstatus.trans hstatus', hactive.trans hactive'⟩
    · exact .inr ⟨hu, heq, by rwa [hstatus]⟩
  · exact hmid s' hs'

theorem exists_of_verifying (hdb : db.Sound n) (hs : db.stateOf t = .ok s)
    (hverifying : s.status = .verifying) : s.exists' = true := by
  rw [hdb.exists_iff hs]
  rintro hnil
  obtain rfl := ok.inj ((hdb.unborn t hnil).symm.trans hs)
  cases hverifying

theorem Coupled.verdict (hdb : db.Sound n) (h : Coupled db)
    (hmove : RunMoved db vid (.verdict result) run target)
    (hpasses : result = .passed → ∀ t e, targetTask run = some t → ¬Answered db ctx vid e)
    {revision : ℕ} (hdelivered : Delivered inp db n ctx vid run result mid k) :
    Coupled (mid.apply (.setRunResult vid revision result)) := by
  have hrunning : run.status = .running := by
    have hlegal := hmove.legal
    rw [VerificationStatus.transitions.eq_def] at hlegal
    split at hlegal <;> simp_all
  have hstopped : result.status ≠ .running := by cases result <;> decide
  have hruns : (mid.apply (.setRunResult vid revision result)).verificationRuns =
      update db.verificationRuns vid (some { run with
        status := result.status, currentRevision := revision, result := some result }) := by
    simp only [TaskTables.apply, hdelivered.verificationRuns, hmove.found, Option.map_some]
  refine h.stop hmove.found hruns rfl hstopped fun u s' hs' ↦ ?_
  cases hdelivered with
  | noted e _ note type run' task =>
    obtain ⟨s, hs, hcase⟩ := alike_of_noted hdb note hs'
    refine ⟨s, hs, ?_⟩
    rcases hcase with hsame | ⟨-, hleft, hactive⟩
    · refine .inl ⟨hsame, fun hwas hactive hnames hterm ↦ ?_⟩
      -- the Task that waits for the run is moved by the Event
      have hmem : e.type ∈ verificationResultEvents := type ▸ resultType_mem result
      obtain ⟨hkind, hpayload, -⟩ := note.formed.result hmem
      have hresult : IsResult e u vid result := ⟨type, hkind, run', task.trans hnames,
        by rw [hpayload, run'], note.formed.numbered⟩
      obtain ⟨target, hlegal, happly⟩ := hresult.applies (taskId_of_stateOf hs)
        (exists_of_verifying hdb hs hwas) hwas hactive
      have hevents : mid.events = db.events ++ [e] := by rw [note.eq]; rfl
      have hs'' : mid.stateOf u = .ok s' := hs'
      rw [stateOf_append hevents, hs] at hs''
      obtain rfl := ok.inj (happly.symm.trans hs'')
      exact (verifying_of_result (resultType_mem result) hlegal).2 (hsame.1.trans hwas)
    · exact .inr ⟨hleft, by rw [hactive, run']⟩
  | replayed t s e task _ prior =>
    refine ⟨s', hs', .inl ⟨⟨rfl, rfl⟩, fun _ _ _ hterm ↦ ?_⟩⟩
    have hpassed : result = .passed := by
      cases result with
      | passed => rfl
      | failed => exact absurd hterm (show VerificationStatus.failed ∉ _ by decide)
      | blocked => exact absurd hterm (show VerificationStatus.blocked ∉ _ by decide)
    exact hpasses hpassed t e task prior
  | resulted t _ e _ _ _ task outcome join =>
    obtain ⟨s, hs, hcase⟩ := alike_of_resulted hdb outcome join hs'
    refine ⟨s, hs, ?_⟩
    rcases hcase with ⟨hu, hsame⟩ | ⟨-, rfl, hleft⟩
    · refine .inl ⟨hsame, fun _ _ hnames ↦ ?_⟩
      rw [taskId_of_targetTask task] at hnames
      exact absurd (Option.some.inj hnames).symm hu
    · exact .inr ⟨hleft, outcome.active⟩

theorem Coupled.enter (hdb : db.Sound n) (h : Coupled db)
    (hmove : RunMoved db vid .start run target) (hstarts : ∀ t s, targetTask run = some t →
    db.stream "task" t ≠ [] → db.stateOf t = .ok s → (s.status = .implemented ∧ ∀ e, ¬Produced db
    ctx t "task:verify" e) ∨ s.status = .verifying ∧ s.activeVerificationId = some vid)
    (hentered : Entered (db.apply (.setRunStatus vid target)) n ctx vid run db' n') :
    Coupled db' := by
  have hmid : (db.apply (.setRunStatus vid target)).Sound n := hdb.congr rfl
  have hlive : target ∉ terminal := fun hterm ↦ by
    rcases terminal_of_transitions hmove.legal hterm with ⟨hop, -⟩ | hop <;> cases hop
  have hruns : db'.verificationRuns =
      update db.verificationRuns vid (some { run with status := target }) := by
    rw [hentered.verificationRuns]
    simp only [TaskTables.apply, hmove.found, Option.map_some]
  have hsame : ∀ {u : String} {s' : TaskState}, db' = db.apply (.setRunStatus vid target) →
      db'.stateOf u = .ok s' → db.stateOf u = .ok s' := fun heq hs' ↦ by
    rw [heq] at hs'
    exact hs'
  refine h.start hmove.found hruns rfl hlive rfl ?_ ?_
  · intro u s' htarget hs'
    cases hentered with
    | noTask none =>
      rw [none] at htarget
      cases htarget
    | notImplemented t s task folded born status =>
      obtain rfl := Option.some.inj (task.symm.trans htarget)
      have hs := hsame rfl hs'
      rcases hstarts t s' task born hs with ⟨himplemented, -⟩ | hverifying
      · obtain rfl := ok.inj (folded.symm.trans hs)
        exact absurd himplemented status
      · exact hverifying
    | replayed t s e task _ prior =>
      obtain rfl := Option.some.inj (task.symm.trans htarget)
      have hs := hsame rfl hs'
      have hborn : db.stream "task" t ≠ [] := List.ne_nil_of_mem prior.1
      rcases hstarts t s' task hborn hs with ⟨-, hnew⟩ | hverifying
      · exact absurd prior (hnew e)
      · exact hverifying
    | moved t s e _ task move active =>
      obtain rfl := Option.some.inj (task.symm.trans htarget)
      obtain rfl := ok.inj (move.step.stateOf.symm.trans hs')
      have hlegal := move.legal
      refine ⟨?_, active⟩
      rw [transitions.eq_def] at hlegal
      split at hlegal <;> simp_all
  · intro u s' hs'
    cases hentered with
    | noTask | notImplemented | replayed =>
      exact ⟨s', hsame rfl hs', .inl ⟨rfl, rfl⟩⟩
    | moved t s e _ task move active =>
      obtain ⟨r, hr, hcase⟩ := alike_of_step hmid move.step hs'
      refine ⟨r, hr, ?_⟩
      rcases hcase with hsame' | ⟨rfl, rfl, rfl⟩
      · exact .inl hsame'
      · refine .inr ⟨fun hverifying ↦ ?_, active, taskId_of_targetTask task⟩
        have hout := (verifying_of_transitions move.legal (by decide)).1 hverifying
        cases hout

/-- **Careful commands keep Tasks and runs coupled.** -/
theorem Performed.coupled (hdb : db.Sound n) (h : Coupled db) (hcareful : Careful db n call inp)
    (hperformed : Performed cfg inp db n call db' n') : Coupled db' := by
  cases hperformed with
  | idle => exact h
  | created _ _ t e _ creation => exact h.create hdb creation
  | subtask ctx cmd t e s' edge creation later =>
    rename_i k mid
    have hmid := h.create hdb creation
    exact ⟨hmid.running, hmid.verifying, hmid.named⟩
  | moved ctx call t _ s e _ target move active =>
    refine h.transition hdb move ?_ ?_ ?_
    · cases call <;> simp only [taskMove, Option.some.injEq, Prod.mk.injEq, reduceCtorEq] at target
      all_goals
        rw [← target.2]
        decide
    · rintro rfl hverifying vid run hactive hrun hrunning
      refine hcareful.leaves ctx t s vid run (.inl ?_) move.step.folded hverifying hactive hrun
        hrunning
      cases call with
      | requestCancel u reason =>
        obtain rfl : u = t := by simpa [taskMove] using target
        exact ⟨reason, rfl⟩
      | _ => simp [taskMove] at target
    · rintro rfl himplemented
      cases call with
      | verify u vid =>
        obtain rfl : u = t := by simpa [taskMove] using target
        obtain ⟨run, hrun, hnames, hlive⟩ :=
          hcareful.verifies ctx u vid s rfl move.step.folded himplemented
        exact ⟨vid, run, active vid rfl, hrun, hnames, hlive⟩
      | _ => simp [taskMove] at target
  | completed _ t _ s e _ move join =>
    refine Coupled.mayJoin (move.step.sound hdb) ?_ join
    exact h.transition hdb move (by decide) (fun hne ↦ (by cases hne)) fun hne ↦ (by cases hne)
  | resulted ctx t vid result s e _ outcome join =>
    have hruns : db'.verificationRuns = db.verificationRuns := by
      rcases join with ⟨-, join⟩ | ⟨-, rfl, rfl⟩
      · exact join.verificationRuns.trans outcome.step.verificationRuns
      · exact outcome.step.verificationRuns
    refine h.tasks hruns fun u r hr ↦ ?_
    obtain ⟨q, hq, hcase⟩ := alike_of_resulted hdb outcome join hr
    refine ⟨q, hq, ?_⟩
    rcases hcase with ⟨-, hsame⟩ | ⟨rfl, rfl, hleft⟩
    · exact .inl hsame
    · refine .inr (.inl ⟨hleft, fun v x hx hrunning htarget ↦ ?_⟩)
      obtain ⟨-, hactive⟩ := h.running v x u q hx hrunning htarget hq
      obtain rfl := Option.some.inj (outcome.active.symm.trans hactive)
      exact hcareful.leaves ctx u q vid x (.inr ⟨result, rfl⟩) hq outcome.verifying outcome.active hx
        hrunning htarget
  | criteria _ t _ e note type =>
    exact h.noted hdb note (by rw [type]; decide)
  | runCreated _ _ run e fresh planned named note type =>
    have hrun : (db.apply (.insertRun run)).Sound n := hdb.congr rfl
    exact (h.insertRun fresh planned named).noted hrun note (by rw [type]; decide)
  | runInserted _ _ _ fresh planned named => exact h.insertRun fresh planned named
  | runMoved ctx call vid _ run target names move =>
    have hruns : (db.apply (.setRunStatus vid target)).verificationRuns =
        update db.verificationRuns vid (some { run with status := target }) := by
      simp only [TaskTables.apply, move.found, Option.map_some]
    have hstopped : target ≠ .running := by
      rintro rfl
      obtain rfl := running_of_transitions move.legal
      cases call <;> simp [runMove] at names
    refine h.stop move.found hruns rfl hstopped
      fun u s' hs' ↦ ?_
    refine ⟨s', hs', .inl ⟨⟨rfl, rfl⟩, fun hwas hactive hnames hterm ↦ ?_⟩⟩
    have hcancel : call = .cancel vid := by
      rcases terminal_of_transitions move.legal hterm with ⟨rfl, -⟩ | rfl
      · cases call <;> simp [runMove] at names
      · cases call with
        | cancel v =>
          obtain rfl : v = vid := by simpa [runMove] using names
          rfl
        | _ => simp [runMove] at names
    subst hcancel
    exact hcareful.cancels ctx vid run u s' rfl move.found hnames hs' hwas hactive
  | runStarted ctx vid run target move _ entered =>
    have htarget : target = .running := by
      have hlegal := move.legal
      rw [VerificationStatus.transitions.eq_def] at hlegal
      split at hlegal <;> simp_all
    subst htarget
    exact h.enter hdb move (fun t s htask hborn hs ↦
      hcareful.starts ctx vid run t s rfl move.found move.legal htask hborn hs) entered
  | verdict ctx vid _ run _ move _ delivered =>
    refine h.verdict hdb move (fun hpassed t e htask ↦ ?_) delivered
    subst hpassed
    exact hcareful.passes ctx vid run t e rfl move.found htask
  | scheduled => exact ⟨h.running, h.verifying, h.named⟩

/-- **A verification can always land.** In a history of careful commands, in every state that is
reached: a run that is `RUNNING` is the active one of its Task, which is in `VERIFYING`; and a Task
in `VERIFYING` has an active run that is not terminal and can be brought to a verdict that reaches
the Task. -/
theorem verification_lands {m : ℕ} (h : (taskDatabase cfg).History (body cfg) Careful {} m db n) :
    (∀ vid run t s, db.verificationRuns vid = some run → run.status = .running →
      targetTask run = some t → db.stateOf t = .ok s →
      s.status = .verifying ∧ s.activeVerificationId = some vid) ∧
    ∀ t s, db.stateOf t = .ok s → s.status = .verifying →
      ∃ vid run, s.activeVerificationId = some vid ∧ db.verificationRuns vid = some run ∧
        run.status ∉ terminal ∧ CanLand cfg db n t vid := by
  have hempty : Coupled {} := by
    refine ⟨fun _ _ _ _ hrun ↦ (by cases hrun), fun t s hs hverifying ↦ ?_,
      fun _ _ hrun ↦ (by cases hrun)⟩
    obtain rfl := ok.inj hs
    cases hverifying
  obtain ⟨hdb, hindexed, hcoupled⟩ := history_invariant (I := Coupled) hempty
    (fun db n call inp db' n' hdb _ hI hcareful hperformed ↦
      hperformed.coupled hdb hI hcareful) h
  refine ⟨hcoupled.running, fun t s hs hverifying ↦ ?_⟩
  obtain ⟨vid, run, hactive, hrun, hnames, hlive⟩ := hcoupled.verifying t s hs hverifying
  have hborn := (hdb.exists_iff hs).1 (exists_of_verifying hdb hs hverifying)
  exact ⟨vid, run, hactive, hrun, hlive, canLand_of_pending hdb ⟨hrun, hnames, hlive, hborn,
    ⟨s, hs, hverifying, hactive⟩, hindexed vid run hrun, hcoupled.named vid run hrun⟩⟩

end

namespace Sample

def taskRun : CreateVerificationRun where
  targetType := "task"
  targetId := "task-1"
  implementerAccountId := "agent-2"
  verifierAccountId := "agent-1"
  implementerCredentialFingerprint := "a"
  verifierCredentialFingerprint := "b"
  taskId := some "task-1"

def assigned : List Call := [task, .run (verifier "run") (.create taskRun),
  .run (verifier "assign") (.assign runId)]

def started : List Call := assigned ++ [.run (verifier "start") (.start runId)]

def implemented : List Call := assigned ++ [
  .task (caller "delegate") (.delegate "task-1" "agent-1" "fits"),
  .task (verifier "accept") (.accept "task-1"), .task (verifier "begin") (.start "task-1"),
  .task (verifier "submit") (.submit "task-1" 1)]

def verifying : List Call := implemented ++ [.run (verifier "start") (.start runId)]

theorem careful_implemented (pre : List Call) (call : Call) (post : List Call)
    (h : implemented = pre ++ call :: post) : Careful (after pre).1 (after pre).2 call ticking := by
  have hcall : call ∈ implemented := by
    rw [h]
    exact List.mem_append_right pre List.mem_cons_self
  simp only [implemented, assigned, task, List.mem_append, List.mem_cons, List.not_mem_nil,
    or_false] at hcall
  -- none of these commands starts, cancels or decides a verification
  rcases hcall with (rfl | rfl | rfl) | rfl | rfl | rfl | rfl
  all_goals
    constructor
    · intro _ _ _ _ _ hne
      cases hne
    · intro _ _ _ _ _ hne
      cases hne
    · intro _ _ _ _ hne
      cases hne
    · rintro _ _ _ _ _ (⟨_, hne⟩ | ⟨_, hne⟩) <;> cases hne
    · intro _ _ _ _ _ hne
      cases hne

theorem careful_start : Careful (after implemented).1 (after implemented).2
    (.run (verifier "start") (.start runId)) ticking := by
  constructor
  · intro ctx vid run t s hcall hrun _ htarget _ hs
    cases hcall
    have htask : ((after implemented).1.verificationRuns runId).all
        (fun run ↦ targetTask run = some "task-1") = true := by
      decide
    rw [hrun] at htask
    obtain rfl : "task-1" = t := Option.some.inj ((of_decide_eq_true htask).symm.trans htarget)
    obtain ⟨s', hs', himplemented⟩ := stateOf_of_statusIn
      (show statusIn (after implemented).1 = some .implemented by decide)
    obtain rfl := ok.inj (hs.symm.trans hs')
    refine .inl ⟨himplemented, fun e ⟨he, hscope, _⟩ ↦ ?_⟩
    have hnone : ∀ e ∈ (after implemented).1.stream "task" "task-1",
        e.idempotencyScope ≠ "task:verify" := by
      decide
    exact hnone e he hscope
  · intro _ _ _ _ _ hne
    cases hne
  · intro _ _ _ _ hne
    cases hne
  · rintro _ _ _ _ _ (⟨_, hne⟩ | ⟨_, hne⟩) <;> cases hne
  · intro _ _ _ _ _ hne
    cases hne

end Sample

open Sample

/-- The run that was started can be brought to a verdict. -/
theorem verification_lands_verifying :
    ∃ vid run, (after verifying).1.verificationRuns vid = some run ∧ run.status ∉ terminal ∧
      CanLand config (after verifying).1 (after verifying).2 "task-1" vid := by
  have hhistory : (taskDatabase config).History (body config) Careful {} 0
      (after verifying).1 (after verifying).2 := by
    have hlast := History.step (.run (verifier "start") (.start runId)) ticking
      (after_history _ careful_implemented) careful_start
    rw [verifying, after, List.foldl_append]
    exact hlast
  obtain ⟨s, hs, hverifying⟩ := stateOf_of_statusIn
    (show statusIn (after verifying).1 = some .verifying by decide)
  obtain ⟨vid, run, -, hrun, hlive, hland⟩ := (verification_lands hhistory).2 _ s hs hverifying
  exact ⟨vid, run, hrun, hlive, hland⟩

/-- A run is `RUNNING` and its Task is `OPEN`. -/
theorem running_run_of_open_task : ¬∀ (cfg : Config) (m n : ℕ) (db : TaskTables),
    (taskDatabase cfg).History (body cfg) (fun _ _ _ _ ↦ True) {} m db n →
    (∀ vid run t s, db.verificationRuns vid = some run → run.status = .running →
      targetTask run = some t → db.stateOf t = .ok s →
      s.status = .verifying ∧ s.activeVerificationId = some vid) ∧
    ∀ t s, db.stateOf t = .ok s → s.status = .verifying →
      ∃ vid run, s.activeVerificationId = some vid ∧ db.verificationRuns vid = some run ∧
        run.status ∉ terminal ∧ CanLand cfg db n t vid := by
  intro h
  obtain ⟨hrunning, -⟩ := h _ _ _ _ (after_history Sample.started fun _ _ _ _ ↦ trivial)
  have hrun : ((after Sample.started).1.verificationRuns runId).any
      (fun run ↦ run.status = .running && targetTask run = some "task-1") = true := by
    decide
  obtain ⟨run, hfound, hstatus⟩ := (Option.any_eq_true _ _).1 hrun
  simp only [Bool.and_eq_true, decide_eq_true_eq] at hstatus
  obtain ⟨s, hs, hopen⟩ := stateOf_of_statusIn
    (show statusIn (after Sample.started).1 = some .open' by decide)
  have hverifying := (hrunning _ run _ s hfound hstatus.1 hstatus.2 hs).1
  rw [hopen] at hverifying
  cases hverifying

end AgentColab.Verification
