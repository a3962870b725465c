import AgentColab.Verdicts.Quiet

/-!
# Separation of duty on verdicts

A revision is recorded by its run's verifier, from a credential that is not the implementer's and
under aliases that do not lead to the implementer. The aliases it was checked against are those of
the store in which its transaction started.
-/

namespace AgentColab.Verdicts

open Transaction List Option
open Verification (Verdict VerificationStatus nextStatus)
open Approvals (AliasGraph effectivePrincipal)
open Database (History returns_do returns_raise returns_ret)

variable {α : Type} {cfg : Config} {ctx : CommandContext} {inp : ℕ → Input} {s s' : Store} {n : ℕ}

/-! ## The effect of a submission -/

/-- The report of a revision is one that the validator accepts for its result. -/
def Accepted (r : RevisionRow) : Prop :=
  ∃ report, readReport r.report = some report ∧ report.result = r.result ∧
    (r.result = .passed → report.Justified)

/-- The submitter of the revision is the verifier of the run, and nobody who stands for the
implementer. -/
structure Independent (graph : AliasGraph) (run : RunRow) (r : RevisionRow) : Prop where
  verifier : r.submittedByAccountId = run.parties.verifier.accountId
  principal : effectivePrincipal r.submittedByAccountId graph ≠
    effectivePrincipal run.parties.implementer.accountId graph
  fingerprint : r.submitterCredentialFingerprint ≠ run.parties.implementer.credentialFingerprint

/-- From the first store to the second, one revision of this run was recorded. -/
structure Recorded (run : RunRow) (r : RevisionRow) (s s' : Store) : Prop where
  run_eq : s.run r.verificationId = some run
  revisions : s'.revisions = s.revisions ++ [r]
  revision : r.revision = run.currentRevision + 1
  runs : ∀ vid, s'.run vid =
    if r.verificationId = vid then some (run.withResult r.revision r.result) else s.run vid
  independent : Independent (s.graph run.workspaceId) run r
  accepted : Accepted r

theorem returns_ask {o : Op} {Q : Res o → Store → ℕ → Prop}
    (h : Q (execStatement (inp n) n (fun _ ↦ false) s o).result
      (database.view s (execStatement (inp n) n (fun _ ↦ false) s o).writes) (n + 1)) :
    database.Returns inp (ask o) Q s n := Database.returns_issue.2 h

variable {Q : α → Store → ℕ → Prop} {vid : String} {x : Except VerdictError α} {run : RunRow}
    {result : Verdict} {findings : List Finding} {n' n₀ : ℕ} {s₀ : Store} {r : RevisionRow}
    {revisions : List RevisionRow}

theorem returns_orRaise {x : Except CommandError α} (h : ∀ a, x = .ok a → Q a s n) :
    database.Returns inp (orRaise x) Q s n := by
  rcases x with e | a
  · exact returns_raise
  · exact returns_ret.2 (h a rfl)

theorem returns_external {call : External} {Q : Option String → Store → ℕ → Prop}
    (h : ∀ a, Q a s (n + 1)) : database.Returns inp (external call) Q s n :=
  returns_do (returns_ask (returns_orRaise fun a _ ↦ h a))

theorem returns_runOrError {Q : RunRow → Store → ℕ → Prop}
    (h : ∀ run, s.run vid = some run → run.workspaceId = ctx.workspaceId → Q run s (n + 1)) :
    database.Returns inp (runOrError ctx vid) Q s n := by
  refine returns_do (returns_do (returns_ask ?_))
  rcases hrun : s.run vid with - | run
  · simp only [execStatement, hrun]
    exact returns_raise
  · simp only [execStatement, hrun]
    refine returns_ret.2 ?_
    split
    · next hworkspace => exact returns_ret.2 (h run hrun hworkspace)
    · exact returns_raise

theorem returns_orRejected {action : VerdictError → String} (h : ∀ a, x = .ok a → Q a s n) :
    database.Returns inp (orRejected action x) Q s n := by
  rcases x with e | a
  · exact returns_do (returns_external fun _ ↦ returns_raise)
  · exact returns_ret.2 (h a rfl)

theorem returns_orVerdictError (h : ∀ a, x = .ok a → Q a s n) :
    database.Returns inp (orVerdictError x) Q s n := by
  rcases x with e | a
  · exact returns_raise
  · exact returns_ret.2 (h a rfl)

theorem returns_verdictEvent {Q : String → Store → ℕ → Prop} (h : ∀ eventId, Q eventId s (n + 1)) :
    database.Returns inp (verdictEvent run result) Q s n := by
  rw [verdictEvent]
  split
  · exact returns_do (returns_external fun _ ↦ returns_ret.2 (h _))
  · exact returns_do (returns_external fun _ ↦ returns_ret.2 (h _))

theorem returns_findings : database.Returns inp (Prog.forEach findings fun f ↦ do
        orRaise (← ask (.insertFinding (newFinding run f))))
      (fun _ s' _ ↦ s'.revisions = s.revisions ∧ s'.runs = s.runs) s n := by
  refine Database.returns_forEach (D := database)
    (I := fun _ s' _ ↦ s'.revisions = s.revisions ∧ s'.runs = s.runs) ⟨rfl, rfl⟩ ?_
  rintro f rest s₁ n₁ hs₁
  refine returns_do (returns_ask (returns_orRaise fun _ _ ↦ ?_))
  simp only [execStatement, execInsertFinding]
  split_ifs
  · exact hs₁
  · exact hs₁

theorem insertRevision_cases (s : Store) (row : RevisionRow) :
    (∃ e, (execInsertRevision s row).result = .error e) ∨
      (execInsertRevision s row).result = .ok 0 ∨ (execInsertRevision s row).result = .ok 1 ∧
        (execInsertRevision s row).writes = [.insertRevision row] := by
  rw [execInsertRevision]
  split_ifs
  · exact .inr (.inl rfl)
  · exact .inl ⟨_, rfl⟩
  · exact .inr (.inr ⟨rfl, rfl⟩)

theorem returns_appendRevision {report : List (String × Json)} {eventId : String}
    (hrun : s.run run.verificationId = some run) :
    database.Returns inp (appendRevision ctx run report result findings eventId)
      (fun _ s' _ ↦ s'.revisions = s.revisions ++ [newRevision ctx run report result eventId] ∧
        ∀ vid, s'.run vid = if run.verificationId = vid then
          some (run.withResult (run.currentRevision + 1) result) else s.run vid) s n := by
  refine returns_do (returns_ask ?_)
  rw [execStatement]
  rcases insertRevision_cases s (newRevision ctx run report result eventId) with
    ⟨e, hresult⟩ | hresult | ⟨hresult, hwrites⟩
  · rw [hresult]
    exact returns_raise
  · -- the guard has inserted nothing
    rw [hresult]
    exact returns_raise
  · rw [hresult, hwrites]
    refine returns_do (returns_ret.2 (returns_do ?_))
    refine returns_findings.mono ?_
    rintro - s₁ n₁ ⟨hrevisions, hruns⟩
    refine returns_ask ⟨hrevisions, fun vid ↦ ?_⟩
    have hsame : s₁.run vid = s.run vid := by
      rw [Store.run, hruns]
      rfl
    refine (run_updateRun vid run.verificationId
      (·.withResult (run.currentRevision + 1) result) fun _ ↦ rfl).trans ?_
    split
    · next hvid =>
      rw [hsame, ← hvid, hrun]
      rfl
    · exact hsame

theorem returns_submitVerdict (cmd : SubmitVerdict) :
    database.Returns inp (submitVerdict cfg ctx cmd) (fun _ s' _ ↦ Quiet s s' ∨
      ∃ run r, Recorded run r s s' ∧ r.submittedByAccountId = ctx.accountUuid ∧
        r.submitterCredentialFingerprint = ctx.credentialFingerprint) s n := by
  refine returns_do (returns_runOrError fun run hrun hworkspace ↦ ?_)
  have hself : s.run run.verificationId = some run := (verificationId_of_run hrun).symm ▸ hrun
  refine returns_do (returns_ask ?_)
  refine returns_do (returns_orRejected fun _ hsubmitter ↦ ?_)
  obtain ⟨hverifier, hprincipal, hfingerprint⟩ := checkSubmitter_eq_ok.1 hsubmitter
  refine returns_do (returns_external fun _ ↦ returns_do (returns_external ?_))
  rintro (- | eventId)
  · refine returns_do (returns_orVerdictError fun report hreport ↦ ?_)
    obtain ⟨hread, -, hjustified⟩ := validateVerdict_eq_ok.1 hreport
    refine returns_do (returns_orRaise fun _ _ ↦ ?_)
    refine returns_do (returns_verdictEvent fun eventId ↦ returns_do ?_)
    refine (returns_appendRevision hself).mono ?_
    rintro - s₁ n₁ ⟨hrevisions, hruns⟩
    have hrecorded : Recorded run (newRevision ctx run _ report.result eventId) s s₁ := {
      run_eq := hself
      revisions := hrevisions
      revision := rfl
      runs := hruns
      independent := ⟨hverifier, hworkspace ▸ hprincipal, hfingerprint⟩
      accepted := ⟨report, hread, rfl, hjustified⟩ }
    rw [documentVerdict]
    split
    · exact returns_do (returns_external fun _ ↦
        returns_ret.2 (.inr ⟨run, _, hrecorded, rfl, rfl⟩))
    · exact returns_ret.2 (.inr ⟨run, _, hrecorded, rfl, rfl⟩)
  · exact returns_ret.2 (.inl (.refl s))

/-! ## Reachable stores -/

/-- Calls of these commands, one after the other, lead from the first store to the second. -/
abbrev Leads (cfg : Config) (s : Store) (n : ℕ) (s' : Store) (n' : ℕ) : Prop :=
  database.History (fun e : CommandContext × Call ↦ body cfg e.1 e.2) (fun _ _ _ _ ↦ True) s n s' n'

def after (cfg : Config) (ctx : CommandContext) (call : Call) (inp : ℕ → Input) (s : Store)
    (n : ℕ) : Store := (database.transact inp n s (body cfg ctx call)).1

def nextNumber (cfg : Config) (ctx : CommandContext) (call : Call) (inp : ℕ → Input) (s : Store)
    (n : ℕ) : ℕ := (database.transact inp n s (body cfg ctx call)).2

theorem leads_after (h : Leads cfg s n s' n') (ctx : CommandContext) (call : Call)
    (inp : ℕ → Input) :
    Leads cfg s n (after cfg ctx call inp s' n') (nextNumber cfg ctx call inp s' n') :=
  History.step (D := database) (ctx, call) inp h trivial

theorem after_cases (cfg : Config) (ctx : CommandContext) (call : Call) (inp : ℕ → Input)
    (s : Store) (n : ℕ) : Quiet s (after cfg ctx call inp s n) ∨
      ∃ run r, Recorded run r s (after cfg ctx call inp s n) ∧
        r.submittedByAccountId = ctx.accountUuid ∧
        r.submitterCredentialFingerprint = ctx.credentialFingerprint := by
  by_cases hcall : ∃ cmd, call = .verdict cmd
  · obtain ⟨cmd, rfl⟩ := hcall
    exact (returns_submitVerdict cmd).transact fun _ _ ↦ .inl (.refl s)
  · exact .inl ((silent_body fun cmd h ↦ hcall ⟨cmd, h⟩).returns.transact fun _ _ ↦ .refl s)

theorem parties_after (cfg : Config) (ctx : CommandContext) (call : Call) (inp : ℕ → Input) (n : ℕ)
    (hrun : s.run vid = some run) :
    ∃ run', (after cfg ctx call inp s n).run vid = some run' ∧ run'.parties = run.parties := by
  rcases after_cases cfg ctx call inp s n with hquiet | ⟨run', r, hrecorded, -⟩
  · have hkept := hquiet.run vid
    rw [hrun] at hkept
    rcases hnext : (after cfg ctx call inp s n).run vid with - | run'
    · rw [hnext] at hkept
      exact hkept.elim
    · rw [hnext] at hkept
      exact ⟨run', rfl, hkept.1⟩
  · rw [hrecorded.runs vid]
    split
    · next hvid =>
      have heq : run' = run := some.inj (hrecorded.run_eq.symm.trans (hvid ▸ hrun))
      exact ⟨_, rfl, heq ▸ rfl⟩
    · exact ⟨run, hrun, rfl⟩

theorem parties_of_leads (h : Leads cfg s n s' n') (hrun : s.run vid = some run) :
    ∃ run', s'.run vid = some run' ∧ run'.parties = run.parties := by
  refine History.induct (D := database)
    (P := fun s' _ ↦ ∃ run', Store.run s' vid = some run' ∧ run'.parties = run.parties)
    ⟨run, hrun, rfl⟩ ?_ h
  rintro s₁ n₁ ⟨ctx, call⟩ inp - - ⟨run₁, hrun₁, hparties⟩
  obtain ⟨run₂, hrun₂, hparties₂⟩ := parties_after cfg ctx call inp n₁ hrun₁
  exact ⟨run₂, hrun₂, hparties₂.trans hparties⟩

/-- The revision was recorded by a call on the way from `s₀` to `s`. -/
def Submitted (cfg : Config) (s₀ : Store) (n₀ : ℕ) (s : Store) (n : ℕ) (r : RevisionRow) : Prop :=
  ∃ ctx call inp s₁ n₁ run, Leads cfg s₀ n₀ s₁ n₁ ∧
    Recorded run r s₁ (after cfg ctx call inp s₁ n₁) ∧
    Leads cfg (after cfg ctx call inp s₁ n₁) (nextNumber cfg ctx call inp s₁ n₁) s n ∧
    r.submittedByAccountId = ctx.accountUuid ∧
    r.submitterCredentialFingerprint = ctx.credentialFingerprint

theorem Submitted.step (h : Submitted cfg s₀ n₀ s n r) (ctx : CommandContext) (call : Call)
    (inp : ℕ → Input) :
    Submitted cfg s₀ n₀ (after cfg ctx call inp s n) (nextNumber cfg ctx call inp s n) r := by
  obtain ⟨ctx', call', inp', s₁, n₁, run, hlead, hrecorded, hrest, hsubmitter⟩ := h
  exact ⟨ctx', call', inp', s₁, n₁, run, hlead, hrecorded, leads_after hrest ctx call inp,
    hsubmitter⟩

theorem submitted_of_leads (hs₀ : s₀.revisions = []) (h : Leads cfg s₀ n₀ s n) :
    ∀ r ∈ s.revisions, Submitted cfg s₀ n₀ s n r := by
  refine History.induct (D := database)
    (P := fun s n ↦ ∀ r ∈ Store.revisions s, Submitted cfg s₀ n₀ s n r) ?_ ?_ h
  · intro r hr
    rw [hs₀] at hr
    exact absurd hr not_mem_nil
  · rintro s n ⟨ctx, call⟩ inp hlead - ih r hr
    rcases after_cases cfg ctx call inp s n with hquiet | ⟨run, r', hrecorded, hsubmitter⟩
    · exact (ih r (hquiet.revisions ▸ hr)).step ctx call inp
    · have hmem : r ∈ s.revisions ++ [r'] := hrecorded.revisions ▸ hr
      rcases mem_append.1 hmem with hold | hnew
      · exact (ih r hold).step ctx call inp
      · obtain rfl := mem_singleton.1 hnew
        exact ⟨ctx, call, inp, s, n, run, hlead, hrecorded, .refl, hsubmitter⟩

/-! ## The numbers of the revisions -/

/-- What a run says about its revisions is true of them. -/
structure RunRow.Counts (run : RunRow) (revisions : List RevisionRow) : Prop where
  numbers : revisions.map (·.revision) = List.range' 1 run.currentRevision
  result : run.result = revisions.getLast?.map (·.result)
  passed : run.status = .passed → run.result = some .passed

/-- Every run counts its revisions, and there are no others. -/
structure Store.Counted (s : Store) : Prop where
  counts : ∀ vid run, s.run vid = some run → run.Counts (s.revisionsOf vid)
  others : ∀ vid, s.run vid = none → s.revisionsOf vid = []

theorem Store.Counted.quiet (h : s.Counted) (hquiet : Quiet s s') : s'.Counted := by
  have hrevisions (vid : String) : s'.revisionsOf vid = s.revisionsOf vid := by
    rw [Store.revisionsOf, hquiet.revisions, Store.revisionsOf]
  constructor
  · intro vid run' hrun'
    have hkept := hquiet.run vid
    rw [hrun'] at hkept
    rw [hrevisions]
    rcases hrun : s.run vid with - | run
    · -- a new run has no revisions
      rw [hrun] at hkept
      obtain ⟨hrevision, hresult, hstatus⟩ := hkept
      rw [h.others vid hrun]
      exact ⟨by rw [hrevision]; rfl, hresult, fun hp ↦ absurd hp hstatus⟩
    · rw [hrun] at hkept
      obtain ⟨-, -, hrevision, hresult, hstatus⟩ := hkept
      have hcounts := h.counts vid run hrun
      exact ⟨hrevision ▸ hcounts.numbers, hresult ▸ hcounts.result,
        fun hp ↦ hresult ▸ hcounts.passed (hstatus hp)⟩
  · intro vid hrun'
    have hkept := hquiet.run vid
    rw [hrun'] at hkept
    rw [hrevisions]
    rcases hrun : s.run vid with - | run
    · exact h.others vid hrun
    · rw [hrun] at hkept
      exact hkept.elim

theorem RunRow.Counts.withResult (h : run.Counts revisions)
    (hr : r.revision = run.currentRevision + 1) :
    (run.withResult r.revision r.result).Counts (revisions ++ [r]) where
  numbers := by
    -- the numbers go on by one
    rw [map_append, h.numbers, RunRow.withResult, hr, range'_concat]
    simp [hr, Nat.add_comm]
  result := by simp [RunRow.withResult]
  passed hp := by
    have hresult : r.result.status = .passed := hp
    rcases hverdict : r.result with - | - | -
    · rfl
    · rw [hverdict] at hresult
      exact nomatch hresult
    · rw [hverdict] at hresult
      exact nomatch hresult

theorem Store.Counted.recorded (h : s.Counted) (hr : Recorded run r s s') : s'.Counted := by
  have hrevisions (vid : String) : s'.revisionsOf vid =
      s.revisionsOf vid ++ if r.verificationId = vid then [r] else [] := by
    rw [Store.revisionsOf, hr.revisions, filter_append, Store.revisionsOf]
    by_cases hvid : r.verificationId = vid <;> simp [hvid]
  constructor
  · intro vid run' hrun'
    rw [hr.runs] at hrun'
    rw [hrevisions]
    split at hrun'
    · next hvid =>
      cases hrun'
      rw [if_pos hvid]
      exact (h.counts vid run (hvid ▸ hr.run_eq)).withResult hr.revision
    · next hvid =>
      rw [if_neg hvid, append_nil]
      exact h.counts vid run' hrun'
  · intro vid hrun'
    rw [hr.runs] at hrun'
    rw [hrevisions]
    split at hrun'
    · cases hrun'
    · next hvid =>
      rw [if_neg hvid, append_nil]
      exact h.others vid hrun'

/-- **The revisions of a run are numbered without a gap.** -/
theorem counted_of_leads (hs₀ : s₀.Counted) (h : Leads cfg s₀ n₀ s n) : s.Counted := by
  refine History.induct (D := database) (P := fun s _ ↦ Store.Counted s) hs₀ ?_ h
  rintro s n ⟨ctx, call⟩ inp - - ih
  rcases after_cases cfg ctx call inp s n with hquiet | ⟨run, r, hrecorded, -⟩
  · exact ih.quiet hquiet
  · exact ih.recorded hrecorded

theorem RunRow.Counts.exists_last {v : Verdict} (h : run.Counts revisions)
    (hv : run.result = some v) :
    ∃ r ∈ revisions, r.revision = run.currentRevision ∧ r.result = v := by
  obtain ⟨r, hlast, rfl⟩ := map_eq_some_iff.1 (h.result.symm.trans hv)
  refine ⟨r, mem_of_getLast? hlast, ?_, rfl⟩
  have hnumber : (List.range' 1 run.currentRevision).getLast? = some r.revision := by
    rw [← h.numbers, List.getLast?_map, hlast]
    rfl
  rw [List.getLast?_range'] at hnumber
  split at hnumber
  · cases hnumber
  · have hlast := some.inj hnumber
    omega

/-! ## Separation of duty -/

theorem Submitted.parties (h : Submitted cfg s₀ n₀ s n r)
    (hrun : s.run r.verificationId = some run) :
    r.submittedByAccountId = run.parties.verifier.accountId ∧
      r.submitterCredentialFingerprint ≠ run.parties.implementer.credentialFingerprint ∧
      Accepted r := by
  obtain ⟨ctx, call, inp, s₁, n₁, run₁, -, hrecorded, hrest, -⟩ := h
  obtain ⟨run₂, hrun₂, hparties₂⟩ := parties_after cfg ctx call inp n₁ hrecorded.run_eq
  obtain ⟨run₃, hrun₃, hparties₃⟩ := parties_of_leads hrest hrun₂
  have hparties : run.parties = run₁.parties := by
    rw [← hparties₂, ← hparties₃, some.inj (hrun.symm.trans hrun₃)]
  rw [hparties]
  exact ⟨hrecorded.independent.verifier, hrecorded.independent.fingerprint, hrecorded.accepted⟩

/-- **Separation of duty.** In every reachable store each revision was submitted by the verifier of
its run, under aliases by which it does not stand for the implementer and from another credential
than the implementer's; the revisions of a run are numbered from 1 to `current_revision`; and a run
is `PASSED` only by a report that says so, all of whose tests pass or do not apply and none of whose
findings is above `Low`. -/
theorem separation_of_duty (cfg : Config) {s : Store} {n : ℕ} (h : Leads cfg {} 0 s n) :
    (∀ r ∈ s.revisions, Submitted cfg {} 0 s n r ∧ (s.run r.verificationId).isSome) ∧
      ∀ vid run, s.run vid = some run →
        (∀ r ∈ s.revisionsOf vid, r.submittedByAccountId = run.parties.verifier.accountId ∧
          r.submitterCredentialFingerprint ≠ run.parties.implementer.credentialFingerprint ∧
          Accepted r) ∧ (s.revisionsOf vid).map (·.revision) = List.range' 1 run.currentRevision ∧
        (run.status = .passed ∨ run.result = some .passed → ∃ r ∈ s.revisionsOf vid,
          r.revision = run.currentRevision ∧ r.result = .passed) := by
  have hsubmitted := submitted_of_leads rfl h
  have hempty : Store.Counted {} := ⟨fun _ _ hrun ↦ (nomatch hrun), fun _ _ ↦ rfl⟩
  have hcounted := counted_of_leads hempty h
  constructor
  · intro r hr
    refine ⟨hsubmitted r hr, ?_⟩
    rcases hrun : s.run r.verificationId with - | run
    · have hmem : r ∈ s.revisionsOf r.verificationId := mem_filter.2 ⟨hr, by simp⟩
      rw [hcounted.others _ hrun] at hmem
      exact absurd hmem not_mem_nil
    · rfl
  · intro vid run hrun
    have hcounts := hcounted.counts vid run hrun
    refine ⟨?_, hcounts.numbers, ?_⟩
    · intro r hr
      obtain ⟨hmem, hvid⟩ := mem_filter.1 hr
      have hvid : r.verificationId = vid := by simpa using hvid
      exact (hsubmitted r hmem).parties (hvid ▸ hrun)
    · rintro (hstatus | hresult)
      · exact hcounts.exists_last (hcounts.passed hstatus)
      · exact hcounts.exists_last hresult

/-! ## What a report need not judge -/

/-- Every `PASSED` revision has a report with a test for each of the criteria. -/
def Store.Judged (s : Store) (criteria : List String) : Prop :=
  ∀ r ∈ s.revisions, r.result = .passed →
    ∃ report, readReport r.report = some report ∧ ∀ c ∈ criteria, report.Judges c

namespace EmptyReport

def config : Config := { uuid5 := fun _ ↦ "", schemaError := fun _ ↦ "" }

/-- Accounts are known by a UUID made from their id, and everything is allowed. -/
def input : Input where
  external
    | .account accountId => .ok (some ("uuid-" ++ accountId))
    | _ => .ok none

def assigner : CommandContext := ⟨"ws", "owner", "uuid-owner", "owner-key", "k-1"⟩

def verifier : CommandContext := ⟨"ws", "bob", "uuid-bob", "bob-key", "k-2"⟩

/-- A run is created, assigned and started, and passed with an empty report. -/
def calls : List (CommandContext × Call) := [(assigner, .create {
    targetType := "task", targetId := "task-1", taskId := some "task-1"
    implementerAccountId := "alice", implementerCredentialFingerprint := "alice-key"
    verifierAccountId := "bob", verifierCredentialFingerprint := "bob-key" }),
  (assigner, .assign "vr-"), (verifier, .start "vr-"),
  (verifier, .verdict { verificationId := "vr-", result := "PASSED" })]

end EmptyReport

/-- The store and the next number after a list of calls. -/
def runCalls (cfg : Config) (inp : ℕ → Input) (calls : List (CommandContext × Call))
    (x : Store × ℕ) : Store × ℕ :=
  calls.foldl (fun x e ↦ database.transact inp x.2 x.1 (body cfg e.1 e.2)) x

theorem leads_runCalls (cfg : Config) (inp : ℕ → Input) (calls : List (CommandContext × Call))
    (x : Store × ℕ) :
    Leads cfg x.1 x.2 (runCalls cfg inp calls x).1 (runCalls cfg inp calls x).2 := by
  induction calls generalizing x with
  | nil => exact .refl
  | cons e _ ih =>
    have hrefl : Leads cfg x.1 x.2 x.1 x.2 := .refl
    exact (leads_after hrefl e.1 e.2 inp).trans (ih _)

open EmptyReport in
/-- A run is `PASSED` by a report that judges nothing. -/
theorem not_judged : ∃ s n, Leads config {} 0 s n ∧ ¬s.Judged ["crit-1"] := by
  refine ⟨_, _, leads_runCalls config (fun _ ↦ input) calls ({}, 0), fun h ↦ ?_⟩
  have hrevisions : (runCalls config (fun _ ↦ input) calls ({}, 0)).1.revisions.map
      (fun r ↦ (r.result, readReport r.report)) =
        [(.passed, some ⟨.passed, "v8.0", [], [], []⟩)] := by
    decide
  obtain ⟨r, hr, heq⟩ := List.mem_map.1 (hrevisions ▸ mem_singleton_self _)
  obtain ⟨hresult, hreport⟩ := Prod.mk.inj heq
  obtain ⟨report, hread, hjudges⟩ := h r hr hresult
  obtain rfl := some.inj (hreport.symm.trans hread)
  obtain ⟨t, ht, -⟩ := hjudges "crit-1" mem_cons_self
  exact absurd ht not_mem_nil

open EmptyReport in
theorem separation_of_empty_report :
    ∃ s n, Leads config {} 0 s n ∧ ∃ r ∈ s.revisions, Submitted config {} 0 s n r := by
  have hleads := leads_runCalls config (fun _ ↦ input) calls ({}, 0)
  refine ⟨_, _, hleads, ?_⟩
  have hlength : (runCalls config (fun _ ↦ input) calls ({}, 0)).1.revisions.length = 1 := by decide
  obtain ⟨r, hr⟩ := length_eq_one_iff.1 hlength
  have hmem := hr ▸ mem_singleton_self r
  exact ⟨r, hmem, ((separation_of_duty config hleads).1 r hmem).1⟩

end AgentColab.Verdicts
