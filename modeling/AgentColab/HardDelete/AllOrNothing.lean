import AgentColab.HardDelete.Authority
import AgentColab.HardDelete.Digests

/-!
# When a hard delete is all or nothing

A failed execution leaves the rows as they were, but not the files that it has removed. The commit
can always fail, so a failure loses nothing only if no file of the target is there. And an Event of
the workspace that another transaction commits between the digests makes the execution fail.
-/

namespace AgentColab.HardDelete

open AgentColab Approvals Ledger List

variable {H : Hashes} {fails : Statement → Bool} {ctx : ExecuteContext}

/-! ## Files -/

/-- The paths that the erasure of the target comes to. -/
def targetPaths (ctx : ExecuteContext) (req : HardDeleteRequest) (rows : Rows) : List String :=
  match req.targetType with
  | .account => []
  | .conversation => []
  | .artifact =>
    ((rows.artifacts.find? fun a ↦ a.artifactId = req.targetId ∧
      a.workspaceId = ctx.workspace).bind fun a ↦ artifactPath ctx a.storageUri).toList
  | .document => (versionsOf req.targetId rows).map fun v ↦ documentPath ctx v.storageUri

/-- **The files of a target**, which its erasure removes. -/
def targetFiles (ctx : ExecuteContext) (req : HardDeleteRequest) (rows : Rows) : List String :=
  (targetPaths ctx req rows).filter fun path ↦ ctx.unlinkError path = none

variable {label p : String} {disk : Disk} {paths : List String} {req : HardDeleteRequest}
    {rows : Rows}

theorem files_unlink_subset {path : String} (hp : p ∉ disk.files) :
    p ∉ (unlink ctx label path disk).files := by
  rw [unlink]
  split
  · exact hp
  · exact fun h ↦ hp (mem_filter.1 h).1

theorem files_unlinkAll_subset (hp : p ∉ disk.files) :
    p ∉ (unlinkAll fails ctx label paths disk).2.files := by
  induction paths generalizing disk with
  | nil => exact hp
  | cons _ _ ih =>
    rw [unlinkAll]
    split
    · exact hp
    · exact ih (files_unlink_subset hp)

theorem files_unlinkAll_eq (h : ∀ p ∈ paths, ctx.unlinkError p = none → p ∉ disk.files) :
    (unlinkAll fails ctx label paths disk).2.files = disk.files := by
  induction paths generalizing disk with
  | nil => rfl
  | cons path _ ih =>
    have hsame : (unlink ctx label path disk).files = disk.files := by
      rw [unlink]
      split
      · rfl
      next hnone =>
        refine filter_eq_self.2 fun p hp ↦ decide_eq_true ?_
        rintro rfl
        exact h p mem_cons_self hnone hp
    rw [unlinkAll]
    split
    · rfl
    · rw [ih, hsame]
      intro p hp hnone
      rw [hsame]
      exact h p (mem_cons_of_mem _ hp) hnone

theorem not_mem_unlinkAll (hfails : ∀ p, fails (.unlink p) = false) (hp : p ∈ paths)
    (hnone : ctx.unlinkError p = none) : p ∉ (unlinkAll fails ctx label paths disk).2.files := by
  induction paths generalizing disk with
  | nil => exact absurd hp not_mem_nil
  | cons _ _ ih =>
    rw [unlinkAll, reach, hfails]
    rcases mem_cons.1 hp with rfl | hp
    · refine files_unlinkAll_subset ?_
      rw [unlink, hnone]
      intro hmem
      exact of_decide_eq_true (mem_filter.1 hmem).2 rfl
    · exact ih hp

theorem files_eraseTarget_eq (h : ∀ p ∈ targetFiles ctx req rows, p ∉ disk.files) :
    (eraseTarget H fails ctx req rows disk).2.files = disk.files := by
  rw [eraseTarget]
  cases htype : req.targetType with
  | account => rfl
  | conversation => rfl
  | artifact =>
    simp only [targetFiles, targetPaths, htype] at h
    dsimp only
    rw [eraseArtifact]
    split
    · rfl
    split
    · rfl
    next row hrow =>
      rw [hrow] at h
      cases hpath : artifactPath ctx row.storageUri with
      | none => rfl
      | some =>
        refine files_unlinkAll_eq fun p hp hnone ↦
          h p (mem_filter.2 ⟨?_, decide_eq_true hnone⟩)
        simpa [hpath] using hp
  | document =>
    simp only [targetFiles, targetPaths, htype] at h
    dsimp only
    rw [eraseDocument]
    split
    · rfl
    · exact files_unlinkAll_eq fun p hp hnone ↦
        h p (mem_filter.2 ⟨hp, decide_eq_true hnone⟩)

theorem not_mem_eraseTarget (hload : fails .loadTarget = false)
    (hfails : ∀ p, fails (.unlink p) = false) (hp : p ∈ targetFiles ctx req rows) :
    p ∉ (eraseTarget H fails ctx req rows disk).2.files := by
  obtain ⟨hp, hnone⟩ := mem_filter.1 hp
  have hnone := of_decide_eq_true hnone
  rw [targetPaths] at hp
  rw [eraseTarget]
  cases htype : req.targetType with
  | account | conversation =>
    rw [htype] at hp
    exact absurd hp not_mem_nil
  | artifact =>
    simp only [htype, Option.mem_toList, Option.bind_eq_some_iff] at hp
    obtain ⟨row, hrow, hpath⟩ := hp
    dsimp only
    rw [eraseArtifact, reach, hload, hrow]
    simp only [hpath, Bool.false_eq_true, if_false]
    exact not_mem_unlinkAll hfails mem_cons_self hnone
  | document =>
    simp only [htype] at hp
    dsimp only
    rw [eraseDocument, reach, hload]
    exact not_mem_unlinkAll hfails hp hnone

/-! ## The checks -/

section Admitted

variable {requestId : String} {db : HardDeleteTables} {req : HardDeleteRequest}

/-- **The checks of an execution are passed.** -/
structure Admitted (ctx : ExecuteContext) (requestId : String) (db : HardDeleteTables)
    (req : HardDeleteRequest) : Prop where
  permitted : requirePermission ctx.command = .ok ()
  found : db.loadRequest requestId = some req
  waiting : req.status = .approvedWaiting
  waited : req.executableAt.any (· ≤ ctx.command.now) = true
  granted : ∃ grant, db.approvals.grants req.approvalId = some grant ∧ grant.status ∈ executable
  reauth : requireReauth ctx.command "hard_delete_execute" = .ok ()

theorem Admitted.requestId_eq (h : Admitted ctx requestId db req) : req.requestId = requestId := by
  simpa using List.find?_some h.found

theorem admitted_of_check (h : checkExecution fails ctx requestId db = .ok (some req)) :
    Admitted ctx requestId db req := by
  rw [checkExecution] at h
  obtain ⟨-, -, h⟩ := bind_eq_ok.1 h
  obtain ⟨_, hpermitted, h⟩ := bind_eq_ok.1 h
  obtain ⟨-, -, h⟩ := bind_eq_ok.1 h
  split at h
  next => cases h
  next req' hfound =>
    split at h
    next => cases h
    next =>
      split at h
      next => cases h
      next hwaiting =>
        split at h
        next => cases h
        next hwaited =>
          obtain ⟨-, -, h⟩ := bind_eq_ok.1 h
          split at h
          next => cases h
          next grant hgrant =>
            split at h
            next => cases h
            next hstanding =>
              obtain ⟨-, -, h⟩ := bind_eq_ok.1 h
              obtain ⟨_, hreauth, h⟩ := bind_eq_ok.1 h
              cases h
              exact ⟨mapError_eq_ok.1 hpermitted, hfound, not_not.1 hwaiting,
                by simpa using hwaited, ⟨grant, hgrant, not_not.1 hstanding⟩,
                mapError_eq_ok.1 hreauth⟩

theorem Admitted.check (h : Admitted ctx requestId db req)
    (hfails : ∀ s ∈ [Statement.permission, .loadRequest, .loadGrant, .reauth], fails s = false) :
    checkExecution fails ctx requestId db = .ok (some req) := by
  obtain ⟨hpermitted, hfound, hwaiting, hwaited, ⟨grant, hgrant, hstanding⟩, hreauth⟩ := h
  have hreach : ∀ s ∈ [Statement.permission, .loadRequest, .loadGrant, .reauth],
      reach fails s = .ok () := fun s hs ↦ reach_eq_ok.2 (hfails s hs)
  have hexecuted : req.status ≠ .executed := by
    rw [hwaiting]
    decide
  rw [checkExecution]
  refine bind_eq_ok.2 ⟨(), hreach _ (by simp), bind_eq_ok.2 ⟨(), mapError_eq_ok.2 hpermitted,
    bind_eq_ok.2 ⟨(), hreach _ (by simp), ?_⟩⟩⟩
  rw [hfound]
  dsimp only
  rw [if_neg hexecuted, if_neg (not_not.2 hwaiting), hwaited]
  refine bind_eq_ok.2 ⟨(), hreach _ (by simp), ?_⟩
  rw [hgrant]
  dsimp only
  rw [if_neg (not_not.2 hstanding)]
  exact bind_eq_ok.2 ⟨(), hreach _ (by simp), bind_eq_ok.2 ⟨(), mapError_eq_ok.2 hreauth, rfl⟩⟩

end Admitted

/-! ## Executions -/

section Execute

variable {arrivals : Arrivals} {requestId : String} {w w' : World}

variable {files : List String} {x : Except ExecutionError (ExecuteResult × Rows × List LogRow)}
    {e : ExecutionError} {result : ExecuteResult} {req : HardDeleteRequest}

theorem leave_eq_error (h : leave arrivals w files x = (.error e, w')) :
    x = .error e ∧ w' = ⟨w.rows, w.log ++ arrivals.all, files⟩ := by
  cases x with
  | error =>
    cases h
    exact ⟨rfl, rfl⟩
  | ok => cases h

theorem leave_eq_ok (h : leave arrivals w files x = (.ok (some result), w')) :
    x = .ok (result, w'.rows, w'.log) ∧ w'.files = files := by
  cases x with
  | error => cases h
  | ok =>
    cases h
    exact ⟨rfl, rfl⟩

theorem execute_eq_error (h : execute H fails ctx arrivals requestId w = (.error e, w')) :
    w'.rows = w.rows ∧ w'.log = w.log ++ arrivals.all ∧ (w'.files = w.files ∨
      ∃ req, Admitted ctx requestId w.rows.tables req ∧
        w'.files = (eraseTarget H fails ctx req w.rows ⟨w.files, []⟩).2.files) := by
  rw [execute] at h
  split at h
  next =>
    cases h
    exact ⟨rfl, rfl, .inl rfl⟩
  next => cases h
  next req hcheck =>
    split at h
    next =>
      cases h
      exact ⟨rfl, rfl, .inl rfl⟩
    next =>
      obtain rfl := (leave_eq_error h).2
      exact ⟨rfl, rfl, .inr ⟨req, admitted_of_check hcheck, rfl⟩⟩

theorem execute_eq_ok (h : execute H fails ctx arrivals requestId w = (.ok (some result), w')) :
    ∃ req destroyed rows, Admitted ctx requestId w.rows.tables req ∧
      (eraseTarget H fails ctx req w.rows ⟨w.files, []⟩).1 = .ok (destroyed, rows) ∧
      conclude H fails ctx arrivals req (eventChainDigest H ctx (w.log ++ arrivals.digestBefore))
        destroyed rows (eraseTarget H fails ctx req w.rows ⟨w.files, []⟩).2.warnings
        (w.log ++ arrivals.digestBefore) = .ok (result, w'.rows, w'.log) := by
  rw [execute] at h
  split at h
  next => cases (leave_eq_ok h).1
  next => cases h
  next req hcheck =>
    split at h
    next => cases (leave_eq_ok h).1
    next =>
      obtain ⟨⟨destroyed, rows⟩, herased, hconclude⟩ := bind_eq_ok.1 (leave_eq_ok h).1
      exact ⟨req, destroyed, rows, admitted_of_check hcheck, herased, hconclude⟩

theorem execute_admitted (hadmitted : Admitted ctx requestId w.rows.tables req)
    (hchecks : ∀ s ∈ [Statement.permission, .loadRequest, .loadGrant, .reauth], fails s = false)
    (hdigest : fails .digestBefore = false) : execute H fails ctx arrivals requestId w =
      leave arrivals w (eraseTarget H fails ctx req w.rows ⟨w.files, []⟩).2.files
        ((eraseTarget H fails ctx req w.rows ⟨w.files, []⟩).1.bind fun x ↦
          conclude H fails ctx arrivals req
            (eventChainDigest H ctx (w.log ++ arrivals.digestBefore)) x.1 x.2
            (eraseTarget H fails ctx req w.rows ⟨w.files, []⟩).2.warnings
            (w.log ++ arrivals.digestBefore)) := by
  have hcheck := hadmitted.check hchecks
  have hreach := (reach_eq_ok (u := ())).2 hdigest
  simp only [execute, hcheck, hreach]

theorem execute_isOk : (∃ result w', execute H (fun _ ↦ false) ctx arrivals requestId w =
    (.ok (some result), w')) ↔ ∃ req destroyed rows, Admitted ctx requestId w.rows.tables req ∧
      (eraseTarget H (fun _ ↦ false) ctx req w.rows ⟨w.files, []⟩).1 = .ok (destroyed, rows) ∧
      ∃ log₁ log₂ event, Concluded H ctx arrivals req
        (eventChainDigest H ctx (w.log ++ arrivals.digestBefore)) destroyed rows
        (w.log ++ arrivals.digestBefore) log₁ log₂ event := by
  constructor
  · rintro ⟨result, w', h⟩
    obtain ⟨req, destroyed, rows, hadmitted, herased, hconclude⟩ := execute_eq_ok h
    exact ⟨req, destroyed, rows, hadmitted, herased, (conclude_isOk _).1 ⟨_, hconclude⟩⟩
  · rintro ⟨req, destroyed, rows, hadmitted, herased, hconcluded⟩
    obtain ⟨⟨result, rows', log'⟩, hconclude⟩ := (conclude_isOk
      (eraseTarget H (fun _ ↦ false) ctx req w.rows ⟨w.files, []⟩).2.warnings).2 hconcluded
    rw [execute_admitted hadmitted (fun _ _ ↦ rfl) rfl, herased]
    dsimp only [Except.bind]
    rw [hconclude]
    exact ⟨result, _, rfl⟩

variable (H arrivals) in
theorem execute_commit (hadmitted : Admitted ctx requestId w.rows.tables req) :
    ∃ e w', execute H (fun s ↦ s = .commit) ctx arrivals requestId w = (.error e, w') ∧
      ∀ p ∈ targetFiles ctx req w.rows, p ∉ w'.files := by
  have hchecks : ∀ s ∈ [Statement.permission, .loadRequest, .loadGrant, .reauth],
      decide (s = Statement.commit) = false := by decide
  rw [execute_admitted hadmitted hchecks (by decide)]
  generalize hx : Except.bind _ _ = x
  cases x with
  | error e =>
    refine ⟨e, _, rfl, fun p hp ↦ ?_⟩
    exact not_mem_eraseTarget (by decide) (fun path ↦ by simp) hp
  | ok =>
    obtain ⟨_, _, hconclude⟩ := bind_eq_ok.1 hx
    exact absurd (conclude_commit hconclude) (by decide)

/-- The execution would succeed if nothing failed and nobody else appended. -/
def Valid (H : Hashes) (ctx : ExecuteContext) (requestId : String) (w : World) : Prop :=
  ∃ result w', execute H (fun _ ↦ false) ctx {} requestId w = (.ok (some result), w')

/-- **A valid execution succeeds exactly if nobody else appends an Event of the workspace** between
its digests. -/
theorem execute_among_iff (hH : Function.Injective H.sha256)
    (hforeign : ∀ r ∈ arrivals.all, Foreign ctx requestId w.log r)
    (hvalid : Valid H ctx requestId w) :
    (∃ result w', execute H (fun _ ↦ false) ctx arrivals requestId w = (.ok (some result), w')) ↔
      ofWorkspace ctx.workspace arrivals.between = [] := by
  obtain ⟨req, destroyed, rows, hadmitted, herased, hquiet⟩ := execute_isOk.1 hvalid
  rw [append_nil] at hquiet
  rw [← concluded_iff hH (hadmitted.requestId_eq.symm ▸ hforeign) hquiet, execute_isOk]
  constructor
  · rintro ⟨req', destroyed', rows', hadmitted', herased', hconcluded⟩
    obtain rfl := Option.some.inj (hadmitted.found.symm.trans hadmitted'.found)
    obtain ⟨rfl, rfl⟩ := Prod.mk.inj (Except.ok.inj (herased.symm.trans herased'))
    exact hconcluded
  · exact fun hconcluded ↦ ⟨req, destroyed, rows, hadmitted, herased, hconcluded⟩

/-- **A hard delete is all or nothing**: when a statement fails nothing is destroyed, and the Events
of others do not make a valid execution fail. -/
structure AllOrNothing (H : Hashes) (ctx : ExecuteContext) (arrivals : Arrivals)
    (requestId : String) (w : World) : Prop where
  failed : ∀ fails e w', execute H fails ctx arrivals requestId w = (.error e, w') →
    w'.rows = w.rows ∧ w'.log = w.log ++ arrivals.all ∧ w'.files = w.files
  valid : Valid H ctx requestId w → ∃ result w',
    execute H (fun _ ↦ false) ctx arrivals requestId w = (.ok (some result), w')

/-- **A hard delete is all or nothing exactly if its target has no file, and no other transaction
appends an Event of the workspace** between the digests of an execution that is valid. -/
theorem allOrNothing_iff (hH : Function.Injective H.sha256)
    (hforeign : ∀ r ∈ arrivals.all, Foreign ctx requestId w.log r) :
    AllOrNothing H ctx arrivals requestId w ↔ (∀ req, Admitted ctx requestId w.rows.tables req →
        ∀ p ∈ targetFiles ctx req w.rows, p ∉ w.files) ∧
      (Valid H ctx requestId w → ofWorkspace ctx.workspace arrivals.between = []) := by
  constructor
  · rintro ⟨hfailed, hvalid⟩
    refine ⟨fun req hadmitted p hp hmem ↦ ?_,
      fun h ↦ (execute_among_iff hH hforeign h).1 (hvalid h)⟩
    obtain ⟨e, w', hexecute, hlost⟩ := execute_commit H arrivals hadmitted
    exact hlost p hp ((hfailed _ e w' hexecute).2.2 ▸ hmem)
  · rintro ⟨hfiles, hbetween⟩
    refine ⟨fun fails e w' hexecute ↦ ?_, fun h ↦ (execute_among_iff hH hforeign h).2 (hbetween h)⟩
    obtain ⟨hrows, hlog, hsame | ⟨req, hadmitted, hsame⟩⟩ := execute_eq_error hexecute
    · exact ⟨hrows, hlog, hsame⟩
    · exact ⟨hrows, hlog, hsame.trans (files_eraseTarget_eq (hfiles req hadmitted))⟩

theorem valid_of_isSome
    (h : (execute H (fun _ ↦ false) ctx {} requestId w).1.toOption.join.isSome = true) :
    Valid H ctx requestId w := by
  rw [Valid]
  generalize execute H (fun _ ↦ false) ctx {} requestId w = run at h ⊢
  obtain ⟨e | (- | result), w'⟩ := run
  · cases h
  · cases h
  · exact ⟨result, w', rfl⟩

end Execute

namespace Sample

def uuid (digit : Char) : String :=
  String.ofList ("0a0a0a0a-0000-4000-8000-00000000000".toList ++ [digit])

def inWorkspace (account : Char) (key : String) (now : Time) : CommandContext :=
  { context (uuid account) key now with workspaceId := uuid 'a' }

def commanded (account : Char) (key : String) (cmd : Command) (w : HardDeleteTables × ℕ) :
    HardDeleteTables × ℕ :=
  (perform Approvals.Sample.catalog hash (inWorkspace account key 1000)
    (Approvals.Sample.input (uuid account)) cmd w.2 w.1).toOption.getD w

def artifactRequest : HardDeleteTables × ℕ :=
  commanded '3' "k3" (.approve "hd-1" .approve "") (commanded '2' "k2" (.approve "hd-1" .approve "")
      (commanded '1' "k1" (.request "artifact" "art-1" "erasure") ({}, 0)))

def executeContext : ExecuteContext where
  command := inWorkspace '2' "k4" (1000 + hours (24 * 8))
  workspace := ⟨uuid 'a', by decide⟩
  account := ⟨uuid '2', by decide⟩
  book := none
  clocks := ⟨0, ⟨2026, 1, 1, 0, 0, 0, 0⟩⟩
  artifactRoot := "/var/lib/agent-colab/artifacts"
  documentRoot := "/var/lib/agent-colab/documents"
  unlinkError _ := none
  accountEvent := ⟨"evt-1", "h1", none, 1, none⟩
  executedEvent := ⟨"evt-2", "h2", none, 2, none⟩

def blob : String := String.ofList (List.replicate 64 'a')

def storageUri : String := "colab-fs://" ++ uuid 'a' ++ "/" ++ blob

def blobPath : String :=
  "/var/lib/agent-colab/artifacts/" ++ uuid 'a' ++ "/aa/" ++ blob

def stored : World where
  rows := {
    tables := artifactRequest.1
    artifacts := [⟨"art-1", executeContext.workspace, storageUri⟩] }
  log := []
  files := [blobPath]

def digests : Hashes := ⟨AgentColab.Sample.keep, fun _ ↦ AgentColab.Sample.keep⟩

def message : LogRow where
  eventId := "evt-3"
  workspaceId := executeContext.workspace
  actorAccountId := ⟨uuid '1', by decide⟩
  draft := ⟨"channel", "ch-1", "channel:send", "k5", .other "MESSAGE_SENT" ""⟩
  contentHash := "h3"
  previousHash := none
  recordedSeq := 3

theorem isSome_request : (stored.rows.tables.loadRequest "hd-1").isSome = true := by decide +kernel

def request : HardDeleteRequest := (stored.rows.tables.loadRequest "hd-1").get isSome_request

theorem admitted_request : Admitted executeContext "hd-1" stored.rows.tables request where
  permitted := rfl
  found := (Option.some_get _).symm
  waiting := by decide +kernel
  waited := by decide +kernel
  granted := by
    have hany : (stored.rows.tables.approvals.grants request.approvalId).any
        (·.status ∈ executable) = true := by decide +kernel
    obtain ⟨grant, hgrant, hstanding⟩ := (Option.any_eq_true _ _).1 hany
    exact ⟨grant, hgrant, of_decide_eq_true hstanding⟩
  reauth := by decide +kernel

theorem blobPath_mem : blobPath ∈ targetFiles executeContext request stored.rows := by
  decide +kernel

theorem foreign_message : ∀ r ∈ ({ executedEvent := [message] } : Arrivals).all,
    Foreign executeContext "hd-1" [] r := by
  intro r hr
  obtain rfl : r = message := mem_singleton.1 hr
  exact ⟨by decide, by decide, by decide⟩

theorem valid_missing : Valid digests executeContext "hd-1" { stored with files := [] } :=
  valid_of_isSome (by decide +kernel)

end Sample

open Sample

/-- The commit fails when the blob is gone; and a message makes an execution fail. -/
theorem not_allOrNothing : ¬AllOrNothing digests executeContext {} "hd-1" stored ∧
    ¬AllOrNothing digests executeContext { executedEvent := [Sample.message] } "hd-1"
      { stored with files := [] } := by
  constructor
  · intro h
    obtain ⟨e, w', hexecute, hlost⟩ := execute_commit digests {} admitted_request
    exact hlost blobPath blobPath_mem ((h.failed _ e w' hexecute).2.2 ▸ mem_cons_self)
  · intro h
    have hnone := (execute_among_iff AgentColab.Sample.keep_injective foreign_message
      valid_missing).1 (h.valid valid_missing)
    exact absurd hnone (by decide)

/-- A message that comes before the first digest, and a blob that is not there. -/
theorem allOrNothing_missing : AllOrNothing digests executeContext
    { digestBefore := [Sample.message] } "hd-1" { stored with files := [] } :=
  (allOrNothing_iff AgentColab.Sample.keep_injective foreign_message).2
    ⟨fun _ _ _ _ ↦ not_mem_nil, fun _ ↦ rfl⟩

/-! ## The step of the request -/

section Tables

variable {rows rows' : Rows} {destroyed : List String}

theorem tables_eraseKeys {keyRefs : List String}
    (h : eraseKeys H fails ctx keyRefs rows = .ok rows') : rows'.tables = rows.tables := by
  induction keyRefs generalizing rows with
  | nil =>
    cases h
    rfl
  | cons _ _ ih =>
    obtain ⟨-, -, h⟩ := bind_eq_ok.1 h
    obtain ⟨keys, -, h⟩ := bind_eq_ok.1 h
    exact (ih h).trans rfl

variable {targetId : String} {req : HardDeleteRequest}

theorem tables_eraseTargetKeys {targetType : TargetType}
    (h : eraseTargetKeys H fails ctx targetType targetId rows = .ok (destroyed, rows')) :
    rows'.tables = rows.tables := by
  rw [eraseTargetKeys] at h
  obtain ⟨-, -, h⟩ := bind_eq_ok.1 h
  obtain ⟨mid, hkeys, h⟩ := bind_eq_ok.1 h
  cases h
  exact tables_eraseKeys hkeys

theorem tables_eraseAccount (h : eraseAccount H fails ctx targetId rows = .ok (destroyed, rows')) :
    rows'.tables = rows.tables := by
  rw [eraseAccount] at h
  obtain ⟨-, -, h⟩ := bind_eq_ok.1 h
  split at h
  next => cases h
  next =>
    obtain ⟨⟨keyRefs, mid⟩, hkeys, h⟩ := bind_eq_ok.1 h
    obtain ⟨-, -, h⟩ := bind_eq_ok.1 h
    obtain ⟨-, -, h⟩ := bind_eq_ok.1 h
    obtain ⟨-, -, h⟩ := bind_eq_ok.1 h
    have hmid := tables_eraseTargetKeys hkeys
    cases h
    exact hmid

theorem tables_eraseMessages {ms : List Retention.Message}
    (h : eraseMessages H fails ctx ms rows = .ok (destroyed, rows')) :
    rows'.tables = rows.tables := by
  induction ms generalizing rows destroyed with
  | nil =>
    cases h
    rfl
  | cons m _ ih =>
    obtain ⟨mid, hkeys, h⟩ := bind_eq_ok.1 h
    obtain ⟨-, -, h⟩ := bind_eq_ok.1 h
    obtain ⟨⟨contentHash, store⟩, -, h⟩ := bind_eq_ok.1 h
    obtain ⟨-, -, h⟩ := bind_eq_ok.1 h
    obtain ⟨⟨rest, last⟩, hrest, h⟩ := bind_eq_ok.1 h
    have hmid := tables_eraseKeys hkeys
    cases h
    exact (ih hrest).trans hmid

theorem tables_eraseTarget
    (h : (eraseTarget H fails ctx req rows disk).1 = .ok (destroyed, rows')) :
    rows'.tables = rows.tables := by
  rw [eraseTarget] at h
  split at h
  next => exact tables_eraseAccount h
  next =>
    obtain ⟨-, -, h⟩ := bind_eq_ok.1 h
    obtain ⟨⟨ofMessages, mid⟩, hmessages, h⟩ := bind_eq_ok.1 h
    obtain ⟨⟨keyRefs, last⟩, hkeys, h⟩ := bind_eq_ok.1 h
    cases h
    exact (tables_eraseTargetKeys hkeys).trans (tables_eraseMessages hmessages)
  next =>
    rw [eraseArtifact] at h
    split at h
    next => cases h
    next =>
      split at h
      next => cases h
      next =>
        obtain ⟨-, -, h⟩ := bind_eq_ok.1 h
        exact tables_eraseTargetKeys h
  next =>
    rw [eraseDocument] at h
    split at h
    next => cases h
    next =>
      obtain ⟨-, -, h⟩ := bind_eq_ok.1 h
      exact tables_eraseTargetKeys h

theorem tables_conclude {arrivals : Arrivals} {before : String} {warnings : List String}
    {log log' : List LogRow} {result : ExecuteResult} (h : conclude H fails ctx arrivals req
    before destroyed rows warnings log = .ok (result, rows', log')) :
    rows'.tables = rows.tables.update req.requestId (.execute ctx.command.now) := by
  obtain ⟨-, -, -, result', -, -, -, hsettle⟩ := conclude_eq_ok h
  rw [settle] at hsettle
  split at hsettle
  next => cases hsettle
  next =>
    obtain ⟨-, -, hsettle⟩ := bind_eq_ok.1 hsettle
    obtain ⟨-, -, hsettle⟩ := bind_eq_ok.1 hsettle
    obtain ⟨-, -, hsettle⟩ := bind_eq_ok.1 hsettle
    obtain ⟨-, hrows⟩ := Prod.mk.inj (Except.ok.inj hsettle)
    exact congrArg Rows.tables hrows.symm

end Tables

end AgentColab.HardDelete
