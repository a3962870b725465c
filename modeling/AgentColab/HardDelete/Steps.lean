import AgentColab.Approvals.Votes
import AgentColab.HardDelete.Requests

/-!
# What a hard-delete command does

A command that does not raise takes one of the steps below. The relation says everything that a step
can do to the requests and their approvals, guards included, so that what is said about all commands
is checked against five cases.
-/

namespace AgentColab.HardDelete

open AgentColab Approvals Transaction Database

variable {db db' : HardDeleteTables} {ctx : CommandContext} {requestId : String}

/-! ## Statements -/

/-- An update leaves the id of a request alone. -/
def KeepsId (f : HardDeleteRequest → HardDeleteRequest) : Prop := ∀ r, (f r).requestId = r.requestId

theorem loadRequest_update {f : HardDeleteRequest → HardDeleteRequest} (hf : KeepsId f)
    (id : String) : (db.update requestId f).loadRequest id =
      (db.loadRequest id).map fun r ↦ if id = requestId then f r else r := by
  have hid : ∀ r : HardDeleteRequest,
      (if r.requestId = requestId then f r else r).requestId = r.requestId := by
    intro r
    split_ifs
    · exact hf r
    · rfl
  have hcomp : (fun r : HardDeleteRequest ↦ decide (r.requestId = id)) ∘
      (fun r ↦ if r.requestId = requestId then f r else r) = fun r ↦ decide (r.requestId = id) :=
    funext fun r ↦ by simp only [Function.comp, hid]
  rw [HardDeleteTables.loadRequest, HardDeleteTables.update, List.find?_map, hcomp,
    HardDeleteTables.loadRequest]
  refine Option.map_congr fun r hr ↦ ?_
  rw [show r.requestId = id by simpa using List.find?_some hr]

theorem append_eq_ok {scope : String} {type : HardDeleteEventType}
    (h : append ctx scope requestId type db = .ok db') :
    db'.approvals = db.approvals ∧ db'.requests = db.requests := by
  rw [append] at h
  dsimp only at h
  split at h
  · split_ifs at h
    obtain rfl := Except.ok.inj h
    exact ⟨rfl, rfl⟩
  · split at h
    · cases h
    · obtain rfl := Except.ok.inj h
      exact ⟨rfl, rfl⟩

theorem callApprovals_eq_ok {α : Type} {inp : ℕ → ApprovalInput} {n n' : ℕ} {body : Body α} {a : α}
    (h : callApprovals inp n db body = .ok (a, db', n')) : ∃ approvals,
      approvalDatabase.serial inp n db.approvals body = (.ok a, approvals, n') ∧
        db' = { db with approvals := approvals } := by
  rw [callApprovals] at h
  cases hrun : approvalDatabase.serial inp n db.approvals body with
  | mk x rest =>
    obtain ⟨approvals, k⟩ := rest
    rw [hrun] at h
    cases x with
    | error => cases h
    | ok b =>
      obtain ⟨rfl, rfl, rfl⟩ : b = a ∧ { db with approvals := approvals } = db' ∧ k = n' := by
        simpa using h
      exact ⟨approvals, rfl, rfl⟩

/-! ## Steps -/

def HardDeleteRequest.decided (ctx : CommandContext) (req : HardDeleteRequest)
    (status : ApprovalStatus) (r : HardDeleteRequest) : HardDeleteRequest :=
  match status with
  | .rejected => r.reject ctx.now
  | .approved => r.approve ctx.now (ctx.now + hours req.waitingPeriodHours)
  | _ => r

/-- What a command does that does not raise. -/
inductive Step (ctx : CommandContext) (db db' : HardDeleteTables) : Command → Prop
  /-- The requests stay, and the approvals move by a command of their own. -/
  | elsewhere (cmd : Command) (inp : ℕ → ApprovalInput) (n : ℕ) (call : ApprovalCall)
      (requests : db'.requests = db.requests)
      (performed : Performed inp n db.approvals call db'.approvals) : Step ctx db db' cmd
  | opened (cmd : Command) (row : HardDeleteRequest) (pending : row.status = .pendingApproval)
      (fresh : row.requestId ∉ db.requests.map (·.requestId))
      (requests : db'.requests = db.requests ++ [row])
      (moves : Relation.ReflTransGen Move db.approvals db'.approvals) : Step ctx db db' cmd
  | decided (requestId : String) (vote : Decision) (reasonCode : String) (req : HardDeleteRequest)
      (d : DecideApproval) (approver : PrincipalInfo) (grant : Grant)
      (found : db.loadRequest requestId = some req) (pending : req.status = .pendingApproval)
      (here : d.approvalId = req.approvalId)
      (decided : Decided d approver db.approvals db'.approvals)
      (left : db'.approvals.grants req.approvalId = some grant)
      (requests : db'.requests = (db.update requestId (req.decided ctx grant.status)).requests) :
      Step ctx db db' (.approve requestId vote reasonCode)
  | cancelled (requestId reasonCode : String) (req : HardDeleteRequest)
      (found : db.loadRequest requestId = some req)
      (unfinished : req.status ∈ RequestStatus.openStatuses)
      (requests : db'.requests = (db.update requestId (.cancel ctx.now)).requests)
      (moves : Relation.ReflTransGen Move db.approvals db'.approvals) :
      Step ctx db db' (.cancel requestId reasonCode)
  | executed (requestId : String) (req : HardDeleteRequest) (t : Time) (grant : Grant)
      (found : db.loadRequest requestId = some req) (waiting : req.status = .approvedWaiting)
      (executableAt : req.executableAt = some t) (waited : t ≤ ctx.now)
      (granted : db.approvals.grants req.approvalId = some grant)
      (standing : grant.status ∈ executable)
      (requests : db'.requests = (db.update requestId (.execute ctx.now)).requests)
      (approvals : db'.approvals = db.approvals) : Step ctx db db' (.execute requestId)

variable {catalog : PolicyCatalog} {shortHash : String → String} {inp : ℕ → ApprovalInput}
  {n n' : ℕ}

theorem Step.unchanged (cmd : Command) (hrequests : db'.requests = db.requests)
    (happrovals : db'.approvals = db.approvals) : Step ctx db db' cmd := by
  refine .elsewhere cmd (fun _ ↦ {}) 0 (.expire "" none) hrequests ?_
  rw [happrovals]
  exact .moved _ .refl

variable {cmd : Command} {reason reasonCode targetId targetType : String}

theorem Step.append {db₁ : HardDeleteTables} (h : Step ctx db db₁ cmd)
    (happrovals : db'.approvals = db₁.approvals) (hrequests : db'.requests = db₁.requests) :
    Step ctx db db' cmd := by
  cases h with
  | elsewhere _ inp n call requests performed =>
    exact .elsewhere _ inp n call (hrequests.trans requests) (happrovals ▸ performed)
  | opened _ row pending fresh requests moves =>
    exact .opened _ row pending fresh (hrequests.trans requests) (happrovals ▸ moves)
  | decided requestId vote reasonCode req d approver grant found pending here decided left
      requests =>
    exact .decided requestId vote reasonCode req d approver grant found pending here
      (happrovals ▸ decided) (happrovals ▸ left) (hrequests.trans requests)
  | cancelled requestId reasonCode req found unfinished requests moves =>
    exact .cancelled requestId reasonCode req found unfinished (hrequests.trans requests)
      (happrovals ▸ moves)
  | executed requestId req t grant found waiting executableAt waited granted standing requests
      approvals =>
    exact .executed requestId req t grant found waiting executableAt waited granted standing
      (hrequests.trans requests) (happrovals.trans approvals)

theorem openRequest_eq_ok {id : String}
    (h : openRequest catalog shortHash ctx inp targetType targetId reason n db = .ok (id, db', n'))
    (cmd : Command) : Step ctx db db' cmd := by
  rw [openRequest] at h
  split at h
  · cases h
  next type htype =>
  split_ifs at h with hreason hexists
  split at h
  · cases h
  obtain ⟨⟨outcome, db₁, n₁⟩, hcall, h⟩ := bind_eq_ok.1 h
  obtain ⟨approvals, hserial, rfl⟩ := callApprovals_eq_ok hcall
  have hmoves := (returns_requestApproval catalog).of_serial hserial
  dsimp only at h
  split at h
  · split_ifs at h with hfresh
    obtain ⟨-, rfl, -⟩ : _ ∧ _ = db' ∧ _ := by simpa using h
    exact .opened cmd _ rfl hfresh rfl hmoves
  · cases h

theorem requestHardDelete_eq_ok (h : requestHardDelete catalog shortHash ctx inp targetType targetId
    reason n db = .ok (db', n')) (cmd : Command) : Step ctx db db' cmd := by
  rw [requestHardDelete] at h
  obtain ⟨-, -, h⟩ := bind_eq_ok.1 h
  split at h
  · obtain ⟨rfl, -⟩ : db = db' ∧ n = n' := by simpa [pure, Except.pure] using h
    exact .unchanged cmd rfl rfl
  · obtain ⟨⟨id, db₁, n₁⟩, hopen, h⟩ := bind_eq_ok.1 h
    obtain ⟨db₂, happend, h⟩ := bind_eq_ok.1 h
    obtain ⟨rfl, -⟩ : db₂ = db' ∧ n₁ = n' := by simpa [pure, Except.pure] using h
    obtain ⟨happrovals, hrequests⟩ := append_eq_ok happend
    exact (openRequest_eq_ok hopen cmd).append happrovals hrequests

theorem applyDecision_eq_ok {req : HardDeleteRequest} {status : ApprovalStatus}
    (h : applyDecision ctx requestId req status db = .ok db') : db'.approvals = db.approvals ∧
      db'.requests = (db.update requestId (req.decided ctx status)).requests := by
  cases status with
  | rejected => exact append_eq_ok h
  | approved => exact append_eq_ok h
  | pending | partiallyConsumed | consumed | cancelled | expired | revoked =>
    obtain rfl := Except.ok.inj h
    refine ⟨rfl, ?_⟩
    simp [HardDeleteTables.update, HardDeleteRequest.decided]

theorem approveHardDelete_eq_ok (hdb : db.approvals.Indexed) {vote : Decision}
    (h : approveHardDelete catalog ctx inp requestId vote reasonCode n db = .ok (db', n')) :
    Step ctx db db' (.approve requestId vote reasonCode) := by
  rw [approveHardDelete] at h
  obtain ⟨-, -, h⟩ := bind_eq_ok.1 h
  split at h
  · cases h
  next req hreq =>
  split_ifs at h with hstatus
  obtain ⟨-, -, h⟩ := bind_eq_ok.1 h
  obtain ⟨⟨outcome, db₁, n₁⟩, hcall, h⟩ := bind_eq_ok.1 h
  obtain ⟨approvals, hserial, rfl⟩ := callApprovals_eq_ok hcall
  obtain ⟨approver, -, hdecided⟩ := (returns_decideApproval catalog hdb).of_serial hserial
  obtain ⟨status, recorded, quorum, eventId, rfl, grant, hgrant, hleft⟩ :=
    (returns_decideApproval_reports catalog hdb).of_serial hserial
  obtain ⟨db₂, happly, h⟩ := bind_eq_ok.1 h
  obtain ⟨rfl, -⟩ : db₂ = db' ∧ n₁ = n' := by simpa [pure, Except.pure] using h
  obtain ⟨happrovals, hrequests⟩ := applyDecision_eq_ok happly
  refine .decided requestId vote reasonCode req (decision ctx req vote reasonCode) approver grant
    hreq (not_not.1 hstatus) rfl ?_ ?_ ?_
  · rw [happrovals]
    exact hdecided
  · rw [happrovals]
    exact hgrant
  · rw [hrequests, hleft]
    rfl

theorem moves_cancelApproval (hdb : db.approvals.Indexed) (aid : ℕ) (actor key reason : String) :
    Relation.ReflTransGen Move db.approvals (approvalDatabase.transact inp n db.approvals
      (cancelApproval aid actor key reason)).1 := by
  have hreturns : approvalDatabase.Returns inp (cancelApproval aid actor key reason)
      (fun _ approvals _ ↦ Move db.approvals approvals) db.approvals n := returns_cancelApproval hdb
  rw [transact]
  cases hrun : approvalDatabase.serial inp n db.approvals (cancelApproval aid actor key reason) with
  | mk x =>
    cases x with
    | error => exact .refl
    | ok => exact .single (hreturns.of_serial hrun)

theorem cancelHardDelete_eq_ok (hdb : db.approvals.Indexed)
    (h : cancelHardDelete ctx inp requestId reasonCode n db = .ok (db', n')) :
    Step ctx db db' (.cancel requestId reasonCode) := by
  rw [cancelHardDelete] at h
  obtain ⟨-, -, h⟩ := bind_eq_ok.1 h
  split at h
  · cases h
  next req hreq =>
  split_ifs at h with hstatus
  obtain ⟨db₁, happend, h⟩ := bind_eq_ok.1 h
  obtain ⟨rfl, -⟩ : db₁ = db' ∧ _ := by simpa [pure, Except.pure] using h
  obtain ⟨happrovals, hrequests⟩ := append_eq_ok happend
  refine .cancelled requestId reasonCode req hreq hstatus hrequests ?_
  rw [happrovals]
  exact moves_cancelApproval hdb _ _ _ _

theorem executeHardDelete_eq_ok (h : executeHardDelete ctx requestId n db = .ok (db', n')) :
    Step ctx db db' (.execute requestId) := by
  rw [executeHardDelete] at h
  obtain ⟨-, -, h⟩ := bind_eq_ok.1 h
  split at h
  · cases h
  next req hreq =>
  split_ifs at h with hdone hstatus hwaited
  · obtain ⟨rfl, -⟩ : db = db' ∧ n = n' := by simpa [pure, Except.pure] using h
    exact .unchanged _ rfl rfl
  split at h
  · cases h
  next grant hgrant =>
  split_ifs at h with hstanding
  obtain ⟨-, -, h⟩ := bind_eq_ok.1 h
  split at h
  · cases h
  obtain ⟨db₁, happend, h⟩ := bind_eq_ok.1 h
  obtain ⟨rfl, -⟩ : db₁.update requestId _ = db' ∧ n = n' := by simpa [pure, Except.pure] using h
  obtain ⟨happrovals, hrequests⟩ := append_eq_ok happend
  obtain ⟨t, ht, hle⟩ : ∃ t, req.executableAt = some t ∧ t ≤ ctx.now := by
    simpa [Option.any_eq_true] using hwaited
  refine .executed requestId req t grant hreq (not_not.1 hstatus) ht hle hgrant
    hstanding ?_ happrovals
  rw [HardDeleteTables.update, hrequests]
  rfl

theorem perform_eq_ok (hdb : db.approvals.Indexed)
    (h : perform catalog shortHash ctx inp cmd n db = .ok (db', n')) : Step ctx db db' cmd := by
  cases cmd with
  | request => exact requestHardDelete_eq_ok h _
  | requestAccountDeletion _ _ refusal =>
    obtain ⟨-, -, h⟩ := bind_eq_ok.1 h
    cases refusal with
    | some => cases h
    | none =>
      obtain ⟨⟨id, db₁, n₁⟩, hopen, h⟩ := bind_eq_ok.1 h
      obtain ⟨rfl, -⟩ : db₁ = db' ∧ n₁ = n' := by simpa [pure, Except.pure] using h
      exact openRequest_eq_ok hopen _
  | approve => exact approveHardDelete_eq_ok hdb h
  | cancel => exact cancelHardDelete_eq_ok hdb h
  | execute => exact executeHardDelete_eq_ok h
  | approval call =>
    obtain ⟨⟨outcome, db₁, n₁⟩, hcall, h⟩ := bind_eq_ok.1 h
    obtain ⟨rfl, -⟩ : db₁ = db' ∧ n₁ = n' := by simpa [pure, Except.pure] using h
    obtain ⟨approvals, hserial, rfl⟩ := callApprovals_eq_ok hcall
    exact .elsewhere _ inp n call rfl ((returns_approvalBody catalog call hdb).of_serial hserial)

end AgentColab.HardDelete
