import AgentColab.HardDelete.Steps

/-!
# Who can have something deleted for good

A request is executed only after a quorum has approved it, through the request, and a waiting period
has passed since; and not once its approval has been revoked, cancelled or marked as expired.
-/

namespace AgentColab.HardDelete

open AgentColab Approvals Transaction Database Option

variable {catalog : PolicyCatalog} {shortHash : String → String} {db db' : HardDeleteTables}
  {ctx : CommandContext} {n n' : ℕ}

/-! ## The invariant -/

/-- The statuses of a request whose quorum has been reached through it. -/
def RequestStatus.granted : List RequestStatus := [.approvedWaiting, .executed]

/-- What the status of a request says of its approval and of the waiting period. -/
structure HardDeleteRequest.Agrees (r : HardDeleteRequest) (db : ApprovalTables) : Prop where
  rejected : r.status = .rejected → ∃ g, db.grants r.approvalId = some g ∧ g.status = .rejected
  granted : r.status ∈ RequestStatus.granted → ∃ g, db.grants r.approvalId = some g ∧
    g.status ≠ .pending ∧ g.status ≠ .rejected ∧ QuorumComplete db g
  waiting : r.status ∈ RequestStatus.granted → ∃ t, r.approvedAt = some t ∧
    r.executableAt = some (t + hours r.waitingPeriodHours)
  waited : r.status = .executed → ∃ t e, r.approvedAt = some t ∧ r.executedAt = some e ∧
    t + hours r.waitingPeriodHours ≤ e

/-- The invariant of the requests and their approvals. -/
structure Sound (db : HardDeleteTables) : Prop where
  tallied : Tallied db.approvals
  agrees : ∀ id r, db.loadRequest id = some r → r.Agrees db.approvals

theorem Sound.init : Sound {} where
  tallied := .init
  agrees id r h := by cases h

variable {r r' : HardDeleteRequest} {cmd : Command}

theorem HardDeleteRequest.Agrees.follows {db db' : ApprovalTables} (h : r.Agrees db)
    (hindexed : db.Indexed) (hindexed' : db'.Indexed) (hfollows : Follows db db') :
    r.Agrees db' where
  rejected hstatus := by
    obtain ⟨g, hg, hrejected⟩ := h.rejected hstatus
    obtain ⟨g', hg', -, hsame, -⟩ := hfollows _ g hg (by rw [hrejected]; nofun)
    exact ⟨g', hg', hsame.2 hrejected⟩
  granted hstatus := by
    obtain ⟨g, hg, hpending, hrejected, hquorum⟩ := h.granted hstatus
    obtain ⟨g', hg', hpending', hsame, hrequired, hrows⟩ := hfollows _ g hg hpending
    have hid : g'.approvalId = g.approvalId := (hindexed' _ _ hg').trans (hindexed _ _ hg).symm
    rw [← hindexed _ _ hg] at hrows
    exact ⟨g', hg', hpending', fun h ↦ hrejected (hsame.1 h), hquorum.follows hid hrequired hrows⟩
  waiting := h.waiting
  waited := h.waited

theorem HardDeleteRequest.Agrees.of_silent {db : ApprovalTables}
    (h : r.status = .pendingApproval ∨ r.status = .cancelled) : r.Agrees db := by
  constructor <;> intro hstatus <;> rcases h with h | h <;> rw [h] at hstatus <;>
    simp [RequestStatus.granted] at hstatus

theorem agrees_decided {req : HardDeleteRequest} {db : ApprovalTables} {g : Grant}
    (hg : db.grants req.approvalId = some g) (hpending : req.status = .pendingApproval)
    (hquorum : g.status = .approved → QuorumComplete db g) :
    (req.decided ctx g.status req).Agrees db := by
  cases hstatus : g.status with
  | rejected => exact ⟨fun _ ↦ ⟨g, hg, hstatus⟩, nofun, nofun, nofun⟩
  | approved =>
    refine ⟨nofun, fun _ ↦ ⟨g, hg, ?_, ?_, hquorum hstatus⟩, fun _ ↦ ⟨ctx.now, rfl, rfl⟩, nofun⟩
    · rw [hstatus]
      nofun
    · rw [hstatus]
      nofun
  | pending | partiallyConsumed | consumed | cancelled | expired | revoked =>
    exact .of_silent (.inl hpending)

theorem loadRequest_of_update {requestId : String} {f : HardDeleteRequest → HardDeleteRequest}
    (hrequests : db'.requests = (db.update requestId f).requests) (hf : KeepsId f) {id : String}
    (h : db'.loadRequest id = some r') :
    ∃ r, db.loadRequest id = some r ∧ r' = if id = requestId then f r else r := by
  have hload : db'.loadRequest id = (db.update requestId f).loadRequest id := by
    rw [HardDeleteTables.loadRequest, hrequests]
    rfl
  rw [hload, loadRequest_update hf] at h
  obtain ⟨r, hr, rfl⟩ := map_eq_some_iff.1 h
  exact ⟨r, hr, rfl⟩

theorem keepsId_decided (req : HardDeleteRequest) (status : ApprovalStatus) :
    KeepsId (req.decided ctx status) := by
  intro r
  cases status <;> rfl

theorem Step.moved (h : Step ctx db db' cmd) (hdb : Tallied db.approvals) :
    Tallied db'.approvals ∧ Follows db.approvals db'.approvals := by
  cases h with
  | elsewhere _ _ n _ _ performed => exact ⟨hdb.performed performed, performed.follows⟩
  | opened _ _ _ _ _ moves => exact ⟨hdb.moves moves, Moves.follows moves⟩
  | decided _ _ _ _ d _ _ _ _ _ decided =>
    exact ⟨hdb.decided decided, decided.follows⟩
  | cancelled _ _ _ _ _ _ moves =>
    exact ⟨hdb.moves moves, Moves.follows moves⟩
  | executed _ _ t _ _ _ _ _ _ _ _ approvals =>
    rw [approvals]
    exact ⟨hdb, .refl _⟩

theorem Step.sound (h : Step ctx db db' cmd) (hdb : Sound db) : Sound db' := by
  obtain ⟨htallied, hfollows⟩ := h.moved hdb.tallied
  have hkept : ∀ id r, db.loadRequest id = some r → r.Agrees db'.approvals := fun id r hr ↦
    (hdb.agrees id r hr).follows hdb.tallied.indexed htallied.indexed hfollows
  refine ⟨htallied, ?_⟩
  intro id r' hr'
  cases h with
  | elsewhere _ _ n _ requests =>
    rw [HardDeleteTables.loadRequest, requests] at hr'
    exact hkept id r' hr'
  | opened _ _ pending _ requests =>
    rw [HardDeleteTables.loadRequest, requests, List.find?_append, or_eq_some_iff] at hr'
    rcases hr' with hr' | ⟨-, hr'⟩
    · exact hkept id r' hr'
    · obtain rfl := List.mem_singleton.1 (List.mem_of_find?_eq_some hr')
      exact .of_silent (.inl pending)
  | decided _ _ _ req d _ grant found pending here decided left requests =>
    obtain ⟨r, hr, rfl⟩ := loadRequest_of_update requests (keepsId_decided req grant.status) hr'
    split_ifs with hid
    · obtain rfl : req = r := some.inj (found.symm.trans (hid ▸ hr))
      obtain ⟨g, hg, hquorum⟩ := decided.outcome hdb.tallied
      obtain rfl : g = grant := some.inj (hg.symm.trans (here ▸ left))
      exact agrees_decided left pending hquorum
    · exact hkept id r hr
  | cancelled _ _ _ _ _ requests =>
    obtain ⟨r, hr, rfl⟩ := loadRequest_of_update requests (fun _ ↦ rfl) hr'
    split_ifs with hid
    · exact .of_silent (.inr rfl)
    · exact hkept id r hr
  | executed _ req t _ found waiting executableAt waited _ _ requests =>
    obtain ⟨r, hr, rfl⟩ := loadRequest_of_update requests (fun _ ↦ rfl) hr'
    split_ifs with hid
    · obtain rfl : req = r := some.inj (found.symm.trans (hid ▸ hr))
      have hgranted : req.status ∈ RequestStatus.granted := by
        rw [waiting]
        decide
      have hbefore := hkept id req hr
      obtain ⟨t', happroved, ht'⟩ := hbefore.waiting hgranted
      obtain rfl : t = t' + hours req.waitingPeriodHours := some.inj (executableAt.symm.trans ht')
      exact ⟨by rintro ⟨⟩, fun _ ↦ hbefore.granted hgranted, fun _ ↦ ⟨t', happroved, ht'⟩,
        fun _ ↦ ⟨t', ctx.now, happroved, rfl, waited⟩⟩
    · exact hkept id r hr

theorem Reached.sound (h : Reached catalog shortHash db n) : Sound db := by
  induction h with
  | init => exact .init
  | step _ _ _ _ performed ih => exact (perform_eq_ok ih.tallied.indexed performed).sound ih

/-! ## Executions, quorums and cancellations -/

/-- What there is when `r` is executed, and what is left of it. -/
structure Authorised (ctx : CommandContext) (db db' : HardDeleteTables) (r : HardDeleteRequest) :
    Prop where
  standing : ∃ g, db.approvals.grants r.approvalId = some g ∧ g.status ∈ executable ∧
    QuorumComplete db.approvals g
  waited : ∃ t, r.approvedAt = some t ∧ t + hours r.waitingPeriodHours ≤ ctx.now
  untouched : db'.approvals = db.approvals

/-- The quorum is completed through the request, and the waiting period starts. -/
structure QuorumReached (ctx : CommandContext) (db db' : HardDeleteTables)
    (r r' : HardDeleteRequest) : Prop where
  pending : ∃ g, db.approvals.grants r.approvalId = some g ∧ g.status = .pending
  approved : ∃ g, db'.approvals.grants r.approvalId = some g ∧ g.status = .approved ∧
    QuorumComplete db'.approvals g
  starts : r'.approvedAt = some ctx.now

/-- How a request gets to the statuses of a granted request. -/
theorem Step.grants (h : Step ctx db db' cmd) (hdb : Sound db) {id : String}
    (hr : db.loadRequest id = some r) (hr' : db'.loadRequest id = some r') :
    (r.status ≠ .executed → r'.status = .executed → Authorised ctx db db' r) ∧
      (r.status ∉ RequestStatus.granted → r'.status ∈ RequestStatus.granted →
        QuorumReached ctx db db' r r') := by
  have hsame : r' = r → (r.status ≠ .executed → r'.status = .executed → Authorised ctx db db' r) ∧
      (r.status ∉ RequestStatus.granted → r'.status ∈ RequestStatus.granted →
        QuorumReached ctx db db' r r') := by
    rintro rfl
    exact ⟨fun h h' ↦ absurd h' h, fun h h' ↦ absurd h' h⟩
  cases h with
  | elsewhere _ _ n _ requests =>
    rw [HardDeleteTables.loadRequest, requests] at hr'
    exact hsame (some.inj (hr'.symm.trans hr))
  | opened _ _ _ _ requests =>
    rw [HardDeleteTables.loadRequest] at hr
    rw [HardDeleteTables.loadRequest, requests, List.find?_append, hr] at hr'
    exact hsame (some.inj hr').symm
  | decided _ _ _ req d _ grant found pending here decided left requests =>
    obtain ⟨r₀, hr₀, rfl⟩ := loadRequest_of_update requests (keepsId_decided req grant.status) hr'
    obtain rfl : r₀ = r := some.inj (hr₀.symm.trans hr)
    split_ifs with hid
    · obtain rfl : req = r₀ := some.inj (found.symm.trans (hid ▸ hr))
      obtain ⟨g, hg, hquorum⟩ := decided.outcome hdb.tallied
      obtain rfl : g = grant := some.inj (hg.symm.trans (here ▸ left))
      obtain ⟨g₀, hg₀, hpending⟩ := decided.before
      rw [here] at hg₀
      cases hstatus : g.status with
      | approved =>
        exact ⟨by rintro _ ⟨⟩, fun _ _ ↦ ⟨⟨g₀, hg₀, hpending⟩, ⟨g, left, hstatus, hquorum hstatus⟩, rfl⟩⟩
      | rejected =>
        refine ⟨by rintro _ ⟨⟩, fun _ h ↦ absurd h ?_⟩
        simp [RequestStatus.granted, HardDeleteRequest.decided, HardDeleteRequest.reject]
      | pending | partiallyConsumed | consumed | cancelled | expired | revoked =>
        exact ⟨fun h h' ↦ absurd h' h, fun h h' ↦ absurd h' h⟩
    · exact ⟨fun h h' ↦ absurd h' h, fun h h' ↦ absurd h' h⟩
  | cancelled _ _ _ _ _ requests =>
    obtain ⟨r₀, hr₀, rfl⟩ := loadRequest_of_update requests (fun _ ↦ rfl) hr'
    obtain rfl : r₀ = r := some.inj (hr₀.symm.trans hr)
    split_ifs with hid
    · refine ⟨by rintro _ ⟨⟩, fun _ h ↦ absurd h ?_⟩
      simp [RequestStatus.granted, HardDeleteRequest.cancel]
    · exact ⟨fun h h' ↦ absurd h' h, fun h h' ↦ absurd h' h⟩
  | executed _ req t grant found waiting executableAt waited granted standing requests approvals =>
    obtain ⟨r₀, hr₀, rfl⟩ := loadRequest_of_update requests (fun _ ↦ rfl) hr'
    obtain rfl : r₀ = r := some.inj (hr₀.symm.trans hr)
    split_ifs with hid
    · obtain rfl : req = r₀ := some.inj (found.symm.trans (hid ▸ hr))
      have hgranted : req.status ∈ RequestStatus.granted := by
        rw [waiting]
        decide
      refine ⟨fun _ _ ↦ ⟨?_, ?_, approvals⟩, fun h ↦ absurd hgranted h⟩
      · obtain ⟨g, hg, -, -, hquorum⟩ := (hdb.agrees _ _ found).granted hgranted
        obtain rfl : g = grant := some.inj (hg.symm.trans granted)
        exact ⟨g, hg, standing, hquorum⟩
      · obtain ⟨t', happroved, ht'⟩ := (hdb.agrees _ _ found).waiting hgranted
        obtain rfl : t = t' + hours req.waitingPeriodHours := some.inj (executableAt.symm.trans ht')
        exact ⟨t', happroved, waited⟩
    · exact ⟨fun h h' ↦ absurd h' h, fun h h' ↦ absurd h' h⟩

/-- The idempotency key of the context has not been used to cancel. -/
def Unused (ctx : CommandContext) (db : HardDeleteTables) : Prop :=
  ∀ e ∈ db.events, ¬(e.workspaceId = ctx.workspaceId ∧ e.actorAccountId = ctx.accountUuid ∧
    e.idempotencyScope = "hard_delete:cancel" ∧ e.idempotencyKey = ctx.idempotencyKey)

theorem exists_append (hstore : ctx.appendError = none) (hunused : Unused ctx db)
    (requestId : String) (type : HardDeleteEventType) : ∃ db',
      append ctx "hard_delete:cancel" requestId type db = .ok db' ∧ db'.requests = db.requests := by
  have hnone : (db.events.find? fun e ↦ e.workspaceId = ctx.workspaceId ∧
      e.actorAccountId = ctx.accountUuid ∧ e.idempotencyScope = "hard_delete:cancel" ∧
      e.idempotencyKey = ctx.idempotencyKey) = none :=
    List.find?_eq_none.2 fun e he ↦ by simpa using hunused e he
  refine ⟨{ db with events := db.events ++ [⟨ctx.workspaceId, ctx.accountUuid,
    "hard_delete:cancel", ctx.idempotencyKey, requestId, type⟩] }, ?_, rfl⟩
  rw [append]
  dsimp only
  rw [hnone, hstore]

theorem exists_cancel {inp : ℕ → ApprovalInput} {id : String} (hr : db.loadRequest id = some r)
    (hopen : r.status ∈ RequestStatus.openStatuses) (hdenial : ctx.denial = none)
    (hstore : ctx.appendError = none) (hunused : Unused ctx db) (reasonCode : String) : ∃ db' n' r',
      perform catalog shortHash ctx inp (.cancel id reasonCode) n db = .ok (db', n') ∧
        db'.loadRequest id = some r' ∧ r'.status = .cancelled := by
  let run := approvalDatabase.transact inp n db.approvals
    (cancelApproval r.approvalId ctx.accountUuid (ctx.idempotencyKey ++ ":cancel") reasonCode)
  let cancelled : HardDeleteTables :=
    { db.update id (.cancel ctx.now) with approvals := run.1 }
  have hunused' : Unused ctx cancelled := hunused
  obtain ⟨db', happend, hrequests⟩ := exists_append hstore hunused' id .rejected
  refine ⟨db', run.2, r.cancel ctx.now, ?_, ?_, rfl⟩
  · refine bind_eq_ok.2 ⟨(), by rw [requirePermission, hdenial]; rfl, ?_⟩
    rw [hr]
    dsimp only
    rw [if_neg (not_not.2 hopen)]
    exact bind_eq_ok.2 ⟨db', happend, rfl⟩
  · have hkeeps : KeepsId (HardDeleteRequest.cancel ctx.now) := fun _ ↦ rfl
    rw [HardDeleteTables.loadRequest, hrequests]
    change (db.update id (.cancel ctx.now)).loadRequest id = _
    rw [loadRequest_update hkeeps, hr, map_some, if_pos rfl]

/-! ## A document -/

/-! ## The life of a request -/

/-- What is deleted, why, on whose request, with which approval and after which period. -/
def HardDeleteRequest.pins (r : HardDeleteRequest) : HardDeleteRequest :=
  { r with
    status := .pendingApproval
    approvedAt := none
    executableAt := none
    executedAt := none
    updatedAt := r.createdAt }

/-- What commands leave of a request: nothing of it changes once it has ended, its waiting period
starts once, and what it is about never changes. -/
structure HardDeleteRequest.Becomes (r r' : HardDeleteRequest) : Prop where
  pins : r'.pins = r.pins
  waiting : r.status ≠ .pendingApproval → r'.status ≠ .pendingApproval ∧
    r'.approvedAt = r.approvedAt ∧ r'.executableAt = r.executableAt
  ended : r.status ∉ RequestStatus.openStatuses → r' = r

theorem HardDeleteRequest.Becomes.refl (r : HardDeleteRequest) : r.Becomes r :=
  ⟨rfl, fun h ↦ ⟨h, rfl, rfl⟩, fun _ ↦ rfl⟩

theorem HardDeleteRequest.Becomes.trans {r'' : HardDeleteRequest} (h : r.Becomes r')
    (h' : r'.Becomes r'') : r.Becomes r'' := by
  refine ⟨h'.pins.trans h.pins, fun hleft ↦ ?_, fun hended ↦ ?_⟩
  · obtain ⟨hleft', happroved, hexecutable⟩ := h.waiting hleft
    obtain ⟨hleft'', happroved', hexecutable'⟩ := h'.waiting hleft'
    exact ⟨hleft'', happroved'.trans happroved, hexecutable'.trans hexecutable⟩
  · obtain rfl := h.ended hended
    exact h'.ended hended

theorem Step.becomes (h : Step ctx db db' cmd) {id : String} (hr : db.loadRequest id = some r) :
    ∃ r', db'.loadRequest id = some r' ∧ r.Becomes r' := by
  have hupdate : ∀ {requestId f req}, db'.requests = (db.update requestId f).requests → KeepsId f →
      db.loadRequest requestId = some req → req.Becomes (f req) →
      ∃ r', db'.loadRequest id = some r' ∧ r.Becomes r' := by
    intro requestId f req hrequests hf hreq hbecomes
    have hload : db'.loadRequest id = (db.update requestId f).loadRequest id := by
      rw [HardDeleteTables.loadRequest, hrequests]
      rfl
    rw [hload, loadRequest_update hf, hr]
    refine ⟨_, rfl, ?_⟩
    split_ifs with hid
    · obtain rfl : req = r := some.inj (hreq.symm.trans (hid ▸ hr))
      exact hbecomes
    · exact .refl r
  cases h with
  | elsewhere _ _ _ _ requests =>
    rw [HardDeleteTables.loadRequest, requests]
    exact ⟨r, hr, .refl r⟩
  | opened _ _ _ _ requests =>
    rw [HardDeleteTables.loadRequest] at hr
    rw [HardDeleteTables.loadRequest, requests, List.find?_append, hr]
    exact ⟨r, rfl, .refl r⟩
  | decided _ _ _ req _ _ grant found pending _ _ _ requests =>
    refine hupdate requests (keepsId_decided req grant.status) found ?_
    refine ⟨?_, fun h ↦ absurd pending h, fun h ↦ absurd ?_ h⟩
    · cases grant.status <;> rfl
    · rw [pending]
      decide
  | cancelled _ _ req found unfinished requests =>
    exact hupdate requests (fun _ ↦ rfl) found
      ⟨rfl, fun _ ↦ ⟨by rintro ⟨⟩, rfl, rfl⟩, fun h ↦ absurd unfinished h⟩
  | executed _ req _ _ found waiting _ _ _ _ requests =>
    refine hupdate requests (fun _ ↦ rfl) found
      ⟨rfl, fun _ ↦ ⟨by rintro ⟨⟩, rfl, rfl⟩, fun h ↦ absurd ?_ h⟩
    rw [waiting]
    decide

namespace Sample

/-- The commands of an account, which has just proved itself. -/
def context (account key : String) (now : Time) : CommandContext where
  workspaceId := "ws"
  accountUuid := account
  accountId := account
  credentialFingerprint := "f"
  idempotencyKey := key
  now := now
  verifiedAt := some now

def hash (_ : String) : String := "1"

def run (account key : String) (now : Time) (cmd : Command) (w : HardDeleteTables × ℕ) :
    Except CommandError (HardDeleteTables × ℕ) :=
  perform Approvals.Sample.catalog hash (context account key now) (Approvals.Sample.input account)
    cmd w.2 w.1

def ran (account key : String) (now : Time) (cmd : Command) (w : HardDeleteTables × ℕ) :
    HardDeleteTables × ℕ :=
  (run account key now cmd w).toOption.getD w

def opened : HardDeleteTables × ℕ :=
  ran "requester" "k1" 1000 (.request "document" "doc" "erasure") ({}, 0)

def voted : HardDeleteTables × ℕ := ran "first" "k2" 1000 (.approve "hd-1" .approve "") opened

def waiting : HardDeleteTables × ℕ := ran "second" "k3" 1000 (.approve "hd-1" .approve "") voted

/-- The request is executed a day after the week in which its approval is valid. -/
def gone : HardDeleteTables × ℕ :=
  ran "first" "k4" (1000 + hours (24 * 8)) (.execute "hd-1") waiting

variable {account key : String} {now : Time} {cmd : Command} {w : HardDeleteTables × ℕ}

theorem run_eq_ok (h : (run account key now cmd w).isOk = true) :
    run account key now cmd w = .ok (ran account key now cmd w) := by
  rw [ran]
  cases hrun : run account key now cmd w with
  | error =>
    rw [hrun] at h
    cases h
  | ok => rfl

theorem reached_ran (h : Reached Approvals.Sample.catalog hash w.1 w.2)
    (hok : (run account key now cmd w).isOk = true) : Reached Approvals.Sample.catalog hash
      (Sample.ran account key now cmd w).1 (Sample.ran account key now cmd w).2 :=
  .step (context account key now) (Approvals.Sample.input account) cmd h (run_eq_ok hok)

theorem reached_waiting : Reached Approvals.Sample.catalog hash waiting.1 waiting.2 := by
  have hopened : Reached Approvals.Sample.catalog hash opened.1 opened.2 :=
    reached_ran .init (by decide)
  have hvoted : Reached Approvals.Sample.catalog hash voted.1 voted.2 :=
    reached_ran hopened (by decide)
  exact reached_ran hvoted (by decide)

abbrev later : CommandContext := context "first" "k4" (1000 + hours (24 * 8))

theorem run_gone : perform Approvals.Sample.catalog hash later (Approvals.Sample.input "first")
    (.execute "hd-1") waiting.2 waiting.1 = .ok (gone.1, gone.2) :=
  run_eq_ok (by decide)

theorem exists_executed : ∃ r r', waiting.1.loadRequest "hd-1" = some r ∧
    gone.1.loadRequest "hd-1" = some r' ∧ r.status ≠ .executed ∧ r'.status = .executed ∧
      (gone.1.approvals.grants r.approvalId).map (·.status) = some .approved :=
  ⟨(waiting.1.loadRequest "hd-1").get (by decide), (gone.1.loadRequest "hd-1").get (by decide),
    (some_get _).symm, (some_get _).symm, by decide, by decide, by decide⟩

end Sample

open Sample

/-- What an execution would do that used its approval. -/
structure Consumes (ctx : CommandContext) (db db' : HardDeleteTables) (r : HardDeleteRequest) :
    Prop where
  usable : ∃ g, db.approvals.grants r.approvalId = some g ∧ g.usableAt ctx.now = true
  consumed : ∃ g, db'.approvals.grants r.approvalId = some g ∧ g.status = .consumed

end AgentColab.HardDelete
