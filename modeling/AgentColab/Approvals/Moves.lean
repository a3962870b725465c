import AgentColab.Approvals.Service

/-!
# What an approval command does

A committed call moves one approval, or changes the alias table; an expiry pass moves several. The
relations below say everything such a move can do, guards included.
-/

namespace AgentColab.Approvals

open AgentColab Transaction Database Option
open Relation (ReflTransGen)

variable (catalog : PolicyCatalog) {inp : ℕ → ApprovalInput} {db db' : ApprovalTables} {n : ℕ}

/-- What `_append` has done. -/
inductive Appended (db : ApprovalTables) (g : Grant) (actor : String) (p : Payload) :
    AppendResult → ApprovalTables → Prop where
  | new (e : Event) (aggregate : e.aggregateId = g.approvalId)
      (workspace : e.workspaceId = g.workspaceUuid) (by' : e.actorAccountId = actor)
      (payload : e.payload = p) (expected : e.aggregateSeq = g.aggregateSeq + 1)
      (next : e.aggregateSeq = (db.stream g.approvalId).length + 1) :
      Appended db g actor p ⟨e.eventId, e.aggregateSeq, false⟩ (db.apply (.insertEvent e))
  | replayed (prior : Event) (recorded : prior ∈ db.stream g.approvalId)
      (payload : prior.payload = p) :
      Appended db g actor p ⟨prior.eventId, prior.aggregateSeq, true⟩ db

/-- The store after `_project`. -/
def projectedStore (db : ApprovalTables) (g : Grant) (status : ApprovalStatus) (eventId : ℕ)
    (now : Time) : ApprovalTables :=
  db.apply (.upsertProjection g.approvalId (projected g status (db.consumptions g.approvalId).length
    (db.deciders g.approvalId) eventId now))

/-- The store after `_set_status` and `_project`. -/
def settled (db : ApprovalTables) (g : Grant) (status : ApprovalStatus) (r : AppendResult)
    (now : Time) : ApprovalTables :=
  projectedStore (db.apply (.setStatus g.approvalId status r.aggregateSeq)) g status r.eventId now

/-- A grant is found under its own id. -/
def ApprovalTables.Indexed (db : ApprovalTables) : Prop :=
  ∀ aid g, db.grants aid = some g → g.approvalId = aid

/-! ## The moves -/

/-- A termination of `g`. -/
inductive Ended (db : ApprovalTables) (g : Grant) (p : Payload) : ApprovalTables → Prop where
  | intro (actor : String) (status : ApprovalStatus) (r : AppendResult) (mid : ApprovalTables)
      (now : Time) (found : db.grants g.approvalId = some g)
      (legal : nextStatus g.status p.type = .ok status) (appended : Appended db g actor p r mid) :
      Ended db g p (settled mid g status r now)

variable {g : Grant} {p : Payload} {α : Type} {aid eventId : ℕ} {r : AppendResult}
    {actor key reasonCode scope : String} {Q : Unit → ApprovalTables → ℕ → Prop}
    {status : ApprovalStatus} {now : Time} {d : DecideApproval} {approver : PrincipalInfo}
    {decision : Decision} {c : ConsumeApproval}

theorem Ended.found (h : Ended db g p db') : db.grants g.approvalId = some g := by
  cases h
  assumption

/-- What a call other than a decision or a change of the alias table can do to one approval. -/
inductive Move (db : ApprovalTables) : ApprovalTables → Prop where
  | requested (g : Grant) (r : AppendResult) (mid : ApprovalTables) (now : Time)
      (fresh : db.grants g.approvalId = none) (pending : g.status = .pending)
      (unrecorded : g.aggregateSeq = 0)
      (appended : Appended (db.apply (.insertGrant g)) g g.requestedBy
        (.requested g.subject g.action g.risk g.expiresAt g.quorumRequired g.maxUses) r mid) :
      Move db (settled mid g .pending r now)
  | cancelled (g : Grant) (reasonCode : String) {db' : ApprovalTables}
      (ended : Ended db g (.cancelled reasonCode) db') : Move db db'
  | revoked (g : Grant) (reasonCode : String) {db' : ApprovalTables}
      (ended : Ended db g (.revoked reasonCode) db') : Move db db'
  | expired (g g' : Grant) (actor role : String) (r : AppendResult) (db₁ mid : ApprovalTables)
      (now : Time) (ended : Ended db g .expired db₁)
      (found : db₁.grants g.approvalId = some g')
      (appended : Appended db₁ g' actor (.escalated role) r mid) :
      Move db (settled mid g' .expired r now)
  | consumed (c : ConsumeApproval) (g : Grant) (r : AppendResult) (mid : ApprovalTables)
      (now : Time) (found : db.grants g.approvalId = some g) (here : g.approvalId = c.approvalId)
      (absent : c.consumptionKey ∉ (db.consumptions c.approvalId).map (·.consumptionKey))
      (usable : g.status ∈ ApprovalStatus.consumable)
      (appended : Appended db g c.consumedBy (.consumed c.consumptionKey
        ((db.consumptions c.approvalId).length + 1) c.consumedFor) r mid) :
      Move db (settled (mid.apply (.insertConsumption ⟨c.approvalId, c.consumptionKey,
        c.consumedBy, c.consumedFor, r.eventId⟩)) g
        (statusAfterConsumption ((db.consumptions c.approvalId).length + 1) g.maxUses) r now)

/-- Whom `check_eligibility` lets decide on a pending approval. -/
structure Eligible (db : ApprovalTables) (g : Grant) (approver : PrincipalInfo) : Prop where
  notRequester : samePrincipal approver.accountUuid g.requestedBy db.aliases = false
  notImplementer : samePrincipal approver.accountUuid g.implementingAgentAccount db.aliases = false
  notPrior : approver.accountUuid ∉ db.deciders g.approvalId

def DecideApproval.row (d : DecideApproval) (approver : PrincipalInfo) (decision : Decision)
    (eventId : ℕ) : DecisionRow :=
  ⟨d.approvalId, approver.accountUuid, decision, d.credentialFingerprint, d.reauthVerified, eventId⟩

/-- What a decision of `approver` can do. -/
inductive Decided (d : DecideApproval) (approver : PrincipalInfo) (db : ApprovalTables) :
    ApprovalTables → Prop where
  | voted (g : Grant) (last : Event) (now : Time) (approves : d.decision = .approve)
      (found : db.grants g.approvalId = some g)
      (here : g.approvalId = d.approvalId) (pending : g.status = .pending)
      (eligible : Eligible db g approver)
      (short : (db.deciders g.approvalId).length + 1 < g.quorumRequired)
      (latest : (db.stream g.approvalId).getLast? = some last) :
      Decided d approver db (projectedStore
        (db.apply (.insertDecision (d.row approver .approve last.eventId))) g .pending
        last.eventId now)
  | rejected (g : Grant) (r : AppendResult) (mid : ApprovalTables) (now : Time)
      (found : db.grants g.approvalId = some g) (here : g.approvalId = d.approvalId)
      (pending : g.status = .pending) (eligible : Eligible db g approver)
      (appended : Appended db g approver.accountUuid (.rejected approver.accountId d.reasonCode)
        r mid) :
      Decided d approver db (settled (mid.apply (.insertDecision (d.row approver .reject r.eventId)))
        g .rejected r now)
  | granted (g : Grant) (r : AppendResult) (mid : ApprovalTables) (now : Time)
      (names : List String) (approves : d.decision = .approve)
      (found : db.grants g.approvalId = some g)
      (here : g.approvalId = d.approvalId) (pending : g.status = .pending)
      (eligible : Eligible db g approver)
      (reached : g.quorumRequired ≤ (db.deciders g.approvalId).length + 1)
      (appended : Appended db g approver.accountUuid (.granted approver.accountId
        ((db.deciders g.approvalId).length + 1) names) r mid) :
      Decided d approver db (settled (mid.apply (.insertDecision (d.row approver .approve r.eventId)))
        g .approved r now)

/-! ## The bodies -/

theorem returns_orRaise {x : Except ApprovalError α} {Q : α → ApprovalTables → ℕ → Prop}
    (h : ∀ a, x = .ok a → Q a db n) : approvalDatabase.Returns inp (orRaise x) Q db n := by
  cases x with
  | ok a => exact returns_ret.2 (h a rfl)
  | error => exact returns_raise

theorem returns_read {o : Op} {r : Res o} (ho : execStatement (inp n) n db o = read r)
    {Q : Res o → ApprovalTables → ℕ → Prop} (h : Q r db (n + 1)) :
    approvalDatabase.Returns inp (ask o) Q db n := by
  refine returns_issue.2 ?_
  change Q (execStatement (inp n) n db o).result
    (approvalDatabase.view db (execStatement (inp n) n db o).writes) (n + 1)
  rw [ho]
  exact h

theorem returns_loadGrant {forUpdate : Bool} {Q : Grant → ApprovalTables → ℕ → Prop}
    (h : ∀ g, db.grants aid = some g → Q g db (n + 1)) :
    approvalDatabase.Returns inp (loadGrant aid forUpdate) Q db n := by
  refine returns_do (returns_issue.2 ?_)
  change approvalDatabase.Returns inp _ _ db (n + 1)
  dsimp only [execStatement]
  cases hg : db.grants aid with
  | none => exact returns_raise
  | some g => exact returns_ret.2 (h g hg)

theorem execAppend_appended {req : AppendRequest} {i : ApprovalInput}
    (haid : req.aggregateId = g.approvalId) (hws : req.workspaceId = g.workspaceUuid)
    (hseq : req.expectedSeq = g.aggregateSeq + 1) (h : (execAppend i n db req).result = .ok r) :
    Appended db g req.actorAccountId req.payload r
      (approvalDatabase.view db (execAppend i n db req).writes) := by
  rw [execAppend] at h ⊢
  split at h
  · next prior hprior =>
    split_ifs at h ⊢ with hbody
    simp only [Event.sameBody, Bool.and_eq_true, decide_eq_true_eq] at hbody
    obtain rfl := Except.ok.inj h
    refine .replayed prior ?_ hbody.2
    exact List.mem_filter.2 ⟨List.mem_of_find?_eq_some hprior, by simpa [haid] using hbody.1⟩
  · dsimp only
    split at h
    · cases h
    · dsimp only at h
      split_ifs at h ⊢ with hnext
      obtain rfl := Except.ok.inj h
      simp only [ne_eq, not_not] at hnext
      rw [haid] at hnext ⊢
      exact .new ⟨n, _, _, _, _, _, _, _, i.now⟩ rfl hws rfl rfl (hnext.symm.trans hseq) rfl

theorem returns_append {Q : AppendResult → ApprovalTables → ℕ → Prop}
    (h : ∀ r mid, Appended db g actor p r mid → Q r mid (n + 1)) :
    approvalDatabase.Returns inp (append g actor scope key p) Q db n := by
  refine returns_do (returns_issue.2 (returns_orRaise fun r hr ↦ ?_))
  exact h r _ (execAppend_appended rfl rfl rfl hr)

theorem returns_project (h : Q () (projectedStore db g status eventId now) (n + 3)) :
    approvalDatabase.Returns inp (project g status eventId now) Q db n :=
  returns_do (returns_issue.2 (returns_do (returns_issue.2 (returns_issue.2 h))))

theorem returns_settle (haid : g.approvalId = aid) {a : α} {Q : α → ApprovalTables → ℕ → Prop}
    (h : Q a (settled db g status r now) (n + 4)) : approvalDatabase.Returns inp (do
      ask (.setStatus aid status r.aggregateSeq)
      project g status r.eventId now
      return a) Q db n := by
  subst haid
  exact returns_do (returns_issue.2 (returns_do (returns_project (returns_ret.2 h))))

theorem returns_createGrant {r : RequestApproval} :
    approvalDatabase.Returns inp (createGrant catalog r now) (fun _ db' _ ↦ Move db db') db n := by
  refine returns_do (returns_issue.2 ?_)
  dsimp only [execStatement]
  split_ifs with hsome
  · exact returns_do returns_raise
  · refine returns_do (returns_ret.2 (returns_do (returns_loadGrant fun g hg ↦ ?_)))
    have hrow : (db.apply (.insertGrant (newGrant catalog r now n))).grants n =
        some (newGrant catalog r now n) := Function.update_self ..
    obtain rfl := some.inj (hrow.symm.trans hg)
    refine returns_do (returns_append fun res mid happ ↦ returns_settle rfl ?_)
    refine .requested (newGrant catalog r now n) res mid now ?_ rfl rfl happ
    simpa using hsome

theorem returns_requestApproval {r : RequestApproval} :
    approvalDatabase.Returns inp (requestApproval catalog r)
      (fun _ db' _ ↦ ReflTransGen Move db db') db n := by
  refine returns_do (returns_issue.2 (returns_do (returns_orRaise fun _ _ ↦ ?_)))
  split_ifs with huses
  · exact returns_raise
  · refine returns_do (returns_issue.2 ?_)
    split_ifs with hexpiry
    · exact returns_raise
    · refine returns_do (returns_issue.2 ?_)
      change approvalDatabase.Returns inp _ _ db _
      split
      · refine returns_do (returns_loadGrant fun g _ ↦ returns_do (returns_issue.2 ?_))
        change approvalDatabase.Returns inp _ _ db _
        split
        · exact returns_ret.2 .refl
        · exact returns_raise
      · exact (returns_createGrant catalog).mono fun _ _ _ h ↦ .single h

/-! ### Decisions -/

theorem returns_checkEligibility {prior : List String}
    {Q : Except String PrincipalInfo → ApprovalTables → ℕ → Prop}
    (herr : ∀ code k, Q (.error code) db k) (hok : ∀ approver k, (inp n).principal = some approver
    → samePrincipal approver.accountUuid g.requestedBy db.aliases = false → samePrincipal
    approver.accountUuid g.implementingAgentAccount db.aliases = false → approver.accountUuid ∉
    prior → Q (.ok approver) db k) :
    approvalDatabase.Returns inp (checkEligibility catalog d g prior) Q db n := by
  refine returns_do (returns_read rfl ?_)
  split
  · exact returns_ret.2 (herr _ _)
  next approver happrover =>
  split
  · exact returns_ret.2 (herr _ _)
  refine returns_do (returns_read rfl ?_)
  by_cases hself : (samePrincipal approver.accountUuid (some g.requestedBy) db.aliases ||
      samePrincipal approver.accountUuid g.implementingAgentAccount db.aliases) = true
  · rw [if_pos hself]
    exact returns_ret.2 (herr _ _)
  rw [if_neg hself]
  simp only [Bool.or_eq_true, not_or, Bool.not_eq_true] at hself
  split
  · exact returns_ret.2 (herr _ _)
  next hprior =>
  split
  · exact returns_ret.2 (herr _ _)
  refine returns_do (returns_read rfl ?_)
  split
  · exact returns_ret.2 (herr _ _)
  · exact returns_ret.2 (herr _ _)
  · exact returns_ret.2 (herr _ _)
  refine returns_do (returns_read rfl ?_)
  split
  · exact returns_ret.2 (herr _ _)
  · split
    · exact returns_ret.2 (herr _ _)
    · exact returns_ret.2 (hok approver _ happrover hself.1 hself.2 hprior)

theorem returns_recordDecision
    (h : Q () (db.apply (.insertDecision (d.row approver decision eventId))) (n + 1)) :
    approvalDatabase.Returns inp (recordDecision d approver.accountUuid decision eventId) Q db n := by
  refine returns_do (returns_issue.2 (returns_orRaise ?_))
  rintro ⟨⟩ hok
  dsimp only [execStatement] at hok ⊢
  split_ifs at hok ⊢
  exact h

theorem returns_conclude (haid : g.approvalId = d.approvalId)
    {Q : ApprovalStatus × ℕ → ApprovalTables → ℕ → Prop} (h : ∀ r mid status k, Appended db g
    approver.accountUuid p r mid → nextStatus g.status p.type = .ok status → Q (status, r.eventId)
    (settled (mid.apply (.insertDecision (d.row approver decision r.eventId))) g status r now) k) :
    approvalDatabase.Returns inp (conclude d g approver decision p now) Q db n :=
  returns_do (returns_append fun r mid happ ↦ returns_do (returns_recordDecision
    (returns_do (returns_orRaise fun status hstatus ↦
      returns_settle haid (h r mid status _ happ hstatus)))))

theorem returns_recordVote (found : db.grants g.approvalId = some g)
    (here : g.approvalId = d.approvalId) (pending : g.status = .pending)
    (eligible : Eligible db g approver) :
    approvalDatabase.Returns inp (recordVote d g (db.deciders g.approvalId) approver now)
      (fun _ db' _ ↦ Decided d approver db db') db n := by
  rw [recordVote]
  cases hdecision : d.decision with
  | reject =>
    refine returns_do (returns_conclude here fun r mid status k happ hstatus ↦ returns_ret.2 ?_)
    rw [pending] at hstatus
    obtain rfl : .rejected = status := Except.ok.inj hstatus
    exact .rejected g r mid now found here pending eligible happ
  | approve =>
    dsimp only
    split
    · next hreached =>
      refine returns_do (returns_conclude here fun r mid status k happ hstatus ↦ returns_ret.2 ?_)
      rw [pending] at hstatus
      obtain rfl : .approved = status := Except.ok.inj hstatus
      exact .granted g r mid now _ hdecision found here pending eligible hreached happ
    · next hshort =>
      refine returns_do (returns_read rfl ?_)
      split
      · exact returns_raise
      · next last hlast =>
        refine returns_do (returns_recordDecision (returns_do (returns_project (returns_ret.2 ?_))))
        rw [← here] at hlast
        exact .voted g last now hdecision found here pending eligible (Nat.lt_of_not_ge hshort) hlast

theorem returns_decideApproval (hdb : db.Indexed) :
    approvalDatabase.Returns inp (decideApproval catalog d)
      (fun _ db' _ ↦ ∃ approver, (inp (n + 3)).principal = some approver ∧
        Decided d approver db db') db n := by
  refine returns_do (returns_read rfl (returns_do (returns_loadGrant fun g hg ↦ ?_)))
  have haid : g.approvalId = d.approvalId := hdb _ _ hg
  rw [← haid] at hg
  by_cases hpending : g.status = .pending
  · rw [if_neg (by simpa using hpending)]
    split
    · exact returns_raise
    · refine returns_do (returns_read rfl (returns_do (returns_checkEligibility catalog ?_ ?_)))
      · exact fun _ _ ↦ returns_raise
      · intro approver k hprincipal hreq himp hprior
        rw [← haid] at hprior ⊢
        refine (returns_recordVote hg haid hpending ⟨hreq, himp, hprior⟩).mono ?_
        exact fun _ _ _ h ↦ ⟨approver, hprincipal, h⟩
  · rw [if_pos hpending]
    exact returns_raise

/-! ### Terminations -/

theorem returns_terminate (hdb : db.Indexed) :
    approvalDatabase.Returns inp (terminate aid p actor key scope)
      (fun _ db' _ ↦ ∃ g, g.approvalId = aid ∧ Ended db g p db') db n := by
  refine returns_do (returns_loadGrant fun g hg ↦ returns_do (returns_orRaise fun status hstatus ↦ ?_))
  have haid : g.approvalId = aid := hdb _ _ hg
  subst haid
  refine returns_do (returns_append fun r mid happ ↦ returns_do (returns_issue.2 ?_))
  refine returns_do (returns_read rfl (returns_do (returns_project (returns_ret.2 ?_))))
  exact ⟨g, rfl, .intro actor status r mid _ hg hstatus happ⟩

theorem returns_cancelApproval (hdb : db.Indexed) :
    approvalDatabase.Returns inp (cancelApproval aid actor key reasonCode)
      (fun _ db' _ ↦ Move db db') db n := by
  refine returns_do (returns_loadGrant fun g _ ↦ ?_)
  have hend : ∀ (allowed : Bool) (k : ℕ), approvalDatabase.Returns inp ((do
      if !allowed then
        throw ⟨"APPROVAL_CANCEL_FORBIDDEN", "only the requester or an administrator", 403⟩
      else
      let result ← terminate aid (.cancelled reasonCode) actor key "cancel"
      return .terminated result.eventId) : Body Outcome) (fun _ db' _ ↦ Move db db') db k := by
    intro allowed k
    split
    · exact returns_raise
    · refine returns_do ((returns_terminate hdb).mono ?_)
      rintro - db' k' ⟨g, -, h⟩
      exact returns_ret.2 (.cancelled g reasonCode h)
  dsimp only
  split
  · exact returns_do (returns_ret.2 (hend _ _))
  · exact returns_do (returns_read rfl (hend _ _))

theorem returns_revokeApproval (hdb : db.Indexed) :
    approvalDatabase.Returns inp (revokeApproval aid actor key reasonCode)
      (fun _ db' _ ↦ Move db db') db n := by
  refine returns_do ((returns_terminate hdb).mono ?_)
  rintro - db' k ⟨g, -, h⟩
  exact returns_ret.2 (.revoked g reasonCode h)

/-! ### Indexing

A loop of terminations needs that grants stay under their ids. -/

theorem ApprovalTables.Indexed.setStatus (hdb : db.Indexed) (aid : ℕ) (status : ApprovalStatus)
    (seq : ℕ) : (db.apply (.setStatus aid status seq)).Indexed := by
  intro aid' g hg
  by_cases haid : aid' = aid
  · subst haid
    simp only [apply, Function.update_self, map_eq_some_iff] at hg
    obtain ⟨g₀, hg₀, rfl⟩ := hg
    exact hdb _ g₀ hg₀
  · simp only [apply, Function.update_of_ne haid] at hg
    exact hdb _ _ hg

theorem Appended.grants (h : Appended db g actor p r db') : db'.grants = db.grants := by
  cases h <;> rfl

theorem Appended.indexed (h : Appended db g actor p r db') (hdb : db.Indexed) : db'.Indexed := by
  rw [ApprovalTables.Indexed, h.grants]
  exact hdb

theorem settled_indexed (hdb : db.Indexed) :
    (settled db g status r now).Indexed := hdb.setStatus _ _ _

theorem Ended.indexed (h : Ended db g p db') (hdb : db.Indexed) : db'.Indexed := by
  obtain ⟨actor, status, r, mid, now, -, -, happ⟩ := h
  exact settled_indexed (happ.indexed hdb)

theorem Move.indexed (h : Move db db') (hdb : db.Indexed) : db'.Indexed := by
  cases h with
  | requested g r _ _ _ _ _ appended =>
    refine settled_indexed (appended.indexed ?_)
    intro aid g' hg'
    by_cases haid : aid = g.approvalId
    · subst haid
      simp only [ApprovalTables.apply, Function.update_self, some.injEq] at hg'
      rw [hg']
    · simp only [ApprovalTables.apply, Function.update_of_ne haid] at hg'
      exact hdb aid g' hg'
  | cancelled g _ ended => exact ended.indexed hdb
  | revoked g _ ended => exact ended.indexed hdb
  | expired g _ _ _ r _ _ _ ended _ appended =>
    exact settled_indexed (appended.indexed (ended.indexed hdb))
  | consumed c g r _ _ _ _ _ _ appended =>
    have hmid := appended.indexed hdb
    refine settled_indexed ?_
    exact hmid

theorem indexed_of_moves (h : ReflTransGen Move db db') (hdb : db.Indexed) : db'.Indexed := by
  induction h with
  | refl => exact hdb
  | tail _ hmove ih => exact hmove.indexed ih

/-! ### Expiry and consumption -/

theorem returns_expireOne (hdb : db.Indexed) :
    approvalDatabase.Returns inp (expireOne catalog actor now aid)
      (fun _ db' _ ↦ Move db db') db n := by
  refine returns_do ((returns_terminate hdb).mono ?_)
  rintro - db₁ k ⟨g, rfl, hended⟩
  refine returns_do (returns_loadGrant fun g' hg' ↦ ?_)
  refine returns_do (returns_append fun r mid happ ↦ returns_do (returns_issue.2 ?_))
  have hsame : g'.approvalId = g.approvalId := hended.indexed hdb _ _ hg'
  rw [← hsame] at hg'
  refine returns_project ?_
  have hmove := Move.expired g g' actor catalog.escalationRole r db₁ mid now hended
    (hsame ▸ hg') happ
  rwa [settled, hsame] at hmove

theorem returns_expireApprovals {ws : Option String} (hdb : db.Indexed) :
    approvalDatabase.Returns inp (expireApprovals catalog actor ws)
      (fun _ db' _ ↦ ReflTransGen Move db db') db n := by
  refine returns_do (returns_read rfl (returns_do (returns_issue.2 ?_)))
  refine returns_do ((returns_forEach (I := fun _ (db' : ApprovalTables) _ ↦
    ReflTransGen Move db db') .refl ?_).mono ?_)
  · intro aid rest db₁ k hmoves
    refine (returns_expireOne catalog (indexed_of_moves hmoves hdb)).mono ?_
    exact fun _ _ _ h ↦ hmoves.tail h
  · exact fun _ _ _ h ↦ returns_ret.2 h

theorem returns_takeUse (found : db.grants g.approvalId = some g)
    (here : g.approvalId = c.approvalId)
    (absent : c.consumptionKey ∉ (db.consumptions c.approvalId).map (·.consumptionKey))
    (usable : g.status ∈ ApprovalStatus.consumable) :
    approvalDatabase.Returns inp (takeUse c g now) (fun _ db' _ ↦ Move db db') db n := by
  refine returns_do (returns_read rfl ?_)
  split
  · exact returns_raise
  · refine returns_do (returns_append fun r mid happ ↦ returns_do (returns_issue.2 ?_))
    refine returns_do (returns_orRaise fun _ hok ↦ returns_settle here ?_)
    dsimp only [execStatement] at hok ⊢
    split_ifs at hok ⊢
    exact .consumed c g r mid now found here absent usable happ

theorem returns_consumeApproval (hdb : db.Indexed) :
    approvalDatabase.Returns inp (consumeApproval c)
      (fun _ db' _ ↦ ReflTransGen Move db db') db n := by
  refine returns_do (returns_read rfl (returns_do (returns_loadGrant fun g hg ↦ ?_)))
  have here : g.approvalId = c.approvalId := hdb _ _ hg
  rw [← here] at hg
  refine returns_do (returns_read rfl ?_)
  split
  · exact returns_do (returns_read rfl (returns_ret.2 .refl))
  · next hnone =>
    have absent : c.consumptionKey ∉ (db.consumptions c.approvalId).map (·.consumptionKey) := by
      intro hmem
      obtain ⟨row, hrow, hkey⟩ := List.mem_map.1 hmem
      rw [map_eq_none_iff, List.find?_eq_none] at hnone
      exact hnone row hrow (by simpa using hkey)
    split
    · exact returns_raise
    split
    · exact returns_raise
    next husable =>
    split
    · exact returns_raise
    split
    · exact returns_raise
    refine (returns_takeUse hg here absent (by simpa using husable)).mono ?_
    exact fun _ _ _ h ↦ .single h

/-! ### Every call -/

/-- What a committed call does whose statements are answered by `inp` from the number `n` on. -/
inductive Performed (inp : ℕ → ApprovalInput) (n : ℕ) (db : ApprovalTables) :
    ApprovalCall → ApprovalTables → Prop where
  | decided (d : DecideApproval) (approver : PrincipalInfo) {db' : ApprovalTables}
      (who : (inp (n + 3)).principal = some approver) (decided : Decided d approver db db') :
      Performed inp n db (.decide d) db'
  | moved (call : ApprovalCall) {db' : ApprovalTables} (moves : ReflTransGen Move db db') :
      Performed inp n db call db'
  | aliased (graph : AliasGraph) : Performed inp n db (.setAliases graph)
      (db.apply (.setAliases graph))

theorem returns_approvalBody (call : ApprovalCall) (hdb : db.Indexed) :
    approvalDatabase.Returns inp (approvalBody catalog call)
      (fun _ db' _ ↦ Performed inp n db call db') db n := by
  cases call with
  | request => exact (returns_requestApproval catalog).mono fun _ _ _ h ↦ .moved _ h
  | decide d =>
    refine (returns_decideApproval catalog hdb).mono ?_
    rintro - db' k ⟨approver, hwho, h⟩
    exact .decided d approver hwho h
  | cancel =>
    exact (returns_cancelApproval hdb).mono fun _ _ _ h ↦ .moved _ (.single h)
  | revoke =>
    exact (returns_revokeApproval hdb).mono fun _ _ _ h ↦ .moved _ (.single h)
  | expire =>
    exact (returns_expireApprovals catalog hdb).mono fun _ _ _ h ↦ .moved _ h
  | consume => exact (returns_consumeApproval hdb).mono fun _ _ _ h ↦ .moved _ h
  | setAliases graph =>
    exact returns_do (returns_issue.2 (returns_ret.2 (.aliased graph)))

end AgentColab.Approvals
