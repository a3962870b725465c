import AgentColab.Approvals.Projection

/-!
# Who fills a quorum

An approver is compared with the requester and the implementer as a principal, but with the earlier
deciders as an account. So two accounts of one person fill two places of a quorum, and nothing is
compared again when the alias table changes.
-/

namespace AgentColab.Approvals

open AgentColab Transaction Database List

namespace Sample

def graph : AliasGraph := [("work", "person"), ("home", "person")]

def aliased : ApprovalTables × ℕ :=
  approvalDatabase.transact (input "") 0 {} (approvalBody catalog (.setAliases graph))

def opened : ApprovalTables × ℕ :=
  approvalDatabase.transact (input "") aliased.2 aliased.1 (approvalBody catalog (.request request))

def first : ApprovalCall := .decide { approve with approvalId := 4 }

def second : ApprovalCall := .decide { approve with approvalId := 4, idempotencyKey := "k3" }

def once : ApprovalTables × ℕ :=
  approvalDatabase.transact (input "work") opened.2 opened.1 (approvalBody catalog first)

def twice (account : String) : ApprovalTables × ℕ :=
  approvalDatabase.transact (input account) once.2 once.1 (approvalBody catalog second)

end Sample

open Sample

variable (catalog : PolicyCatalog) {db db' : ApprovalTables} {n : ℕ}

/-! ## Persons -/

/-- Under `graph` the accounts belong to different principals, none of which requested the approval
or implements its subject. -/
structure Distinct (graph : AliasGraph) (g : Grant) (accounts : List String) : Prop where
  nodup : (accounts.map (effectivePrincipal · graph)).Nodup
  notRequester : ∀ a ∈ accounts, samePrincipal a g.requestedBy graph = false
  notImplementer : ∀ a ∈ accounts, samePrincipal a g.implementingAgentAccount graph = false

/-- An approver is no other account of somebody who has decided on the pending approval, and a new
alias table keeps those apart who take part in an open vote. -/
def Separate (db : ApprovalTables) (n : ℕ) (call : ApprovalCall) (inp : ℕ → ApprovalInput) : Prop :=
  match call with
  | .decide d => d.decision = .approve → ∀ approver, (inp (n + 3)).principal = some approver →
      ∀ g, db.grants d.approvalId = some g → g.status = .pending →
      ∀ a ∈ db.deciders d.approvalId, a ≠ approver.accountUuid →
        effectivePrincipal a db.aliases ≠ effectivePrincipal approver.accountUuid db.aliases
  | .setAliases graph => ∀ aid g, db.grants aid = some g → g.status = .pending →
      Distinct graph g (db.deciders aid)
  | _ => True

/-- The invariant: the decisions on a pending approval are approvals of different persons. -/
structure ApprovalTables.Fair (db : ApprovalTables) : Prop where
  indexed : db.Indexed
  unused : ∀ aid, db.grants aid = none → db.decisions aid = []
  approvals : ∀ aid g, db.grants aid = some g → g.status = .pending →
    ∀ row ∈ db.decisions aid, row.decision = .approve
  distinct : ∀ aid g, db.grants aid = some g → g.status = .pending →
    Distinct db.aliases g (db.deciders aid)

/-- What is said of a grant that is recorded. -/
structure FairlyGranted (db : ApprovalTables) (g : Grant) : Prop where
  approvals : ∀ row ∈ db.decisions g.approvalId, row.decision = .approve
  reached : g.quorumRequired ≤ (db.deciders g.approvalId).length
  distinct : Distinct db.aliases g (db.deciders g.approvalId)

variable {g : Grant} {accounts : List String} {actor : String} {p : Payload} {r : AppendResult}
    {aid : ℕ} {status : ApprovalStatus} {approver : PrincipalInfo} {d : DecideApproval}

theorem Distinct.append {graph : AliasGraph} {a : String} (h : Distinct graph g accounts)
    (hnew : ∀ b ∈ accounts, effectivePrincipal b graph ≠ effectivePrincipal a graph)
    (hreq : samePrincipal a g.requestedBy graph = false)
    (himp : samePrincipal a g.implementingAgentAccount graph = false) :
    Distinct graph g (accounts ++ [a]) where
  nodup := by
    rw [map_append, nodup_append']
    refine ⟨h.nodup, nodup_singleton _, ?_⟩
    intro p hp hp'
    obtain ⟨b, hb, rfl⟩ := List.mem_map.1 hp
    exact hnew b hb (mem_singleton.1 hp')
  notRequester b hb := by
    rcases mem_append.1 hb with hb | hb
    · exact h.notRequester b hb
    · rwa [mem_singleton.1 hb]
  notImplementer b hb := by
    rcases mem_append.1 hb with hb | hb
    · exact h.notImplementer b hb
    · rwa [mem_singleton.1 hb]

theorem Distinct.congr {graph : AliasGraph} {g' : Grant} (h : Distinct graph g accounts)
    (hreq : g'.requestedBy = g.requestedBy)
    (himp : g'.implementingAgentAccount = g.implementingAgentAccount) :
    Distinct graph g' accounts :=
  ⟨h.nodup, hreq ▸ h.notRequester, himp ▸ h.notImplementer⟩

/-! ## Moves -/

theorem Appended.aliases (h : Appended db g actor p r db') : db'.aliases = db.aliases := by
  cases h <;> rfl

theorem Appended.decisions (h : Appended db g actor p r db') : db'.decisions = db.decisions := by
  cases h <;> rfl

theorem Appended.events (h : Appended db g actor p r db') : ∃ new, db'.events = db.events ++ new ∧
      ∀ e ∈ new, e.aggregateId = g.approvalId ∧ e.payload = p := by
  cases h with
  | new e aggregate _ _ payload =>
    refine ⟨[e], rfl, ?_⟩
    intro e' he'
    rw [mem_singleton.1 he']
    exact ⟨aggregate, payload⟩
  | replayed => exact ⟨[], (append_nil _).symm, nofun⟩

theorem deciders_congr (h : db'.decisions aid = db.decisions aid) :
    db'.deciders aid = db.deciders aid := congrArg (List.map DecisionRow.decidedBy) h

theorem deciders_append {row : DecisionRow} (h : db'.decisions aid = db.decisions aid ++ [row]) :
    db'.deciders aid = db.deciders aid ++ [row.decidedBy] := by
  rw [ApprovalTables.deciders, h, map_append]
  rfl

theorem grants_settled {mid : ApprovalTables} {now : Time} (hmid : mid.grants g.approvalId = some g)
    (aid : ℕ) : (settled mid g status r now).grants aid =
      if aid = g.approvalId then some (g.moved status r.aggregateSeq) else mid.grants aid := by
  by_cases haid : aid = g.approvalId
  · subst haid
    simp [settled, projectedStore, ApprovalTables.apply, hmid, Grant.moved]
  · simp [settled, projectedStore, ApprovalTables.apply, haid]

theorem ApprovalTables.Fair.settle (hdb : db.Fair) (mid : ApprovalTables) (r : AppendResult)
    (now : Time) (found : db.grants g.approvalId = some g) (hgrants : mid.grants = db.grants)
    (haliases : mid.aliases = db.aliases)
    (hdecisions : ∀ aid, aid ≠ g.approvalId → mid.decisions aid = db.decisions aid)
    (hstatus : status ≠ .pending) : (settled mid g status r now).Fair := by
  have hmid : mid.grants g.approvalId = some g := hgrants ▸ found
  have hother : ∀ aid g', (settled mid g status r now).grants aid = some g' → g'.status = .pending →
      db.grants aid = some g' ∧ mid.decisions aid = db.decisions aid := by
    intro aid g' hg' hpending
    rw [grants_settled hmid] at hg'
    split_ifs at hg' with haid
    · obtain rfl := Option.some.inj hg'
      exact absurd hpending hstatus
    · exact ⟨hgrants ▸ hg', hdecisions aid haid⟩
  refine ⟨settled_indexed ?_, ?_, ?_, ?_⟩
  · rw [ApprovalTables.Indexed, hgrants]
    exact hdb.indexed
  · intro aid hnone
    rw [grants_settled hmid] at hnone
    split_ifs at hnone with haid
    exact (hdecisions aid haid).trans (hdb.unused aid (hgrants ▸ hnone))
  · intro aid g' hg' hpending
    obtain ⟨hold, hrows⟩ := hother aid g' hg' hpending
    intro row hrow
    exact hdb.approvals aid g' hold hpending row (hrows ▸ hrow)
  · intro aid g' hg' hpending
    obtain ⟨hold, hrows⟩ := hother aid g' hg' hpending
    have hdeciders : (settled mid g status r now).deciders aid = db.deciders aid :=
      deciders_congr hrows
    rw [hdeciders]
    exact haliases ▸ hdb.distinct aid g' hold hpending

theorem ApprovalTables.Fair.ended (hdb : db.Fair) (hp : p.type ≠ .consumed) (h : Ended db g p db') :
    db'.Fair := by
  obtain ⟨actor, status, r, mid, now, found, legal, happ⟩ := h
  refine hdb.settle mid r now found happ.grants happ.aliases (fun _ _ ↦ congrFun happ.decisions _) ?_
  exact target_ne_pending (target_of_transitions (nextStatus_eq_ok legal).2 hp)

theorem ApprovalTables.Fair.move (hdb : db.Fair) (h : Move db db') : db'.Fair := by
  cases h with
  | requested g r mid now fresh pending unrecorded appended =>
    have hmid : mid.grants g.approvalId = some g := by
      rw [appended.grants]
      exact Function.update_self ..
    have hnone : mid.decisions g.approvalId = [] :=
      (congrFun appended.decisions _).trans (hdb.unused _ fresh)
    have hother : ∀ aid, aid ≠ g.approvalId → mid.grants aid = db.grants aid := by
      intro aid hne
      rw [appended.grants]
      exact Function.update_of_ne hne ..
    refine ⟨(Move.requested g r mid now fresh pending unrecorded appended).indexed hdb.indexed,
      ?_, ?_, ?_⟩
    · intro aid hg
      rw [grants_settled hmid] at hg
      split_ifs at hg with haid
      exact (congrFun appended.decisions aid).trans (hdb.unused aid (hother aid haid ▸ hg))
    · intro aid g' hg' hpending row hrow
      rw [grants_settled hmid] at hg'
      split_ifs at hg' with haid
      · have hrow' : row ∈ mid.decisions aid := hrow
        rw [haid, hnone] at hrow'
        cases hrow'
      · have hrow' : row ∈ mid.decisions aid := hrow
        rw [appended.decisions] at hrow'
        exact hdb.approvals aid g' (hother aid haid ▸ hg') hpending row hrow'
    · intro aid g' hg' hpending
      rw [grants_settled hmid] at hg'
      split_ifs at hg' with haid
      · have hdeciders : (settled mid g .pending r now).deciders aid = [] := by
          rw [haid]
          exact congrArg (List.map DecisionRow.decidedBy) hnone
        rw [hdeciders]
        exact ⟨nodup_nil, nofun, nofun⟩
      · have hdeciders : (settled mid g .pending r now).deciders aid = db.deciders aid :=
          congrArg (List.map DecisionRow.decidedBy) (congrFun appended.decisions aid)
        have haliases : (settled mid g .pending r now).aliases = db.aliases := appended.aliases
        rw [hdeciders, haliases]
        exact hdb.distinct aid g' (hother aid haid ▸ hg') hpending
  | cancelled g _ ended => exact hdb.ended (by simp [Payload.type]) ended
  | revoked g _ ended => exact hdb.ended (by simp [Payload.type]) ended
  | expired g g' _ _ r db₁ mid now ended found appended =>
    have hdb₁ := hdb.ended (by simp [Payload.type]) ended
    have found' : db₁.grants g'.approvalId = some g' := by rwa [hdb₁.indexed _ _ found]
    exact hdb₁.settle mid r now found' appended.grants appended.aliases
      (fun _ _ ↦ congrFun appended.decisions _) (by simp)
  | consumed c g r mid now found _ _ _ appended =>
    refine hdb.settle (mid.apply (.insertConsumption _)) r now found appended.grants
      appended.aliases (fun _ _ ↦ congrFun appended.decisions _) ?_
    rw [statusAfterConsumption_eq]
    split_ifs <;> simp

/-- A store whose Events extend those of `db`, by Events that record no grant. -/
def Ungranted (db db' : ApprovalTables) : Prop :=
  ∃ new, db'.events = db.events ++ new ∧ ∀ e ∈ new, e.payload.type ≠ .granted

theorem Ungranted.trans {db₁ db₂ db₃ : ApprovalTables} (h : Ungranted db₁ db₂)
    (h' : Ungranted db₂ db₃) : Ungranted db₁ db₃ := by
  obtain ⟨new, hnew, hp⟩ := h
  obtain ⟨new', hnew', hp'⟩ := h'
  refine ⟨new ++ new', ?_, ?_⟩
  · rw [hnew', hnew, append_assoc]
  · intro e he
    exact (mem_append.1 he).elim (hp e) (hp' e)

theorem Appended.ungranted (h : Appended db g actor p r db') (hp : p.type ≠ .granted) :
    Ungranted db db' := by
  obtain ⟨new, hnew, hpay⟩ := h.events
  exact ⟨new, hnew, fun e he ↦ by rwa [(hpay e he).2]⟩

theorem Ended.ungranted (h : Ended db g p db') (hp : p.type ≠ .granted) : Ungranted db db' := by
  obtain ⟨actor, status, r, mid, now, -, -, happ⟩ := h
  have hmid : Ungranted db mid := happ.ungranted hp
  exact hmid

theorem Move.ungranted (h : Move db db') : Ungranted db db' := by
  cases h with
  | requested g r mid _ _ _ _ appended =>
    have hmid : Ungranted (db.apply (.insertGrant g)) mid := appended.ungranted (by simp [Payload.type])
    exact hmid
  | cancelled g _ ended => exact ended.ungranted (by simp [Payload.type])
  | revoked g _ ended => exact ended.ungranted (by simp [Payload.type])
  | expired g _ _ _ r db₁ mid _ ended _ appended =>
    have hmid : Ungranted db₁ mid := appended.ungranted (by simp [Payload.type])
    exact (ended.ungranted (by simp [Payload.type])).trans hmid
  | consumed c g r mid _ _ _ _ _ appended =>
    have hmid : Ungranted db mid := appended.ungranted (by simp [Payload.type])
    exact hmid

/-! ## Decisions -/

theorem Eligible.append (hdb : db.Fair) (found : db.grants g.approvalId = some g)
    (pending : g.status = .pending) (eligible : Eligible db g approver) (hsep : ∀ a ∈ db.deciders
    g.approvalId, a ≠ approver.accountUuid → effectivePrincipal a db.aliases ≠ effectivePrincipal
    approver.accountUuid db.aliases) :
    Distinct db.aliases g (db.deciders g.approvalId ++ [approver.accountUuid]) := by
  refine (hdb.distinct _ _ found pending).append ?_ eligible.notRequester eligible.notImplementer
  intro a ha
  refine hsep a ha ?_
  rintro rfl
  exact eligible.notPrior ha

theorem ApprovalTables.Fair.voted (hdb : db.Fair) {last : Event} (now : Time)
    (found : db.grants g.approvalId = some g) (here : g.approvalId = d.approvalId)
    (hdistinct : Distinct db.aliases g (db.deciders g.approvalId ++ [approver.accountUuid]))
    (pending : g.status = .pending) :
    (projectedStore (db.apply (.insertDecision (d.row approver .approve last.eventId))) g .pending
      last.eventId now).Fair := by
  have hself := decided_row db d approver .approve last.eventId here
  have hother : ∀ aid, aid ≠ g.approvalId →
      (db.apply (.insertDecision (d.row approver .approve last.eventId))).decisions aid =
        db.decisions aid := by
    intro aid hne
    have hne' : aid ≠ d.approvalId := here ▸ hne
    exact Function.update_of_ne hne' ..
  refine ⟨hdb.indexed, ?_, ?_, ?_⟩
  · intro aid hnone
    have hnone' : db.grants aid = none := hnone
    refine (hother aid ?_).trans (hdb.unused aid hnone')
    rintro rfl
    rw [found] at hnone'
    cases hnone'
  · intro aid g' hg' hpending row hrow
    have hrow' : row ∈
        (db.apply (.insertDecision (d.row approver .approve last.eventId))).decisions aid := hrow
    by_cases haid : aid = g.approvalId
    · rw [haid, hself] at hrow'
      rcases mem_append.1 hrow' with hold | hnew
      · exact hdb.approvals _ _ found pending row hold
      · rw [mem_singleton.1 hnew]
        rfl
    · rw [hother aid haid] at hrow'
      exact hdb.approvals aid g' hg' hpending row hrow'
  · intro aid g' hg' hpending
    by_cases haid : aid = g.approvalId
    · subst haid
      obtain rfl : g = g' := Option.some.inj (found.symm.trans hg')
      have hdeciders : (projectedStore
        (db.apply (.insertDecision (d.row approver .approve last.eventId))) g .pending last.eventId
        now).deciders g.approvalId =
        db.deciders g.approvalId ++ [approver.accountUuid] := deciders_append hself
      rw [hdeciders]
      exact hdistinct
    · have hdeciders : (projectedStore
        (db.apply (.insertDecision (d.row approver .approve last.eventId))) g .pending last.eventId
        now).deciders aid = db.deciders aid := deciders_congr (hother aid haid)
      rw [hdeciders]
      exact hdb.distinct aid g' hg' hpending

theorem Decided.fair (hdb : db.Fair) (hsep : d.decision = .approve → ∀ g, db.grants d.approvalId =
    some g → g.status = .pending → ∀ a ∈ db.deciders d.approvalId, a ≠ approver.accountUuid →
    effectivePrincipal a db.aliases ≠ effectivePrincipal approver.accountUuid db.aliases)
    (h : Decided d approver db db') :
    db'.Fair ∧ ∃ new, db'.events = db.events ++ new ∧ ∀ e ∈ new, e.payload.type = .granted →
      ∃ g, db'.grants e.aggregateId = some g ∧ FairlyGranted db' g := by
  cases h with
  | voted g _ now approves found here pending eligible =>
    refine ⟨hdb.voted now found here (eligible.append hdb found pending ?_) pending, [],
      (append_nil _).symm, nofun⟩
    rw [here]
    exact hsep approves g (here ▸ found) pending
  | rejected g r mid now found here _ _ appended =>
    refine ⟨hdb.settle (mid.apply (.insertDecision (d.row approver .reject r.eventId))) r now found
      appended.grants appended.aliases ?_ (by simp), ?_⟩
    · intro aid hne
      have hne' : aid ≠ d.approvalId := here ▸ hne
      exact (Function.update_of_ne hne' ..).trans (congrFun appended.decisions aid)
    · obtain ⟨new, hnew, hpay⟩ := appended.events
      refine ⟨new, hnew, fun e he htype ↦ ?_⟩
      rw [(hpay e he).2] at htype
      cases htype
  | granted g r mid now _ approves found here pending eligible reached appended =>
    have hdistinct : Distinct db.aliases g (db.deciders g.approvalId ++ [approver.accountUuid]) := by
      refine eligible.append hdb found pending ?_
      rw [here]
      exact hsep approves g (here ▸ found) pending
    refine ⟨hdb.settle (mid.apply (.insertDecision (d.row approver .approve r.eventId))) r now found
      appended.grants appended.aliases ?_ (by simp), ?_⟩
    · intro aid hne
      have hne' : aid ≠ d.approvalId := here ▸ hne
      exact (Function.update_of_ne hne' ..).trans (congrFun appended.decisions aid)
    · obtain ⟨new, hnew, hpay⟩ := appended.events
      refine ⟨new, hnew, fun e he _ ↦ ⟨g.moved .approved r.aggregateSeq, ?_, ?_⟩⟩
      · rw [(hpay e he).1]
        have hmid : (mid.apply (.insertDecision (d.row approver .approve r.eventId))).grants
            g.approvalId = some g := appended.grants ▸ found
        rw [grants_settled hmid, if_pos rfl]
      · have hself := decided_row mid d approver .approve r.eventId here
        rw [appended.decisions] at hself
        have hdeciders : (settled (mid.apply (.insertDecision (d.row approver .approve r.eventId))) g
            .approved r now).deciders g.approvalId =
              db.deciders g.approvalId ++ [approver.accountUuid] := deciders_append hself
        refine ⟨?_, ?_, ?_⟩
        · intro row hrow
          rcases mem_append.1 (hself ▸ hrow) with hold | hnew
          · exact hdb.approvals _ _ found pending row hold
          · rw [mem_singleton.1 hnew]
            rfl
        · rw [Grant.moved, hdeciders, length_append]
          exact reached
        · have haliases : (settled (mid.apply (.insertDecision (d.row approver .approve r.eventId))) g
            .approved r now).aliases = db.aliases := appended.aliases
          rw [haliases, Grant.moved, hdeciders]
          exact hdistinct.congr rfl rfl

/-! ## Calls -/

theorem Performed.fair {inp : ℕ → ApprovalInput} {call : ApprovalCall} (hdb : db.Fair)
    (hsep : Separate db n call inp) (h : Performed inp n db call db') :
    db'.Fair ∧ ∃ new, db'.events = db.events ++ new ∧ ∀ e ∈ new, e.payload.type = .granted →
      ∃ g, db'.grants e.aggregateId = some g ∧ FairlyGranted db' g := by
  cases h with
  | decided d approver who decided =>
    exact decided.fair hdb fun happrove ↦ hsep happrove approver who
  | moved _ moves =>
    have hmoves : db'.Fair ∧ Ungranted db db' := by
      induction moves with
      | refl => exact ⟨hdb, [], (append_nil _).symm, nofun⟩
      | tail _ hmove ih => exact ⟨ih.1.move hmove, ih.2.trans hmove.ungranted⟩
    obtain ⟨hfair, new, hnew, hp⟩ := hmoves
    exact ⟨hfair, new, hnew, fun e he htype ↦ absurd htype (hp e he)⟩
  | aliased =>
    refine ⟨⟨hdb.indexed, hdb.unused, hdb.approvals, hsep⟩, [], (append_nil _).symm, nofun⟩

theorem ApprovalTables.Fair.init : ({} : ApprovalTables).Fair where
  indexed aid g hg := by cases hg
  unused _ _ := rfl
  approvals aid g hg := by cases hg
  distinct aid g hg := by cases hg

theorem fair_of_history (h : approvalDatabase.History (approvalBody catalog) Separate {} 0 db n) :
    db.Fair := by
  refine h.invariant (I := fun (s : ApprovalTables) _ ↦ s.Fair) .init (fun _ _ _ _ hs ↦ hs) ?_
  intro s k call inp hs hsep
  exact (returns_approvalBody catalog call hs.indexed).mono fun _ _ _ hperf ↦ (hperf.fair hs hsep).1

/-- **A grant is the vote of a quorum of persons.** In a history whose calls are all separate, each
Event of a grant is recorded with approvals of at least as many different persons as the quorum asks
for, none of whom is the requester or the implementer, under the alias table of that moment. -/
theorem fairly_granted
    (h : approvalDatabase.History (approvalBody catalog) Separate {} 0 db n) (call : ApprovalCall)
    (inp : ℕ → ApprovalInput) (hsep : Separate db n call inp) (new : List Event)
    (hnew : (approvalDatabase.transact inp n db (approvalBody catalog call)).1.events =
      db.events ++ new) : ∀ e ∈ new, e.payload.type = .granted → ∃ g,
      (approvalDatabase.transact inp n db (approvalBody catalog call)).1.grants e.aggregateId =
        some g ∧
      FairlyGranted (approvalDatabase.transact inp n db (approvalBody catalog call)).1 g := by
  have hdb := fair_of_history catalog h
  have hret : approvalDatabase.Returns inp (approvalBody catalog call)
      (fun _ db' _ ↦ Performed inp n db call db') db n :=
    returns_approvalBody catalog call hdb.indexed
  cases hrun : approvalDatabase.serial inp n db (approvalBody catalog call) with
  | mk x rest =>
    obtain ⟨db', n'⟩ := rest
    rw [transact, hrun] at hnew ⊢
    cases x with
    | error =>
      -- the call raises, and its transaction is rolled back
      have hnil : new = [] := append_right_eq_self.1 hnew.symm
      rw [hnil]
      exact forall_mem_nil _
    | ok =>
      obtain ⟨-, new', hnew', hgranted⟩ := (hret.of_serial hrun).fair hdb hsep
      obtain rfl : new' = new := append_cancel_left (hnew'.symm.trans hnew)
      exact hgranted

/-- The second place of the quorum is filled by another person. -/
theorem fairly_granted_pair : ∃ g, (twice "other").1.grants 4 = some g ∧
    FairlyGranted (twice "other").1 g := by
  have haliased : approvalDatabase.History (approvalBody Sample.catalog) Separate {} 0
      Sample.aliased.1 Sample.aliased.2 := by
    refine .step _ _ .refl ?_
    intro aid g hg
    cases hg
  have hopened : approvalDatabase.History (approvalBody Sample.catalog) Separate {} 0
      opened.1 opened.2 := .step _ _ haliased trivial
  have honce : approvalDatabase.History (approvalBody Sample.catalog) Separate {} 0
      once.1 once.2 := by
    refine .step _ _ hopened ?_
    intro _ approver _ g _ _ a ha
    have hnone : opened.1.deciders 4 = [] := by decide
    exact absurd (hnone ▸ ha) not_mem_nil
  have hsep : Separate once.1 once.2 Sample.second (input "other") := by
    intro _ approver hwho g _ _ a ha _
    obtain rfl : _ = approver := Option.some.inj hwho
    have hone : once.1.deciders 4 = ["work"] := by decide
    have ha' : a ∈ ["work"] := hone ▸ ha
    rw [mem_singleton.1 ha']
    decide
  have hnew : ∃ e, (twice "other").1.events = once.1.events ++ [e] ∧
      e.payload.type = .granted ∧ e.aggregateId = 4 :=
    ⟨(twice "other").1.events.getLast (by decide), by decide⟩
  obtain ⟨e, hevents, htype, haid⟩ := hnew
  have hgranted := fairly_granted Sample.catalog honce Sample.second (input "other") hsep [e]
    hevents e mem_cons_self htype
  rwa [haid] at hgranted

theorem granted_to_one_person : ∃ db n call inp new e,
    approvalDatabase.History (approvalBody Sample.catalog) (fun _ _ _ _ ↦ True) {} 0 db n ∧
      (approvalDatabase.transact inp n db (approvalBody Sample.catalog call)).1.events =
        db.events ++ new ∧ e ∈ new ∧ e.payload.type = .granted ∧ ¬∃ g,
      (approvalDatabase.transact inp n db (approvalBody Sample.catalog call)).1.grants
        e.aggregateId = some g ∧ FairlyGranted
          (approvalDatabase.transact inp n db (approvalBody Sample.catalog call)).1 g := by
  have hnew : ∃ e, (twice "home").1.events = once.1.events ++ [e] ∧
      e.payload.type = .granted ∧ e.aggregateId = 4 :=
    ⟨(twice "home").1.events.getLast (by decide), by decide⟩
  obtain ⟨e, hevents, htype, haid⟩ := hnew
  refine ⟨once.1, once.2, Sample.second, input "home", [e], e,
    .step _ _ (.step _ _ (.step _ _ .refl trivial) trivial) trivial, hevents, mem_cons_self,
    htype, ?_⟩
  rintro ⟨g, hg, -, -, hdistinct⟩
  rw [haid] at hg
  have hids : ((twice "home").1.grants 4).all (·.approvalId = 4) = true := by decide
  have hid : g.approvalId = 4 := by
    have hgrant : (twice "home").1.grants 4 = some g := hg
    rw [hgrant] at hids
    simpa using hids
  have hnodup := hdistinct.nodup
  rw [hid] at hnodup
  revert hnodup
  decide

end AgentColab.Approvals
