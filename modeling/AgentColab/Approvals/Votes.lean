import AgentColab.Approvals.Quorum

/-!
# A vote that has ended

The decisions on a pending approval are approvals of different accounts, whatever the alias table
says. Once the vote has ended nothing is added to its decisions, also when the approval is consumed,
revoked, cancelled or expires.
-/

namespace AgentColab.Approvals

open AgentColab Transaction Database List Option

variable {db db' db₁ : ApprovalTables} {g : Grant}

/-! ## After the vote -/

/-- What `db'` has of the approvals that are not pending in `db`. -/
def Follows (db db' : ApprovalTables) : Prop :=
  ∀ aid g, db.grants aid = some g → g.status ≠ .pending → ∃ g', db'.grants aid = some g' ∧
    g'.status ≠ .pending ∧ (g'.status = .rejected ↔ g.status = .rejected) ∧
    g'.quorumRequired = g.quorumRequired ∧ db'.decisions aid = db.decisions aid

theorem Follows.refl (db : ApprovalTables) : Follows db db :=
  fun _ g hg hne ↦ ⟨g, hg, hne, Iff.rfl, rfl, rfl⟩

theorem Follows.trans (h : Follows db db₁) (h' : Follows db₁ db') : Follows db db' := by
  intro aid g hg hne
  obtain ⟨g₁, hg₁, hne₁, hrej₁, hquorum₁, hdec₁⟩ := h aid g hg hne
  obtain ⟨g', hg', hne', hrej', hquorum', hdec'⟩ := h' aid g₁ hg₁ hne₁
  exact ⟨g', hg', hne', hrej'.trans hrej₁, hquorum'.trans hquorum₁, hdec'.trans hdec₁⟩

variable {status : ApprovalStatus} {p : Payload} {d : DecideApproval} {approver : PrincipalInfo}
    {n : ℕ} {call : ApprovalCall}

theorem Follows.settle (mid : ApprovalTables) (r : AppendResult) (now : Time)
    (found : db.grants g.approvalId = some g) (hgrants : mid.grants = db.grants) (hdecisions : ∀
    aid, aid ≠ g.approvalId ∨ g.status ≠ .pending → mid.decisions aid = db.decisions aid) (hstatus
    : g.status ≠ .pending → status ≠ .pending ∧ (status = .rejected ↔ g.status = .rejected)) :
    Follows db (settled mid g status r now) := by
  have hmid : mid.grants g.approvalId = some g := hgrants ▸ found
  intro aid g₀ hg₀ hne
  by_cases haid : aid = g.approvalId
  · subst haid
    obtain rfl := some.inj (found.symm.trans hg₀)
    obtain ⟨hpending, hrejected⟩ := hstatus hne
    refine ⟨g.moved status r.aggregateSeq, ?_, hpending, hrejected, rfl, hdecisions _ (.inr hne)⟩
    rw [grants_settled hmid, if_pos rfl]
  · refine ⟨g₀, ?_, hne, Iff.rfl, rfl, hdecisions aid (.inl haid)⟩
    rw [grants_settled hmid, if_neg haid, hgrants]
    exact hg₀

theorem target_of_ended (hp : p.type ∈ [EventType.cancelled, .revoked, .expired])
    (legal : nextStatus g.status p.type = .ok status) :
    g.status ≠ .rejected ∧ status ≠ .pending ∧ status ≠ .rejected := by
  obtain ⟨hterm, hlegal⟩ := nextStatus_eq_ok legal
  have htarget := target_of_transitions hlegal (by
    rintro htype
    rw [htype] at hp
    simp at hp)
  refine ⟨?_, target_ne_pending htarget, ?_⟩
  · intro hrejected
    exact hterm (hrejected ▸ by decide)
  · rintro rfl
    simp only [mem_cons, not_mem_nil, or_false] at hp
    rcases hp with hp | hp | hp <;> rw [hp] at htarget <;> cases htarget

theorem Ended.follows (h : Ended db g p db')
    (hp : p.type ∈ [EventType.cancelled, .revoked, .expired]) : Follows db db' := by
  obtain ⟨actor, status, r, mid, now, found, legal, happ⟩ := h
  refine .settle mid r now found happ.grants (fun _ _ ↦ congrFun happ.decisions _) fun _ ↦ ?_
  obtain ⟨hbefore, hpending, hrejected⟩ := target_of_ended hp legal
  exact ⟨hpending, iff_of_false hrejected hbefore⟩

theorem Move.follows (h : Move db db') : Follows db db' := by
  cases h with
  | requested g r mid _ fresh _ _ appended =>
    have hmid : mid.grants g.approvalId = some g := by
      rw [appended.grants]
      exact Function.update_self ..
    intro aid g₀ hg₀ hne
    have haid : aid ≠ g.approvalId := by
      rintro rfl
      rw [fresh] at hg₀
      cases hg₀
    refine ⟨g₀, ?_, hne, Iff.rfl, rfl, congrFun appended.decisions aid⟩
    rw [grants_settled hmid, if_neg haid, appended.grants]
    exact (Function.update_of_ne haid ..).trans hg₀
  | cancelled g _ ended => exact ended.follows (by simp [Payload.type])
  | revoked g _ ended => exact ended.follows (by simp [Payload.type])
  | expired g _ _ _ r _ mid now ended found appended =>
    refine (ended.follows (by simp [Payload.type])).trans ?_
    obtain ⟨actor', status, r', mid', now', found', legal, happ⟩ := ended
    obtain ⟨-, hpending, hrejected⟩ := target_of_ended (by simp [Payload.type]) legal
    have hmid : mid'.grants g.approvalId = some g := happ.grants ▸ found'
    rw [grants_settled hmid, if_pos rfl] at found
    obtain rfl := some.inj found
    refine .settle mid r now ?_ appended.grants (fun _ _ ↦ congrFun appended.decisions _) fun _ ↦ ?_
    · rw [grants_settled hmid]
      exact if_pos rfl
    · exact ⟨by simp, iff_of_false (by simp) hrejected⟩
  | consumed c g r mid now found _ _ usable appended =>
    refine .settle (mid.apply (.insertConsumption _)) r now found appended.grants
      (fun _ _ ↦ congrFun appended.decisions _) fun _ ↦ ?_
    have hbefore : g.status ≠ .rejected := by
      intro hrejected
      rw [hrejected] at usable
      revert usable
      decide
    rw [statusAfterConsumption_eq]
    split_ifs <;> exact ⟨by simp, iff_of_false (by simp) hbefore⟩

theorem Moves.follows (h : Relation.ReflTransGen Move db db') : Follows db db' := by
  induction h with
  | refl => exact .refl db
  | tail _ hmove ih => exact ih.trans hmove.follows

theorem decisions_insertDecision {decision : Decision} {eventId aid : ℕ} (h : aid ≠ d.approvalId) :
    (db.apply (.insertDecision (d.row approver decision eventId))).decisions aid =
      db.decisions aid :=
  Function.update_of_ne h ..

theorem Decided.follows (h : Decided d approver db db') : Follows db db' := by
  cases h with
  | voted g _ _ _ found here pending =>
    intro aid g₀ hg₀ hne
    refine ⟨g₀, hg₀, hne, Iff.rfl, rfl, decisions_insertDecision ?_⟩
    rintro (rfl : aid = d.approvalId)
    rw [← here, found] at hg₀
    exact hne (some.inj hg₀ ▸ pending)
  | rejected g r _ now found here pending _ appended
  | granted g r _ now _ _ found here pending _ _ appended =>
    refine .settle _ r now found appended.grants ?_ fun hne ↦ absurd pending hne
    rintro aid (haid | hne)
    · exact (decisions_insertDecision (here ▸ haid)).trans (congrFun appended.decisions aid)
    · exact absurd pending hne

theorem Performed.follows {inp : ℕ → ApprovalInput} (h : Performed inp n db call db') :
    Follows db db' := by
  cases h with
  | decided d _ _ decided => exact decided.follows
  | moved _ moves => exact Moves.follows moves
  | aliased => exact .refl db

/-! ## Before the vote has ended -/

/-- The rows are approvals of different accounts. -/
structure Ballots (rows : List DecisionRow) : Prop where
  approvals : ∀ row ∈ rows, row.decision = .approve
  voters : (rows.map DecisionRow.decidedBy).Nodup

theorem Ballots.nil : Ballots [] := ⟨nofun, nodup_nil⟩

theorem Ballots.append {rows : List DecisionRow} {row : DecisionRow} (h : Ballots rows)
    (happrove : row.decision = .approve) (hnew : row.decidedBy ∉ rows.map DecisionRow.decidedBy) :
    Ballots (rows ++ [row]) where
  approvals := forall_mem_append.2 ⟨h.approvals, forall_mem_singleton.2 happrove⟩
  voters := by
    rw [map_append, map_singleton, nodup_append_comm]
    exact nodup_cons.2 ⟨hnew, h.voters⟩

structure Tallied (db : ApprovalTables) : Prop where
  indexed : db.Indexed
  unused : ∀ aid, db.grants aid = none → db.decisions aid = []
  ballots : ∀ aid g, db.grants aid = some g → g.status = .pending → Ballots (db.decisions aid)

theorem Tallied.init : Tallied {} where
  indexed aid g hg := by cases hg
  unused _ _ := rfl
  ballots aid g hg := by cases hg

theorem Tallied.settle (hdb : Tallied db) (mid : ApprovalTables) (r : AppendResult) (now : Time)
    (found : db.grants g.approvalId = some g) (hgrants : mid.grants = db.grants)
    (hdecisions : ∀ aid, aid ≠ g.approvalId → mid.decisions aid = db.decisions aid)
    (hstatus : status ≠ .pending) : Tallied (settled mid g status r now) := by
  have hmid : mid.grants g.approvalId = some g := hgrants ▸ found
  have hrows : ∀ aid, aid ≠ g.approvalId →
      (settled mid g status r now).decisions aid = db.decisions aid := hdecisions
  refine ⟨settled_indexed ?_, ?_, ?_⟩
  · rw [ApprovalTables.Indexed, hgrants]
    exact hdb.indexed
  · intro aid hnone
    rw [grants_settled hmid] at hnone
    split_ifs at hnone with haid
    rw [hrows aid haid]
    exact hdb.unused aid (hgrants ▸ hnone)
  · intro aid g' hg' hpending
    rw [grants_settled hmid] at hg'
    split_ifs at hg' with haid
    · obtain rfl := some.inj hg'
      exact absurd hpending hstatus
    · rw [hrows aid haid]
      exact hdb.ballots aid g' (hgrants ▸ hg') hpending

theorem Tallied.ended (hdb : Tallied db) (hp : p.type ≠ .consumed) (h : Ended db g p db') :
    Tallied db' := by
  obtain ⟨actor, status, r, mid, now, found, legal, happ⟩ := h
  refine hdb.settle mid r now found happ.grants (fun _ _ ↦ congrFun happ.decisions _) ?_
  exact target_ne_pending (target_of_transitions (nextStatus_eq_ok legal).2 hp)

theorem Tallied.move (hdb : Tallied db) (h : Move db db') : Tallied db' := by
  cases h with
  | requested g r mid now fresh pending unrecorded appended =>
    have hmid : mid.grants g.approvalId = some g := by
      rw [appended.grants]
      exact Function.update_self ..
    have hother : ∀ aid, aid ≠ g.approvalId → mid.grants aid = db.grants aid := by
      intro aid hne
      rw [appended.grants]
      exact Function.update_of_ne hne ..
    have hrows : ∀ aid, (settled mid g .pending r now).decisions aid = db.decisions aid :=
      congrFun appended.decisions
    refine ⟨(Move.requested g r mid now fresh pending unrecorded appended).indexed hdb.indexed,
      ?_, ?_⟩
    · intro aid hnone
      rw [grants_settled hmid] at hnone
      split_ifs at hnone with haid
      exact (hrows aid).trans (hdb.unused aid (hother aid haid ▸ hnone))
    · intro aid g' hg' hpending
      rw [grants_settled hmid] at hg'
      rw [hrows]
      split_ifs at hg' with haid
      · rw [haid, hdb.unused _ fresh]
        exact .nil
      · exact hdb.ballots aid g' (hother aid haid ▸ hg') hpending
  | cancelled g _ ended => exact hdb.ended (by simp [Payload.type]) ended
  | revoked g _ ended => exact hdb.ended (by simp [Payload.type]) ended
  | expired g g' _ _ r db₁ mid now ended found appended =>
    have hdb₁ := hdb.ended (by simp [Payload.type]) ended
    have found' : db₁.grants g'.approvalId = some g' := by rwa [hdb₁.indexed _ _ found]
    exact hdb₁.settle mid r now found' appended.grants (fun _ _ ↦ congrFun appended.decisions _)
      (by simp)
  | consumed c g r mid now found _ _ _ appended =>
    refine hdb.settle (mid.apply (.insertConsumption _)) r now found appended.grants
      (fun _ _ ↦ congrFun appended.decisions _) ?_
    rw [statusAfterConsumption_eq]
    split_ifs <;> simp

theorem Tallied.moves (hdb : Tallied db) (h : Relation.ReflTransGen Move db db') : Tallied db' := by
  induction h with
  | refl => exact hdb
  | tail _ hmove ih => exact ih.move hmove

theorem Tallied.decided (hdb : Tallied db) (h : Decided d approver db db') : Tallied db' := by
  cases h with
  | voted g last _ _ found here pending eligible =>
    have hself := decided_row db d approver .approve last.eventId here
    have hother : ∀ aid, aid ≠ g.approvalId →
        (db.apply (.insertDecision (d.row approver .approve last.eventId))).decisions aid =
          db.decisions aid := fun aid haid ↦ decisions_insertDecision (here ▸ haid)
    refine ⟨hdb.indexed, ?_, ?_⟩
    · intro aid hnone
      have hnone' : db.grants aid = none := hnone
      refine (hother aid ?_).trans (hdb.unused aid hnone')
      rintro rfl
      rw [found] at hnone'
      cases hnone'
    · intro aid g' hg' hpending
      change Ballots ((db.apply (.insertDecision _)).decisions aid)
      by_cases haid : aid = g.approvalId
      · rw [haid, hself]
        exact (hdb.ballots _ _ found pending).append rfl eligible.notPrior
      · rw [hother aid haid]
        exact hdb.ballots aid g' hg' hpending
  | rejected g r _ now found here _ _ appended | granted g r _ now _ _ found here _ _ _ appended =>
    refine hdb.settle _ r now found appended.grants (fun aid haid ↦ ?_) (by simp)
    exact (decisions_insertDecision (here ▸ haid)).trans (congrFun appended.decisions aid)

theorem Tallied.performed (hdb : Tallied db) {inp : ℕ → ApprovalInput}
    (h : Performed inp n db call db') : Tallied db' := by
  cases h with
  | decided d _ _ decided => exact hdb.decided decided
  | moved _ moves => exact hdb.moves moves
  | aliased => exact ⟨hdb.indexed, hdb.unused, hdb.ballots⟩

/-! ## The end of the vote -/

/-- As many accounts have approved as the quorum asks for. -/
structure QuorumComplete (db : ApprovalTables) (g : Grant) : Prop extends
    Ballots (db.decisions g.approvalId) where
  reached : g.quorumRequired ≤ (db.deciders g.approvalId).length

def Reports (d : DecideApproval) (a : Outcome) (db' : ApprovalTables) : Prop :=
  ∃ status recorded quorum eventId, a = .decided d.approvalId status recorded quorum eventId ∧
    ∃ g', db'.grants d.approvalId = some g' ∧ g'.status = status

theorem returns_recordVote_reports {inp : ℕ → ApprovalInput} {prior : List String} {now : Time}
    (found : db.grants g.approvalId = some g) (here : g.approvalId = d.approvalId)
    (pending : g.status = .pending) :
    approvalDatabase.Returns inp (recordVote d g prior approver now)
      (fun a db' _ ↦ Reports d a db') db n := by
  have hconclude : ∀ (decision : Decision) (p : Payload) (recorded k : ℕ),
      approvalDatabase.Returns inp (do
        let ended ← conclude d g approver decision p now
        return Outcome.decided d.approvalId ended.1 recorded g.quorumRequired (some ended.2))
        (fun a db' _ ↦ Reports d a db') db k := by
    intro decision p recorded k
    refine returns_do (returns_conclude here fun r mid status k happ _ ↦ returns_ret.2 ?_)
    have hvoted : (mid.apply (.insertDecision (d.row approver decision r.eventId))).grants
        g.approvalId = some g := happ.grants ▸ found
    refine ⟨status, recorded, _, _, rfl, g.moved status r.aggregateSeq, ?_, rfl⟩
    rw [← here, grants_settled hvoted]
    exact if_pos rfl
  rw [recordVote]
  cases d.decision with
  | reject => exact hconclude .reject _ _ _
  | approve =>
    dsimp only
    split
    · exact hconclude .approve _ _ _
    · refine returns_do (returns_read rfl ?_)
      split
      · exact returns_raise
      · refine returns_do (returns_recordDecision (returns_do (returns_project (returns_ret.2 ?_))))
        exact ⟨.pending, _, _, _, rfl, g, here ▸ found, pending⟩

theorem returns_decideApproval_reports (catalog : PolicyCatalog) {inp : ℕ → ApprovalInput}
    (hdb : db.Indexed) : approvalDatabase.Returns inp (decideApproval catalog d)
      (fun a db' _ ↦ Reports d a db') db n := by
  refine returns_do (returns_read rfl (returns_do (returns_loadGrant fun g hg ↦ ?_)))
  have haid : g.approvalId = d.approvalId := hdb _ _ hg
  rw [← haid] at hg
  by_cases hpending : g.status = .pending
  · rw [if_neg (by simpa using hpending)]
    split
    · exact returns_raise
    · refine returns_do (returns_read rfl (returns_do (returns_checkEligibility catalog ?_ ?_)))
      · exact fun _ _ ↦ returns_raise
      · exact fun approver k _ _ _ _ ↦ returns_recordVote_reports hg haid hpending
  · rw [if_pos hpending]
    exact returns_raise

theorem Decided.before (h : Decided d approver db db') :
    ∃ g, db.grants d.approvalId = some g ∧ g.status = .pending := by
  cases h with
  | voted g _ _ _ found here pending | granted g r _ _ _ _ found here pending =>
    exact ⟨g, here ▸ found, pending⟩
  | rejected g r _ _ found here pending => exact ⟨g, here ▸ found, pending⟩

theorem Decided.outcome (hdb : Tallied db) (h : Decided d approver db db') :
    ∃ g', db'.grants d.approvalId = some g' ∧ (g'.status = .approved → QuorumComplete db' g') := by
  cases h with
  | voted g _ _ _ found here pending =>
    refine ⟨g, here ▸ found, fun happroved ↦ ?_⟩
    rw [pending] at happroved
    cases happroved
  | rejected g r mid _ found here _ _ appended =>
    have hmid : mid.grants g.approvalId = some g := appended.grants ▸ found
    have hvoted : (mid.apply (.insertDecision (d.row approver .reject r.eventId))).grants
        g.approvalId = some g := hmid
    refine ⟨g.moved .rejected r.aggregateSeq, ?_, nofun⟩
    rw [← here, grants_settled hvoted]
    exact if_pos rfl
  | granted g r mid now _ _ found here pending eligible reached appended =>
    have hmid : mid.grants g.approvalId = some g := appended.grants ▸ found
    have hvoted : (mid.apply (.insertDecision (d.row approver .approve r.eventId))).grants
        g.approvalId = some g := hmid
    have hrows : (settled (mid.apply (.insertDecision (d.row approver .approve r.eventId))) g
        .approved r now).decisions g.approvalId =
        db.decisions g.approvalId ++ [d.row approver .approve r.eventId] := by
      rw [← congrFun appended.decisions]
      exact decided_row mid d approver .approve r.eventId here
    refine ⟨g.moved .approved r.aggregateSeq, ?_, fun _ ↦ ⟨?_, ?_⟩⟩
    · rw [← here, grants_settled hvoted]
      exact if_pos rfl
    · change Ballots ((settled _ g .approved r now).decisions g.approvalId)
      rw [hrows]
      exact (hdb.ballots _ _ found pending).append rfl eligible.notPrior
    · change g.quorumRequired ≤ (List.map DecisionRow.decidedBy
        ((settled _ g .approved r now).decisions g.approvalId)).length
      rw [hrows, length_map, length_append]
      rwa [ApprovalTables.deciders, length_map] at reached

theorem QuorumComplete.follows {g' : Grant} (h : QuorumComplete db g)
    (hid : g'.approvalId = g.approvalId) (hquorum : g'.quorumRequired = g.quorumRequired)
    (hrows : db'.decisions g.approvalId = db.decisions g.approvalId) : QuorumComplete db' g' := by
  refine ⟨?_, ?_⟩
  · rw [hid, hrows]
    exact h.toBallots
  · rw [hid, hquorum, deciders_congr hrows]
    exact h.reached

/-! ## Approvals that have ended -/

/-- The row and the ledgers of an approval are the same. -/
structure SameAt (aid : ℕ) (db db' : ApprovalTables) : Prop where
  grant : db'.grants aid = db.grants aid
  decisions : db'.decisions aid = db.decisions aid
  consumptions : db'.consumptions aid = db.consumptions aid

theorem SameAt.refl (aid : ℕ) (db : ApprovalTables) : SameAt aid db db := ⟨rfl, rfl, rfl⟩

theorem SameAt.trans (h : SameAt aid db db₁) (h' : SameAt aid db₁ db') : SameAt aid db db' :=
  ⟨h'.grant.trans h.grant, h'.decisions.trans h.decisions, h'.consumptions.trans h.consumptions⟩

theorem sameAt_settled {mid : ApprovalTables} {r : AppendResult} {now : Time}
    (hmid : mid.grants g.approvalId = some g) (hne : aid ≠ g.approvalId) :
    SameAt aid mid (settled mid g status r now) :=
  ⟨by rw [grants_settled hmid, if_neg hne], rfl, rfl⟩

theorem sameAt_insertDecision {decision : Decision} {eventId : ℕ} (h : aid ≠ d.approvalId) :
    SameAt aid db (db.apply (.insertDecision (d.row approver decision eventId))) :=
  ⟨rfl, decisions_insertDecision h, rfl⟩

theorem sameAt_insertConsumption {row : ConsumptionRow} (h : aid ≠ row.approvalId) :
    SameAt aid db (db.apply (.insertConsumption row)) :=
  ⟨rfl, rfl, Function.update_of_ne h ..⟩

/-- What has not ended is not the approval that has. -/
theorem ne_of_ended {g₀ : Grant} (hg₀ : db.grants aid = some g₀)
    (hended : g₀.status ∈ ApprovalStatus.terminal) (found : db.grants g.approvalId = some g)
    (hopen : g.status ∉ ApprovalStatus.terminal) : aid ≠ g.approvalId := by
  rintro rfl
  obtain rfl := some.inj (found.symm.trans hg₀)
  exact hopen hended

theorem Appended.sameAt {actor : String} {p : Payload} {r : AppendResult} {mid : ApprovalTables}
    (h : Appended db g actor p r mid) (aid : ℕ) : SameAt aid db mid := by
  cases h <;> exact ⟨rfl, rfl, rfl⟩

theorem Ended.sameAt {p : Payload} {g₀ : Grant} (h : Ended db g p db')
    (hg₀ : db.grants aid = some g₀) (hended : g₀.status ∈ ApprovalStatus.terminal) :
    aid ≠ g.approvalId ∧ SameAt aid db db' := by
  obtain ⟨actor, status, r, mid, now, found, legal, happ⟩ := h
  have hne := ne_of_ended hg₀ hended found (nextStatus_eq_ok legal).1
  exact ⟨hne, (happ.sameAt aid).trans (sameAt_settled (happ.grants ▸ found) hne)⟩

theorem Move.sameAt {g₀ : Grant} (h : Move db db') (hg₀ : db.grants aid = some g₀)
    (hended : g₀.status ∈ ApprovalStatus.terminal) : SameAt aid db db' := by
  cases h with
  | requested g r mid now fresh _ _ appended =>
    have hne : aid ≠ g.approvalId := by
      rintro rfl
      cases fresh.symm.trans hg₀
    have hmid : mid.grants g.approvalId = some g := by
      rw [appended.grants]
      exact Function.update_self ..
    have hinsert : SameAt aid db (db.apply (.insertGrant g)) :=
      ⟨Function.update_of_ne hne .., rfl, rfl⟩
    exact hinsert.trans ((appended.sameAt aid).trans (sameAt_settled hmid hne))
  | cancelled g _ ended => exact (ended.sameAt hg₀ hended).2
  | revoked g _ ended => exact (ended.sameAt hg₀ hended).2
  | expired g _ _ _ _ _ mid _ ended found appended =>
    obtain ⟨hne, hsame⟩ := ended.sameAt hg₀ hended
    obtain ⟨_, _, _, mid', _, found', -, happ⟩ := ended
    have hmid : mid'.grants g.approvalId = some g := happ.grants ▸ found'
    have hescalated := found
    rw [grants_settled hmid, if_pos rfl] at found
    obtain rfl := some.inj found
    exact hsame.trans ((appended.sameAt aid).trans
      (sameAt_settled (appended.grants ▸ hescalated) hne))
  | consumed c g r mid now found here _ usable appended =>
    have hne := ne_of_ended hg₀ hended found fun hmem ↦ by
      revert usable hmem
      cases g.status <;> decide
    refine (appended.sameAt aid).trans
      ((sameAt_insertConsumption ?_).trans (sameAt_settled ?_ hne))
    · exact here ▸ hne
    · exact (congrFun appended.grants _).trans found

theorem Decided.sameAt {g₀ : Grant} (h : Decided d approver db db')
    (hg₀ : db.grants aid = some g₀) (hended : g₀.status ∈ ApprovalStatus.terminal) :
    SameAt aid db db' := by
  have hne : ∀ {g : Grant}, db.grants g.approvalId = some g → g.status = .pending →
      aid ≠ g.approvalId := fun found pending ↦
    ne_of_ended hg₀ hended found (by rw [pending]; decide)
  cases h with
  | voted g _ _ _ found here pending =>
    exact ⟨rfl, decisions_insertDecision (here ▸ hne found pending), rfl⟩
  | rejected g _ mid _ found here pending _ appended
  | granted g _ mid _ _ _ found here pending _ _ appended =>
    refine (appended.sameAt aid).trans
      ((sameAt_insertDecision ?_).trans (sameAt_settled ?_ (hne found pending)))
    · exact here ▸ hne found pending
    · exact (congrFun appended.grants _).trans found

theorem Performed.sameAt {inp : ℕ → ApprovalInput} {g₀ : Grant} (h : Performed inp n db call db')
    (hg₀ : db.grants aid = some g₀) (hended : g₀.status ∈ ApprovalStatus.terminal) :
    SameAt aid db db' := by
  cases h with
  | decided _ _ _ decided => exact decided.sameAt hg₀ hended
  | moved _ moves =>
    induction moves with
    | refl => exact .refl aid db
    | tail _ hmove ih => exact ih.trans (hmove.sameAt (ih.grant.trans hg₀) hended)
  | aliased => exact ⟨rfl, rfl, rfl⟩

/-- **An approval that has ended stays as it is**: once it is consumed, rejected, cancelled, revoked
or expired, no call changes its row or adds to its decisions or consumptions. -/
theorem ended_approval_stays {catalog : PolicyCatalog}
    {C : ApprovalTables → ℕ → ApprovalCall → (ℕ → ApprovalInput) → Prop}
    (h : approvalDatabase.History (approvalBody catalog) C {} 0 db n)
    (h' : approvalDatabase.History (approvalBody catalog) C db n db' n')
    (hg : db.grants aid = some g) (hended : g.status ∈ ApprovalStatus.terminal) :
    SameAt aid db db' := by
  have htallied : ∀ {db n}, approvalDatabase.History (approvalBody catalog) C {} 0 db n →
      Tallied db := fun h ↦
    History.invariant (D := approvalDatabase) (I := fun db _ ↦ Tallied db) .init
      (fun _ _ _ _ h ↦ h) (fun db n call inp hdb _ ↦
        (returns_approvalBody catalog call hdb.indexed).mono fun _ _ _ hp ↦ hdb.performed hp) h
  refine History.induct (D := approvalDatabase) (P := fun db' _ ↦ SameAt aid db db') (.refl aid db)
    (fun s k call inp hs _ hsame ↦ ?_) h'
  have hret : approvalDatabase.Returns inp (approvalBody catalog call)
      (fun _ s' _ ↦ Performed inp k s call s') s k :=
    returns_approvalBody catalog call (htallied (h.trans hs)).indexed
  exact (hret.mono fun _ _ _ hp ↦
    hsame.trans (hp.sameAt (hsame.grant.trans hg) hended)).transact fun _ _ ↦ hsame

namespace Sample

def withdrawn : ApprovalTables × ℕ :=
  approvalDatabase.transact (input "") requested.2 requested.1
    (approvalBody catalog (.cancel 3 "requester" "k3" "done"))

end Sample

open Sample

/-- A request is withdrawn, and then approved in vain. -/
theorem ended_approval_stays_withdrawn : ∃ g, withdrawn.1.grants 3 = some g ∧ SameAt 3 withdrawn.1
    (approvalDatabase.transact (input "first") withdrawn.2 withdrawn.1
      (approvalBody Sample.catalog (.decide approve))).1 := by
  have hended : (withdrawn.1.grants 3).any (·.status ∈ ApprovalStatus.terminal) = true := by decide
  obtain ⟨g, hg, hended⟩ := (Option.any_eq_true _ _).1 hended
  exact ⟨g, hg, ended_approval_stays (.step _ _ requested_history trivial)
    (.step _ _ .refl trivial) hg (of_decide_eq_true hended)⟩

end AgentColab.Approvals
