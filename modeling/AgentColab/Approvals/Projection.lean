import AgentColab.Approvals.Moves

/-!
# The approvals projection

The services write the rows of the projection as they go; `rebuild_approvals` deletes them, replays
the Events, and takes the deciders from the ledger as it stands.
-/

namespace AgentColab.Approvals

open AgentColab Transaction Database List Option

namespace Sample

def catalog : PolicyCatalog where
  riskFor _ := .medium
  quorum _ := 2
  humanOnlyFrom := .critical
  escalationRole := "security"

def request : RequestApproval where
  workspaceUuid := "ws"
  requestedBy := "requester"
  subject := ⟨.task, "task-1"⟩
  action := "deploy"
  idempotencyKey := "k1"

def approve : DecideApproval where
  approvalId := 3
  approverAccountId := "approver"
  decision := .approve
  credentialFingerprint := "f"
  reauthVerified := true
  idempotencyKey := "k2"

def input (account : String) (_ : ℕ) : ApprovalInput where
  now := 1000
  principal := some ⟨account, "approver", true, true⟩

def requested : ApprovalTables × ℕ :=
  approvalDatabase.transact (input "") 0 {} (approvalBody catalog (.request request))

def voted : ApprovalTables × ℕ :=
  approvalDatabase.transact (input "first") requested.2 requested.1
    (approvalBody catalog (.decide approve))

theorem requested_history : approvalDatabase.History (approvalBody catalog) (fun _ _ _ _ ↦ True) {} 0
    requested.1 requested.2 := .step _ _ .refl trivial

theorem voted_history : approvalDatabase.History (approvalBody catalog) (fun _ _ _ _ ↦ True) {} 0
    voted.1 voted.2 := .step _ _ requested_history trivial

end Sample

variable (catalog : PolicyCatalog) {db db' : ApprovalTables} {n : ℕ}

/-! ## Rebuilding -/

/-- What `apply` makes of the row of the Event's approval. -/
def projectRow (deciders : List String) (row : Option ProjectionRow) (e : Event) :
    Option ProjectionRow :=
  match e.payload with
  | .requested subject action risk expiresAt _ maxUses =>
    -- on a conflict nothing is done
    some (row.getD {
      workspaceId := e.workspaceId
      subject := subject
      action := action
      risk := risk
      status := .pending
      usedCount := 0
      maxUses := maxUses
      expiresAt := expiresAt
      requestedBy := e.actorAccountId
      decidedBy := []
      lastEventId := e.eventId
      updatedAt := e.occurredAt })
  | .consumed _ used _ => row.map fun r ↦ { r with
      usedCount := used
      status := if r.maxUses.any fun m ↦ (used : ℤ) ≥ m then .consumed else .partiallyConsumed
      decidedBy := deciders
      lastEventId := e.eventId
      updatedAt := e.occurredAt }
  | .escalated _ => row.map fun r ↦ { r with lastEventId := e.eventId, updatedAt := e.occurredAt }
  | p =>
    match p.type.target with
    | some status => row.map fun r ↦ { r with
        status := status
        decidedBy := deciders
        lastEventId := e.eventId
        updatedAt := e.occurredAt }
    | none => row

/-- `apply` -/
def applyEvent (db : ApprovalTables) (projection : ℕ → Option ProjectionRow) (e : Event) :
    ℕ → Option ProjectionRow :=
  Function.update projection e.aggregateId
    (projectRow (db.deciders e.aggregateId) (projection e.aggregateId) e)

/-- Whether a row of this workspace is meant: no workspace means all of them. -/
def inScope (ws : Option String) (workspaceId : String) : Bool := ws.all (· = workspaceId)

/-- Delete the projection and replay every Event in recorded order. -/
def rebuildApprovals (ws : Option String) (db : ApprovalTables) : ApprovalTables :=
  { db with
    projection := (db.events.filter fun e ↦ inScope ws e.workspaceId).foldl (applyEvent db)
      fun aid ↦ (db.projection aid).filter fun row ↦ !inScope ws row.workspaceId }

/-- The columns that `snapshot_hash` selects besides the key; the times are left out. -/
structure SnapshotRow where
  workspaceId : String
  subject : Subject
  action : String
  risk : Risk
  status : ApprovalStatus
  usedCount : ℕ
  maxUses : Option ℤ
  requestedBy : String
  decidedBy : List String
  lastEventId : ℕ
deriving DecidableEq

def ProjectionRow.columns (r : ProjectionRow) : SnapshotRow :=
  ⟨r.workspaceId, r.subject, r.action, r.risk, r.status, r.usedCount, r.maxUses, r.requestedBy,
    r.decidedBy, r.lastEventId⟩

/-- What `snapshot_hash` hashes, in the order of the ids. -/
def snapshot (ws : Option String) (db : ApprovalTables) (aid : ℕ) : Option SnapshotRow :=
  ((db.projection aid).filter fun row ↦ inScope ws row.workspaceId).map (·.columns)

/-! ## One approval at a time -/

def replay (deciders : List String) (events : List Event) : Option ProjectionRow :=
  events.foldl (projectRow deciders) none

theorem replay_append (deciders : List String) (events : List Event) (e : Event) :
    replay deciders (events ++ [e]) = projectRow deciders (replay deciders events) e := by
  rw [replay, replay, foldl_append]
  rfl

theorem foldl_applyEvent (events : List Event) (projection : ℕ → Option ProjectionRow) (aid : ℕ) :
    events.foldl (applyEvent db) projection aid =
      (events.filter (·.aggregateId = aid)).foldl (projectRow (db.deciders aid))
        (projection aid) := by
  induction events generalizing projection with
  | nil => rfl
  | cons e _ ih =>
    rw [foldl_cons, ih]
    by_cases haid : e.aggregateId = aid
    · subst haid
      simp [applyEvent]
    · rw [filter_cons_of_neg (by simpa using haid), applyEvent,
        Function.update_of_ne (Ne.symm haid)]

structure Cell where
  grant : Option Grant
  decisions : List DecisionRow
  consumptions : List ConsumptionRow
  projection : Option ProjectionRow
  stream : List Event

def ApprovalTables.cell (db : ApprovalTables) (aid : ℕ) : Cell :=
  ⟨db.grants aid, db.decisions aid, db.consumptions aid, db.projection aid, db.stream aid⟩

open ApprovalTables (cell stream)

def Cell.deciders (c : Cell) : List String := c.decisions.map (·.decidedBy)

section Frame

variable {aid : ℕ}

theorem cell_insertEvent_self (e : Event) : (db.apply (.insertEvent e)).cell e.aggregateId =
      { db.cell e.aggregateId with stream := db.stream e.aggregateId ++ [e] } := by
  simp [cell, ApprovalTables.apply, stream]

theorem cell_insertEvent_of_ne {e : Event} (h : aid ≠ e.aggregateId) :
    (db.apply (.insertEvent e)).cell aid = db.cell aid := by
  simp [cell, ApprovalTables.apply, stream, Ne.symm h]

variable {g : Grant} {status : ApprovalStatus} {now : Time}

theorem cell_insertGrant_of_ne (h : aid ≠ g.approvalId) :
    (db.apply (.insertGrant g)).cell aid = db.cell aid := by
  simp [cell, ApprovalTables.apply, stream, h]

theorem cell_insertDecision_of_ne {row : DecisionRow} (h : aid ≠ row.approvalId) :
    (db.apply (.insertDecision row)).cell aid = db.cell aid := by
  simp [cell, ApprovalTables.apply, stream, h]

theorem cell_insertConsumption_of_ne {row : ConsumptionRow} (h : aid ≠ row.approvalId) :
    (db.apply (.insertConsumption row)).cell aid = db.cell aid := by
  simp [cell, ApprovalTables.apply, stream, h]

theorem cell_projectedStore_of_ne {eventId : ℕ} (h : aid ≠ g.approvalId) :
    (projectedStore db g status eventId now).cell aid = db.cell aid := by
  simp [projectedStore, cell, ApprovalTables.apply, stream, h]

theorem cell_settled_of_ne {r : AppendResult} (h : aid ≠ g.approvalId) :
    (settled db g status r now).cell aid = db.cell aid := by
  rw [settled, cell_projectedStore_of_ne h]
  simp [cell, ApprovalTables.apply, stream, h]

end Frame

/-! ## The invariant -/

/-- A decision on a termination tells that the vote is over, a consumption that its key is in the
ledger. -/
structure Cell.Recorded (c : Cell) (g : Grant) : Prop where
  consumed : ∀ e ∈ c.stream, ∀ key used subject, e.payload = .consumed key used subject →
    key ∈ c.consumptions.map (·.consumptionKey)
  decided : ∀ e ∈ c.stream, e.payload.type ∈ [EventType.granted, .rejected] → g.status ≠ .pending
  ended : ∀ e ∈ c.stream, e.payload.type ∈ [EventType.cancelled, .expired, .revoked, .escalated] →
    g.status ∈ ApprovalStatus.terminal

/-- The row that a rebuild makes of the stream. While an approval is pending nobody is named. -/
def rebuiltRow (g : Grant) (used : ℕ) (deciders : List String) (last : Event) : ProjectionRow :=
  projected g g.status used (if g.status = .pending then [] else deciders) last.eventId
    last.occurredAt

/-- The cell of an approval with grant `g`. `replayed` holds for every list of deciders, since the
ledger may grow until the rebuild. -/
structure Cell.Sound (c : Cell) (g : Grant) : Prop where
  seq : c.stream.length = g.aggregateSeq
  workspace : ∀ e ∈ c.stream, e.workspaceId = g.workspaceUuid
  live : ∃ last now, c.stream.getLast? = some last ∧ c.projection =
    some (projected g g.status c.consumptions.length c.deciders last.eventId now)
  replayed : ∃ last, c.stream.getLast? = some last ∧ ∀ deciders,
    replay deciders c.stream = some (rebuiltRow g c.consumptions.length deciders last)
  recorded : c.Recorded g

def Cell.empty : Cell := ⟨none, [], [], none, []⟩

def Cell.Good (c : Cell) : Prop :=
  c = Cell.empty ∨ ∃ g, c.grant = some g ∧ c.Sound g

structure ApprovalTables.Sound (db : ApprovalTables) : Prop where
  indexed : db.Indexed
  good : ∀ aid, (db.cell aid).Good

variable {g : Grant} {aid used : ℕ} {status : ApprovalStatus} {e last : Event} {now : Time}
    {actor : String} {p : Payload} {r : AppendResult} {t : EventType} {mid : ApprovalTables}
    {d : DecideApproval} {approver : PrincipalInfo}

theorem ApprovalTables.Sound.cell (hdb : db.Sound) (hg : db.grants g.approvalId = some g) :
    (db.cell g.approvalId).Sound g := by
  obtain hempty | ⟨g', hg', hsound⟩ := hdb.good g.approvalId
  · have hnone : db.grants g.approvalId = none := congrArg Cell.grant hempty
    rw [hnone] at hg
    cases hg
  · obtain rfl : g' = g := some.inj (hg'.symm.trans hg)
    exact hsound

theorem ApprovalTables.Sound.fresh (hdb : db.Sound) (hg : db.grants aid = none) :
    db.cell aid = Cell.empty := by
  obtain hempty | ⟨g', hg', -⟩ := hdb.good aid
  · exact hempty
  · have hsome : db.grants aid = some g' := hg'
    rw [hg] at hsome
    cases hsome

/-! ### One Event -/

def Grant.moved (g : Grant) (status : ApprovalStatus) (seq : ℕ) : Grant :=
  { g with status := status, aggregateSeq := seq }

/-- The cell after an Event `e` that leads to `status`, with the ledgers as they are then. -/
def Cell.next (c : Cell) (g : Grant) (status : ApprovalStatus) (e : Event)
    (decisions : List DecisionRow) (consumptions : List ConsumptionRow) (now : Time) : Cell where
  grant := some (g.moved status e.aggregateSeq)
  decisions := decisions
  consumptions := consumptions
  projection := some (projected g status consumptions.length (decisions.map (·.decidedBy))
    e.eventId now)
  stream := c.stream ++ [e]

/-- **The step lemma.** What an Event does to the rebuilt row is what the service does to the live
one. -/
theorem Cell.Sound.next {c : Cell} (h : c.Sound g) {decisions : List DecisionRow}
    {consumptions : List ConsumptionRow} (hseq : e.aggregateSeq = g.aggregateSeq + 1)
    (hws : e.workspaceId = g.workspaceUuid) (hrow : ∀ deciders last, projectRow deciders (some
    (rebuiltRow g c.consumptions.length deciders last)) e = some (projected g status
    consumptions.length deciders e.eventId e.occurredAt)) (hpending : status ≠ .pending) (hkeys : ∀
    key ∈ c.consumptions.map (·.consumptionKey), key ∈ consumptions.map (·.consumptionKey))
    (hconsumed : ∀ key used subject, e.payload = .consumed key used subject → key ∈ consumptions.map
    (·.consumptionKey)) (hterminal : g.status ∈ ApprovalStatus.terminal ∨ e.payload.type ∈
    [EventType.cancelled, .expired, .revoked, .escalated] → status ∈ ApprovalStatus.terminal) :
    (c.next g status e decisions consumptions now).Sound (g.moved status e.aggregateSeq) where
  seq := by simp [Cell.next, Grant.moved, h.seq, hseq]
  workspace e' he' := by
    rcases mem_append.1 he' with he' | he'
    · exact h.workspace e' he'
    · rwa [mem_singleton.1 he']
  live := ⟨e, now, by simp [Cell.next], rfl⟩
  replayed := by
    refine ⟨e, by simp [Cell.next], fun deciders ↦ ?_⟩
    obtain ⟨last, -, hlast⟩ := h.replayed
    rw [Cell.next, replay_append, hlast, hrow]
    simp [rebuiltRow, Grant.moved, hpending, projected]
  recorded := by
    constructor
    · intro e' he' key used subject hp
      rcases mem_append.1 he' with he' | he'
      · exact hkeys key (h.recorded.consumed e' he' key used subject hp)
      · rw [mem_singleton.1 he'] at hp
        exact hconsumed key used subject hp
    · intro e' _ _
      exact hpending
    · intro e' he' hp
      rcases mem_append.1 he' with he' | he'
      · exact hterminal (.inl (h.recorded.ended e' he' hp))
      · rw [mem_singleton.1 he'] at hp
        exact hterminal (.inr hp)

theorem Appended.isNew (h : Appended db g actor p r db')
    (hp : ∀ e ∈ db.stream g.approvalId, e.payload ≠ p) :
    ∃ e : Event, db' = db.apply (.insertEvent e) ∧ r = ⟨e.eventId, e.aggregateSeq, false⟩ ∧
      e.aggregateId = g.approvalId ∧ e.workspaceId = g.workspaceUuid ∧ e.actorAccountId = actor ∧
      e.payload = p ∧ e.aggregateSeq = g.aggregateSeq + 1 := by
  cases h with
  | new e aggregate workspace by' payload expected =>
    exact ⟨e, rfl, rfl, aggregate, workspace, by', payload, expected⟩
  | replayed prior recorded payload => exact absurd payload (hp prior recorded)

theorem cell_projectedStore (db : ApprovalTables) {eventId : ℕ} (hrow : ∀ row, db.projection
    g.approvalId = some row → ∃ s u d e t, row = projected g s u d e t) :
    (projectedStore db g status eventId now).cell g.approvalId =
      { db.cell g.approvalId with
        projection := some (projected g status (db.consumptions g.approvalId).length
          (db.deciders g.approvalId) eventId now) } := by
  have hupsert : (projectedStore db g status eventId now).projection g.approvalId =
      some (projected g status (db.consumptions g.approvalId).length (db.deciders g.approvalId)
        eventId now) := by
    simp only [projectedStore, ApprovalTables.apply, Function.update_self]
    cases hp : db.projection g.approvalId with
    | none => rfl
    | some row =>
      obtain ⟨s, u, d, e, t, rfl⟩ := hrow row hp
      rfl
  exact congrArg (fun row ↦ Cell.mk _ _ _ row _) hupsert

theorem cell_settled (hg : db.grants g.approvalId = some g) (hrow : ∀ row, db.projection
    g.approvalId = some row → ∃ s u d e t, row = projected g s u d e t) :
    (settled db g status r now).cell g.approvalId =
      ⟨some (g.moved status r.aggregateSeq), db.decisions g.approvalId,
        db.consumptions g.approvalId, some (projected g status (db.consumptions g.approvalId).length
          ((db.decisions g.approvalId).map (·.decidedBy)) r.eventId now),
        db.stream g.approvalId⟩ := by
  have hgrant : (db.apply (.setStatus g.approvalId status r.aggregateSeq)).grants g.approvalId =
      some (g.moved status r.aggregateSeq) := by
    simp [ApprovalTables.apply, hg, Grant.moved]
  refine (cell_projectedStore (db.apply (.setStatus g.approvalId status r.aggregateSeq)) hrow).trans ?_
  exact congrArg (fun row ↦ Cell.mk row _ _ _ _) hgrant

theorem ApprovalTables.Sound.row (hdb : db.Sound) (hg : db.grants g.approvalId = some g)
    (row : ProjectionRow) (hrow : db.projection g.approvalId = some row) :
    ∃ s u d e t, row = projected g s u d e t := by
  obtain ⟨last, now, -, hlive⟩ := (hdb.cell hg).live
  exact ⟨_, _, _, _, _, some.inj (hrow.symm.trans hlive)⟩

theorem ApprovalTables.stream_insertEvent (haid : e.aggregateId = g.approvalId) :
    (db.apply (.insertEvent e)).stream g.approvalId = db.stream g.approvalId ++ [e] := by
  rw [← haid]
  exact congrArg Cell.stream (cell_insertEvent_self e)

theorem ApprovalTables.Sound.settle (hdb : db.Sound) (mid : ApprovalTables) (now : Time)
    (found : db.grants g.approvalId = some g) (hgrants : mid.grants = db.grants)
    (hprojection : mid.projection = db.projection)
    (hstream : mid.stream g.approvalId = db.stream g.approvalId ++ [e])
    (hframe : ∀ aid, aid ≠ g.approvalId → mid.cell aid = db.cell aid) (hnext : ((db.cell
    g.approvalId).next g status e (mid.decisions g.approvalId) (mid.consumptions g.approvalId)
    now).Sound (g.moved status e.aggregateSeq)) :
    (settled mid g status ⟨e.eventId, e.aggregateSeq, false⟩ now).Sound ∧
      (settled mid g status ⟨e.eventId, e.aggregateSeq, false⟩ now).cell g.approvalId =
        (db.cell g.approvalId).next g status e (mid.decisions g.approvalId)
          (mid.consumptions g.approvalId) now := by
  have hmid : mid.grants g.approvalId = some g := hgrants ▸ found
  have hcell : (settled mid g status ⟨e.eventId, e.aggregateSeq, false⟩ now).cell g.approvalId =
      (db.cell g.approvalId).next g status e (mid.decisions g.approvalId)
        (mid.consumptions g.approvalId) now := by
    rw [cell_settled hmid (by rw [hprojection]; exact hdb.row found), hstream]
    rfl
  refine ⟨⟨settled_indexed ?_, fun aid ↦ ?_⟩, hcell⟩
  · rw [ApprovalTables.Indexed, hgrants]
    exact hdb.indexed
  · by_cases hne : aid = g.approvalId
    · subst hne
      rw [hcell]
      exact .inr ⟨_, rfl, hnext⟩
    · rw [cell_settled_of_ne hne, hframe aid hne]
      exact hdb.good aid

/-! ### The moves -/

theorem projectRow_of_target (hp : p.type.target = some status) {deciders : List String}
    (he : e.payload = p) : projectRow deciders (some (rebuiltRow g used deciders last)) e =
      some (projected g status used deciders e.eventId e.occurredAt) := by
  rw [projectRow, he]
  cases p with
  | requested | consumed | escalated => cases hp
  | granted | rejected | cancelled | expired | revoked =>
    obtain rfl := some.inj hp
    rfl

theorem target_ne_pending (h : t.target = some status) : status ≠ .pending := by
  cases t <;> simp_all [EventType.target] <;> simp [← h]

theorem terminal_of_target (h : t.target = some status)
    (ht : t ∈ [EventType.cancelled, .expired, .revoked, .escalated]) :
    status ∈ ApprovalStatus.terminal := by
  cases t <;> simp_all [EventType.target] <;> simp [← h, ApprovalStatus.terminal]

theorem type_consumed {key : String} {subject : Subject} (h : p = .consumed key used subject) :
    p.type = .consumed := by
  rw [h, Payload.type]

theorem ApprovalTables.Sound.ended (hdb : db.Sound)
    (hp : p.type ∈ [EventType.cancelled, .expired, .revoked, .escalated]) (h : Ended db g p db') :
    db'.Sound ∧ ∃ status e, p.type.target = some status ∧ e.payload = p ∧
      g.status ∉ ApprovalStatus.terminal ∧
      db'.grants g.approvalId = some (g.moved status e.aggregateSeq) ∧
      db'.stream g.approvalId = db.stream g.approvalId ++ [e] := by
  obtain ⟨actor, status, r, mid, now, found, legal, happ⟩ := h
  have hcell := hdb.cell found
  obtain ⟨hlive, hlegal⟩ := nextStatus_eq_ok legal
  have hne : p.type ≠ .consumed := by
    rintro hc
    simp [hc] at hp
  have htarget := target_of_transitions hlegal hne
  -- a stream with such an Event has a terminal grant, so the append is not a replay
  obtain ⟨e, rfl, rfl, haid, hws, -, hpay, hseq⟩ := happ.isNew fun e he hpe ↦
    hlive (hcell.recorded.ended e he (hpe ▸ hp))
  obtain ⟨hsound, hset⟩ := hdb.settle (db.apply (.insertEvent e)) now found rfl rfl (stream_insertEvent haid)
    (fun aid hne ↦ cell_insertEvent_of_ne (haid ▸ hne))
    (hcell.next hseq hws (fun _ _ ↦ projectRow_of_target htarget hpay)
      (target_ne_pending htarget) (fun _ h ↦ h)
      (fun key used subject hc ↦ absurd (type_consumed (hpay ▸ hc)) hne)
      (fun _ ↦ terminal_of_target htarget hp))
  exact ⟨hsound, status, e, htarget, hpay, hlive, congrArg Cell.grant hset,
    congrArg Cell.stream hset⟩

theorem ApprovalTables.Sound.requested (hdb : db.Sound) (now : Time)
    (fresh : db.grants g.approvalId = none) (pending : g.status = .pending)
    (unrecorded : g.aggregateSeq = 0) (happ : Appended (db.apply (.insertGrant g)) g g.requestedBy
    (.requested g.subject g.action g.risk g.expiresAt g.quorumRequired g.maxUses) r mid) :
    (settled mid g .pending r now).Sound := by
  have hindexed := (Move.requested g r mid now fresh pending unrecorded happ).indexed hdb.indexed
  have hempty := hdb.fresh fresh
  have hstream : db.stream g.approvalId = [] := congrArg Cell.stream hempty
  have hdecisions : db.decisions g.approvalId = [] := congrArg Cell.decisions hempty
  have hconsumptions : db.consumptions g.approvalId = [] := congrArg Cell.consumptions hempty
  have hprojection : db.projection g.approvalId = none := congrArg Cell.projection hempty
  -- the stream of a new id is empty, so the append is not a replay
  obtain ⟨e, rfl, rfl, haid, hws, hactor, hpay, hseq⟩ := happ.isNew fun e he ↦ by
    rw [show (db.apply (.insertGrant g)).stream g.approvalId = [] from hstream] at he
    cases he
  refine ⟨hindexed, fun aid ↦ ?_⟩
  by_cases hne : aid = g.approvalId
  · subst hne
    have hgrant : ((db.apply (.insertGrant g)).apply (.insertEvent e)).grants g.approvalId = some g :=
      Function.update_self ..
    have hnew : ((db.apply (.insertGrant g)).apply (.insertEvent e)).stream g.approvalId = [e] := by
      rw [ApprovalTables.stream_insertEvent haid]
      exact congrArg (· ++ [e]) hstream
    rw [cell_settled hgrant (fun row hrow ↦ by cases hprojection.symm.trans hrow), hnew]
    simp only [ApprovalTables.apply, hdecisions, hconsumptions, length_nil, map_nil]
    refine .inr ⟨_, rfl, ?_⟩
    refine ⟨?_, ?_, ⟨e, now, rfl, ?_⟩, ⟨e, rfl, fun deciders ↦ ?_⟩, ?_⟩
    · simp [Grant.moved, hseq, unrecorded]
    · intro e' he'
      rwa [mem_singleton.1 he']
    · simp [Grant.moved, projected, Cell.deciders]
    · simp [replay, projectRow, hpay, rebuiltRow, projected, Grant.moved, hws, hactor]
    · refine ⟨?_, ?_, ?_⟩ <;> intro e' he'
      · rw [mem_singleton.1 he', hpay]
        rintro _ _ _ ⟨⟩
      · rw [mem_singleton.1 he', hpay]
        simp [Payload.type]
      · rw [mem_singleton.1 he', hpay]
        simp [Payload.type]
  · rw [cell_settled_of_ne hne, cell_insertEvent_of_ne (haid ▸ hne), cell_insertGrant_of_ne hne]
    exact hdb.good aid

theorem ApprovalTables.Sound.move (hdb : db.Sound) (h : Move db db') : db'.Sound := by
  cases h with
  | requested g r _ now fresh pending unrecorded appended =>
    exact hdb.requested now fresh pending unrecorded appended
  | cancelled g _ ended => exact (hdb.ended (by simp [Payload.type]) ended).1
  | revoked g _ ended => exact (hdb.ended (by simp [Payload.type]) ended).1
  | expired g _ _ _ r db₁ _ now ended found appended =>
    obtain ⟨hdb₁, status, e₁, htarget, hpay₁, hlive, hgrant, hstream⟩ :=
      hdb.ended (by simp [Payload.type]) ended
    obtain rfl : .expired = status := some.inj htarget
    obtain rfl := some.inj (hgrant.symm.trans found)
    have found' : db₁.grants (g.moved .expired e₁.aggregateSeq).approvalId =
        some (g.moved .expired e₁.aggregateSeq) := found
    have hcell := hdb₁.cell found'
    -- the escalation follows the expiry, before which the grant was not terminal
    obtain ⟨e, rfl, rfl, haid, hws, -, hpay, hseq⟩ := appended.isNew fun e he hpe ↦ by
      have he' : e ∈ db.stream g.approvalId ++ [e₁] := hstream ▸ he
      rcases mem_append.1 he' with he' | he'
      · exact hlive ((hdb.cell ended.found).recorded.ended e he' (by simp [hpe, Payload.type]))
      · rw [mem_singleton.1 he', hpay₁] at hpe
        cases hpe
    refine (hdb₁.settle (db₁.apply (.insertEvent e)) now found' rfl rfl (stream_insertEvent haid)
      (fun aid hne ↦ cell_insertEvent_of_ne (haid ▸ hne))
      (hcell.next hseq hws ?_ (by simp) (fun _ h ↦ h) ?_ ?_)).1
    · intro deciders last
      simp only [projectRow, hpay]
      rfl
    · intro key used subject hc
      rw [hpay] at hc
      cases hc
    · simp [ApprovalStatus.terminal]
  | consumed c g r _ now found here absent usable appended =>
    have hcell := hdb.cell found
    rw [← here] at absent appended ⊢
    -- a stream with such an Event has the key in the ledger, so the append is not a replay
    obtain ⟨e, rfl, rfl, haid, hws, -, hpay, hseq⟩ := appended.isNew fun e he hpe ↦
      absent (hcell.recorded.consumed e he _ _ _ hpe)
    let row : ConsumptionRow := ⟨g.approvalId, c.consumptionKey, c.consumedBy, c.consumedFor,
      e.eventId⟩
    have hledger : ((db.apply (.insertEvent e)).apply (.insertConsumption row)).consumptions
        g.approvalId = db.consumptions g.approvalId ++ [row] := Function.update_self ..
    refine (hdb.settle ((db.apply (.insertEvent e)).apply (.insertConsumption row)) now found rfl rfl
      (stream_insertEvent haid) ?_ ?_).1
    · intro aid hne
      rw [cell_insertConsumption_of_ne hne, cell_insertEvent_of_ne (haid ▸ hne)]
    rw [hledger]
    refine hcell.next hseq hws ?_ ?_ ?_ ?_ ?_
    · intro deciders last
      rw [projectRow, hpay, length_append, statusAfterConsumption_eq]
      rfl
    · rw [statusAfterConsumption_eq]
      split_ifs <;> simp
    · intro key hkey
      rw [map_append]
      exact mem_append_left _ hkey
    · intro key used subject hc
      rw [hpay] at hc
      obtain ⟨rfl, -, -⟩ := Payload.consumed.inj hc
      simp [row]
    · rw [hpay]
      rintro (hterm | htype)
      · simp only [ApprovalStatus.consumable, mem_cons, not_mem_nil, or_false] at usable
        rcases usable with hs | hs <;> simp [hs, ApprovalStatus.terminal] at hterm
      · simp [Payload.type] at htype

theorem decided_row (db : ApprovalTables) (d : DecideApproval) (approver : PrincipalInfo)
    (decision : Decision) (eventId : ℕ) (here : aid = d.approvalId) :
    (db.apply (.insertDecision (d.row approver decision eventId))).decisions aid =
      db.decisions aid ++ [d.row approver decision eventId] := by
  subst here
  exact Function.update_self ..

theorem ApprovalTables.Sound.concluded (hdb : db.Sound) {decision : Decision} (now : Time)
    (found : db.grants g.approvalId = some g) (here : g.approvalId = d.approvalId)
    (pending : g.status = .pending) (hp : p.type ∈ [EventType.granted, .rejected])
    (htarget : p.type.target = some status) (happ : Appended db g actor p r mid) :
    (settled (mid.apply (.insertDecision (d.row approver decision r.eventId))) g status r now).Sound := by
  have hcell := hdb.cell found
  -- a stream with such an Event has a grant that is not pending, so the append is not a replay
  obtain ⟨e, rfl, rfl, haid, hws, -, hpay, hseq⟩ := happ.isNew fun e he hpe ↦
    hcell.recorded.decided e he (hpe ▸ hp) pending
  refine (hdb.settle ((db.apply (.insertEvent e)).apply (.insertDecision
    (d.row approver decision e.eventId))) now found rfl rfl (stream_insertEvent haid) ?_ ?_).1
  · intro aid hne
    have hne' : aid ≠ d.approvalId := here ▸ hne
    rw [cell_insertDecision_of_ne hne', cell_insertEvent_of_ne (haid ▸ hne)]
  refine hcell.next hseq hws (fun _ _ ↦ projectRow_of_target htarget hpay)
    (target_ne_pending htarget) (fun _ h ↦ h) ?_ ?_
  · intro key used subject hc
    rw [type_consumed (hpay ▸ hc)] at hp
    simp at hp
  · rintro (hterm | htype)
    · simp [pending, ApprovalStatus.terminal] at hterm
    · rw [hpay] at htype
      generalize p.type = t at hp htype
      cases t <;> simp_all

theorem ApprovalTables.Sound.voted (hdb : db.Sound) (now : Time)
    (found : db.grants g.approvalId = some g) (here : g.approvalId = d.approvalId)
    (pending : g.status = .pending) (latest : (db.stream g.approvalId).getLast? = some last) :
    (projectedStore (db.apply (.insertDecision (d.row approver .approve last.eventId))) g .pending
      last.eventId now).Sound := by
  have hcell := hdb.cell found
  refine ⟨hdb.indexed, fun aid ↦ ?_⟩
  by_cases hne : aid = g.approvalId
  · subst hne
    have hset : (projectedStore (db.apply (.insertDecision (d.row approver .approve last.eventId))) g
        .pending last.eventId now).cell g.approvalId =
          { db.cell g.approvalId with
            decisions := db.decisions g.approvalId ++ [d.row approver .approve last.eventId]
            projection := some (projected g .pending (db.consumptions g.approvalId).length
              ((db.decisions g.approvalId ++ [d.row approver .approve last.eventId]).map
                (·.decidedBy)) last.eventId now) } := by
      rw [← decided_row db d approver .approve last.eventId here]
      exact cell_projectedStore (db.apply (.insertDecision _)) (hdb.row found)
    rw [hset]
    refine .inr ⟨g, found, hcell.seq, hcell.workspace, ⟨last, now, latest, ?_⟩, hcell.replayed,
      hcell.recorded.consumed, hcell.recorded.decided, hcell.recorded.ended⟩
    rw [pending]
    rfl
  · have hne' : aid ≠ d.approvalId := here ▸ hne
    rw [cell_projectedStore_of_ne hne, cell_insertDecision_of_ne hne']
    exact hdb.good aid

theorem ApprovalTables.Sound.decided (hdb : db.Sound) (h : Decided d approver db db') :
    db'.Sound := by
  cases h with
  | voted g _ now _ found here pending _ _ latest =>
    exact hdb.voted now found here pending latest
  | rejected g r _ now found here pending _ appended
  | granted g r _ now _ _ found here pending _ _ appended =>
    exact hdb.concluded now found here pending (by simp [Payload.type]) rfl appended

theorem ApprovalTables.Sound.performed (hdb : db.Sound) {inp : ℕ → ApprovalInput}
    {call : ApprovalCall} (h : Performed inp n db call db') : db'.Sound := by
  cases h with
  | decided d _ _ decided => exact hdb.decided decided
  | aliased => exact ⟨hdb.indexed, hdb.good⟩
  | moved _ moves =>
    induction moves with
    | refl => exact hdb
    | tail _ hmove ih => exact ih.move hmove

theorem ApprovalTables.Sound.init : ({} : ApprovalTables).Sound where
  indexed aid g hg := by cases hg
  good _ := .inl rfl

theorem sound_of_history {C : ApprovalTables → ℕ → ApprovalCall → (ℕ → ApprovalInput) → Prop}
    (h : approvalDatabase.History (approvalBody catalog) C {} 0 db n) : db.Sound := by
  refine h.invariant (I := fun (s : ApprovalTables) _ ↦ s.Sound) .init (fun _ _ _ _ hs ↦ hs) ?_
  intro s k call inp hs _
  exact (returns_approvalBody catalog call hs.indexed).mono fun _ _ _ hperf ↦ hs.performed hperf

/-! ## Live and rebuilt -/

theorem rebuilt_projection (ws : Option String) (aid : ℕ) :
    (rebuildApprovals ws db).projection aid =
      ((db.stream aid).filter fun e ↦ inScope ws e.workspaceId).foldl (projectRow (db.deciders aid))
        ((db.projection aid).filter fun row ↦ !inScope ws row.workspaceId) := by
  change (db.events.filter _).foldl (applyEvent db) _ aid = _
  rw [foldl_applyEvent, stream, List.filter_filter, List.filter_filter]
  congr 2
  funext e
  exact Bool.and_comm _ _

theorem ApprovalTables.Sound.rebuilt (hdb : db.Sound) (ws : Option String)
    (found : db.grants g.approvalId = some g) :
    ∃ last now, db.projection g.approvalId = some (projected g g.status
        (db.consumptions g.approvalId).length (db.deciders g.approvalId) last.eventId now) ∧
      (rebuildApprovals ws db).projection g.approvalId =
        if inScope ws g.workspaceUuid then some (rebuiltRow g (db.consumptions g.approvalId).length
          (db.deciders g.approvalId) last)
        else db.projection g.approvalId := by
  have hcell := hdb.cell found
  obtain ⟨last, now, hlast, hlive⟩ := hcell.live
  obtain ⟨last', hlast', hreplay⟩ := hcell.replayed
  obtain rfl : last' = last := some.inj (hlast'.symm.trans hlast)
  have hrow : db.projection g.approvalId = some (projected g g.status
    (db.consumptions g.approvalId).length (db.deciders g.approvalId) last'.eventId now) := hlive
  have hscope : ∀ e ∈ db.stream g.approvalId,
      inScope ws e.workspaceId = inScope ws g.workspaceUuid :=
    fun e he ↦ congrArg (inScope ws) (hcell.workspace e he)
  refine ⟨last', now, hrow, ?_⟩
  have hreplayed := hreplay (db.deciders g.approvalId)
  rw [rebuilt_projection, filter_congr hscope, hrow]
  have hws : (projected g g.status (db.consumptions g.approvalId).length
    (db.deciders g.approvalId) last'.eventId now).workspaceId = g.workspaceUuid := rfl
  by_cases hin : inScope ws g.workspaceUuid = true
  · rw [if_pos hin, filter_some_neg (by simp [hws, hin]), filter_eq_self.2 fun _ _ ↦ hin]
    exact hreplayed
  · rw [if_neg hin, filter_some_pos (by simp [hws, hin]), filter_eq_nil_iff.2 fun _ _ ↦ hin]
    rfl

theorem scoped_columns {scope : Option String} {a b : ProjectionRow} (h : a.columns = b.columns) :
    ((some a).filter fun row ↦ inScope scope row.workspaceId).map (·.columns) =
      ((some b).filter fun row ↦ inScope scope row.workspaceId).map (·.columns) := by
  have hws : a.workspaceId = b.workspaceId := congrArg SnapshotRow.workspaceId h
  rw [filter_some, filter_some, hws]
  split_ifs
  · exact congrArg some h
  · rfl

theorem deciders_eq_nil : db.deciders aid = [] ↔ db.decisions aid = [] := map_eq_nil_iff

theorem columns_rebuiltRow {deciders : List String} : (rebuiltRow g used deciders last).columns =
      (projected g g.status used deciders last.eventId now).columns ↔
      (g.status = .pending → deciders = []) := by
  by_cases hpending : g.status = .pending
  · simp [rebuiltRow, projected, ProjectionRow.columns, hpending, eq_comm]
  · simp [rebuiltRow, projected, ProjectionRow.columns, hpending]

/-- **The live projection equals its rebuild exactly when no pending approval has a recorded
decision.** This is so in every state that a history of calls reaches, for a rebuild of one
workspace or of all, and for the snapshot of one workspace or of all. -/
theorem snapshot_rebuildApprovals_iff
    (h : approvalDatabase.History (approvalBody catalog) (fun _ _ _ _ ↦ True) {} 0 db n) :
    (∀ ws scope, snapshot scope (rebuildApprovals ws db) = snapshot scope db) ↔
      ∀ aid g, db.grants aid = some g → g.status = .pending → db.decisions aid = [] := by
  have hdb := sound_of_history catalog h
  constructor
  · intro heq aid g hg hpending
    obtain rfl := hdb.indexed aid g hg
    obtain ⟨last, now, hlive, hrebuilt⟩ := hdb.rebuilt none hg
    have hrow := congrFun (heq none none) g.approvalId
    have hall : inScope none g.workspaceUuid = true := rfl
    rw [snapshot, snapshot, hlive, hrebuilt, if_pos hall] at hrow
    exact deciders_eq_nil.1 (columns_rebuiltRow.1 (some.inj hrow) hpending)
  · intro hnone ws scope
    funext aid
    cases hg : db.grants aid with
    | none =>
      have hempty := hdb.fresh hg
      have hprojection : db.projection aid = none := congrArg Cell.projection hempty
      have hstream : db.stream aid = [] := congrArg Cell.stream hempty
      rw [snapshot, snapshot, rebuilt_projection, hprojection, hstream]
      rfl
    | some g =>
      obtain rfl := hdb.indexed aid g hg
      obtain ⟨last, now, hlive, hrebuilt⟩ := hdb.rebuilt ws hg
      rw [snapshot, snapshot, hrebuilt]
      split_ifs with hin
      · have hcols : (rebuiltRow g (db.consumptions g.approvalId).length (db.deciders g.approvalId)
            last).columns = (projected g g.status _ _ last.eventId now).columns :=
          columns_rebuiltRow.2 fun hpending ↦ deciders_eq_nil.2 (hnone _ g hg hpending)
        rw [hlive]
        exact scoped_columns hcols
      · rfl

theorem snapshot_rebuildApprovals_requested :
    snapshot none (rebuildApprovals none Sample.requested.1) = snapshot none Sample.requested.1 :=
  (snapshot_rebuildApprovals_iff Sample.catalog Sample.requested_history).2
    (fun _ _ _ _ ↦ rfl) none none

/-- After the first of two decisions a rebuild forgets the decider. -/
theorem voted_snapshot_ne : ∃ db n,
    approvalDatabase.History (approvalBody Sample.catalog) (fun _ _ _ _ ↦ True) {} 0 db n ∧
      snapshot none (rebuildApprovals none db) ≠ snapshot none db := by
  refine ⟨_, _, Sample.voted_history, fun h ↦ ?_⟩
  have hrow := congrFun h 3
  revert hrow
  decide

end AgentColab.Approvals
