import AgentColab.Brainstorm.Engine
import AgentColab.Work.Inbox
import Mathlib

/-!
# The work of the turn holder

The Agent whose turn it is gets a work item from the transaction that opens, advances or resumes the
session. The key of the item names the session and the number of the turn, so an item that is there
is returned, whatever has become of it. The calls and the sweep of the inbox know nothing of the
session.
-/

namespace AgentColab.Brainstorm

open List Option
open Except (ok)

open Work (ItemRow WorkItemError WorkItemState terminalStates)

/-! ## Delivery -/

/-- What the work items of a session are told about it. -/
structure Subject where
  workspaceId : String
  brainstormId : String
  channelId : String
  topic : String

/-- What a command brings to its transaction. -/
structure Context where
  workItemId : String
  correlationId : String
  actorAccountId : String
  now : Time

/-- `load`: the row and the participants, by seat. -/
def Tables.state (t : Tables) : State :=
  ⟨t.row, t.participants.insertionSort fun a b ↦ a.seat ≤ b.seat⟩

def Tables.holder (t : Tables) : Option String := t.state.nextAgent.bind Participant.agentId

/-- `TURN_RESULT_SCHEMA` -/
def turnResultSchema : String := "colab.work-result.v1"

/-- `DEFAULT_TURN_DEADLINE_S` -/
def defaultTurnDeadline : Time := 600 * 1000000

/-- `remaining_turns` -/
def remainingTurns (s : State) (p : Participant) : ℕ :=
  let perAgent := s.row.limits.turnsPerAgent
  let leftForAgent := if perAgent = 0 then 2 ^ 30 else perAgent - p.turnsTaken
  let total := s.row.limits.totalTurns
  let leftTotal := if total = 0 then 2 ^ 30 else total - s.row.turnNo
  min leftForAgent leftTotal

/-- `turn_payload` -/
def turnPayload (b : Subject) (s : State) (p : Participant) : Json := .obj [
  ("brainstorm_id", .str b.brainstormId), ("topic", .str b.topic), ("channel_id", .str b.channelId),
  ("transcript_ref", .str ("colab://brainstorm/" ++ b.brainstormId ++ "/transcript")),
  ("turn_no", .int (s.row.turnNo + 1)), ("remaining_turns", .int (remainingTurns s p)),
  ("expected_contribution_type", .str "IDEA"),
  ("contribution_types", .arr (contributionTypes.map .str))]

def turnKey (b : Subject) (turnNo : ℕ) : String :=
  b.brainstormId ++ ":turn:" ++ toString turnNo

/-- `enqueue`, in a transaction that sees the items of the session. Its Event is left out. -/
def enqueue (items : List ItemRow) (r : Work.Enqueue) (workItemId : String) (now : Time) :
    Except WorkItemError (ItemRow × List ItemRow) :=
  if r.kind ∉ Work.kinds then .error ⟨"WORK_ITEM_KIND_INVALID", r.kind⟩
  else if decide (r.kind = "brainstorm_turn") ≠ r.brainstormId.isSome then
    .error ⟨"WORK_ITEM_KIND_INVALID", "brainstorm_turn requires brainstorm_id"⟩
  else
    match items.find? (·.idempotencyKey = r.idempotencyKey) with
    | some item =>
      if item.agentId ≠ r.agentId ∨ item.kind ≠ r.kind then
        .error ⟨"IDEMPOTENCY_CONFLICT", "same key with a different work item"⟩
      else .ok (item, items)
    | none =>
      match canonicalJson r.payload with
      | .error _ => .error ⟨"CanonicalizationError", ""⟩
      | .ok bytes =>
        if bytes.length > 1000000 then
          .error ⟨"WORK_ITEM_PAYLOAD_TOO_LARGE", toString bytes.length ++ " bytes > 1 MB"⟩
        else if items.any (·.workItemId = workItemId) then .error ⟨"IntegrityError", workItemId⟩
        else .ok (r.row workItemId now, items ++ [r.row workItemId now])

/-- What `_deliver_next_turn` enqueues for an Agent. -/
def turnItem (b : Subject) (c : Context) (s : State) (p : Participant) (agentId : String) :
    Work.Enqueue where
  workspaceId := b.workspaceId
  kind := "brainstorm_turn"
  agentId := agentId
  payload := turnPayload b s p
  deadline := c.now + defaultTurnDeadline
  expectedResultSchema := turnResultSchema
  correlationId := c.correlationId
  idempotencyKey := turnKey b (s.row.turnNo + 1)
  actorAccountId := c.actorAccountId
  brainstormId := some b.brainstormId

/-- `_deliver_next_turn`: the items afterwards. -/
def deliverNextTurn (b : Subject) (c : Context) (t : Tables) (items : List ItemRow) :
    Except WorkItemError (List ItemRow) :=
  if t.row.status ≠ .opened then .ok items
  else
    match t.state.nextAgent with
    | none => .ok items
    | some p =>
      match p.agentId with
      | none => .ok items
      | some agentId =>
        (enqueue items (turnItem b c t.state p agentId) c.workItemId c.now).map Prod.snd

/-! ## The inbox -/

/-- The columns that a call of the inbox sets. -/
def columnsOf (item : ItemRow) (action : Work.Action) (status : WorkItemState) (now : Time) :
    Work.Columns :=
  match action with
  | .deliver =>
    { status := status, deliveryCount := some (item.deliveryCount + 1), deliveredAt := some now }
  -- `requeue_for_redelivery`
  | .redeliver => { status := .queued }
  | .ack => { status := status, ackedAt := some now }
  | .start => { status := status, acceptedAt := some now }
  | .result | .reject | .expire | .cancel => { status := status, finishedAt := some now }

/-- A call of the inbox moves an item along a transition, or is refused. -/
def moved (action : Work.Action) (now : Time) (item : ItemRow) : ItemRow :=
  match Work.transition item.status action with
  | .ok status => item.set (columnsOf item action status now) now
  | .error _ => item

/-- The sweep looks at the item. -/
def covers (s : Work.Sweep) (item : ItemRow) : Bool :=
  s.workspaceId.all (· = item.workspaceId) && s.agentId.all (· = item.agentId)

/-- What the sweep leaves of an item. -/
def swept (s : Work.Sweep) (now : Time) (item : ItemRow) : ItemRow :=
  if covers s item then
    match s.decision now item with
    | .error _ => item
    | .ok d =>
      match d.action with
      | .redeliver => moved .redeliver now item
      | .expire => moved .expire now item
      | _ => item
  else item

def turnOf (item : ItemRow) : Option ℤ :=
  match item.payload with
  | .obj members =>
    match members.lookup "turn_no" with
    | some (.int n) => some n
    | _ => none
  | _ => none

/-! ## Sessions with their items -/

/-- A session, with the work items that have been made for it. -/
structure Session where
  world : World
  items : List ItemRow

/-- A step of a transaction of the session, or a change in the inbox. -/
inductive SessionLabel where
  | engine (l : Label) (c : Context)
  | inbox (workItemId : String) (action : Work.Action) (now : Time)
  | sweep (s : Work.Sweep) (now : Time)

def Command.delivers : Command → Bool
  | .contribute .. => true
  | .resume .. => true
  | _ => false

/-- The step commits a command that meets the condition. -/
def commits (w : World) (P : Command → Bool) : Label → Bool
  | .commit i => (w.transactions i).any fun x ↦ P x.command
  | _ => false

/-- One step. A delivery that is refused takes its transaction with it. -/
def Session.step (b : Subject) (s : Session) : SessionLabel → Option Session
  | .engine l c =>
    match s.world.step l with
    | none => none
    | some w =>
      if commits s.world Command.delivers l then
        (deliverNextTurn b c w.tables s.items).toOption.map fun items ↦ ⟨w, items⟩
      else some ⟨w, s.items⟩
  | .inbox workItemId action now => some
      { s with
        items := s.items.map fun item ↦
          if item.workItemId = workItemId then moved action now item else item }
  | .sweep sw now => some { s with items := s.items.map (swept sw now) }

/-- `start_brainstorm`, with its delivery. -/
def Session.start (b : Subject) (c : Context) (facilitator : Account) (limits : Limits)
    (participants : List (Account × Role × Option String)) : Except WorkItemError Session :=
  let t := Brainstorm.start facilitator limits participants c.now
  (deliverNextTurn b c t []).map fun items ↦ ⟨⟨t, fun _ ↦ none⟩, items⟩

/-- The states of the runs whose steps all meet a condition. -/
inductive Session.Reachable (b : Subject) (C : Session → SessionLabel → Prop) : Session → Prop
  | start {s : Session} (c : Context) (facilitator : Account) (limits : Limits)
      (participants : List (Account × Role × Option String))
      (h : Session.start b c facilitator limits participants = .ok s) : Reachable b C s
  | step {s s' : Session} (l : SessionLabel) (h : Reachable b C s) (hC : C s l)
      (hstep : s.step b l = some s') : Reachable b C s'

/-! ## What a delivery does -/

theorem turnKey_injective (b : Subject) {m n : ℕ} (h : turnKey b m = turnKey b n) : m = n := by
  have hlist := congrArg String.toList h
  simp only [turnKey, String.toList_append, append_cancel_left_eq] at hlist
  exact toString_nat_injective (String.toList_injective hlist)

variable {items items' : List ItemRow}

theorem enqueue_ok {r : Work.Enqueue} {workItemId : String} {now : Time} {item : ItemRow}
    (h : enqueue items r workItemId now = .ok (item, items')) :
    (items' = items ∧ item ∈ items ∧ item.idempotencyKey = r.idempotencyKey ∧
        item.agentId = r.agentId) ∨
      ((∀ i ∈ items, i.idempotencyKey ≠ r.idempotencyKey) ∧ item = r.row workItemId now ∧
        items' = items ++ [item]) := by
  unfold enqueue at h
  split at h
  · cases h
  split at h
  · cases h
  split at h
  · rename_i found hfind
    split_ifs at h with hconflict
    obtain ⟨rfl, rfl⟩ := Prod.mk.inj (ok.inj h)
    have hkey : found.idempotencyKey = r.idempotencyKey := by simpa using List.find?_some hfind
    refine .inl ⟨rfl, mem_of_find?_eq_some hfind, hkey, ?_⟩
    exact not_not.1 fun hne ↦ hconflict (.inl hne)
  · rename_i hnone
    split at h
    · cases h
    split_ifs at h
    obtain ⟨rfl, rfl⟩ := Prod.mk.inj (ok.inj h)
    exact .inr ⟨fun i hi ↦ by simpa using List.find?_eq_none.1 hnone i hi, rfl, rfl⟩

/-- An item of the session, of a turn that has been taken or is to be taken next. -/
def Shaped (b : Subject) (turnNo : ℕ) (item : ItemRow) : Prop :=
  ∃ m ≤ turnNo + 1, item.idempotencyKey = turnKey b m ∧ turnOf item = some (m : ℤ) ∧
    item.kind = "brainstorm_turn" ∧ item.brainstormId = some b.brainstormId

theorem shaped_turnItem (b : Subject) (c : Context) (s : State) (p : Participant)
    (agentId workItemId : String) (now : Time) :
    Shaped b s.row.turnNo ((turnItem b c s p agentId).row workItemId now) :=
  ⟨s.row.turnNo + 1, le_rfl, rfl, by
    simp [turnOf, turnItem, Work.Enqueue.row, turnPayload, List.lookup_cons], rfl, rfl⟩

/-- A delivery leaves the items as they are, or adds the item of the next turn; the Agent whose turn
it is has an item. -/
theorem deliverNextTurn_ok {b : Subject} {c : Context} {t : Tables}
    (h : deliverNextTurn b c t items = .ok items') :
    (items' = items ∨ ∃ item, items' = items ++ [item] ∧
        (∀ i ∈ items, i.idempotencyKey ≠ item.idempotencyKey) ∧
          Shaped b t.row.turnNo item ∧ item.status = .queued) ∧
      (t.row.status = .opened → ∀ agentId, t.holder = some agentId →
        ∃ item ∈ items', item.idempotencyKey = turnKey b (t.row.turnNo + 1) ∧
          item.agentId = agentId) := by
  unfold deliverNextTurn at h
  split_ifs at h with hstatus
  · obtain rfl := ok.inj h
    exact ⟨.inl rfl, fun hopen ↦ absurd hopen hstatus⟩
  split at h
  · rename_i hnone
    obtain rfl := ok.inj h
    refine ⟨.inl rfl, fun _ agentId hholder ↦ ?_⟩
    rw [Tables.holder, hnone] at hholder
    cases hholder
  rename_i p hnext
  split at h
  · rename_i hnone
    obtain rfl := ok.inj h
    refine ⟨.inl rfl, fun _ agentId hholder ↦ ?_⟩
    rw [Tables.holder, hnext, bind_some, hnone] at hholder
    cases hholder
  rename_i agentId hagent
  obtain ⟨⟨item, items₁⟩, henqueue, hitems⟩ : ∃ x, enqueue items
      (turnItem b c t.state p agentId) c.workItemId c.now = .ok x ∧ x.2 = items' := by
    cases henqueue : enqueue items (turnItem b c t.state p agentId) c.workItemId c.now with
    | error =>
      rw [henqueue] at h
      cases h
    | ok x =>
      rw [henqueue] at h
      exact ⟨x, rfl, ok.inj h⟩
  obtain rfl : items₁ = items' := hitems
  have hholder : t.holder = some agentId := by rw [Tables.holder, hnext, bind_some, hagent]
  rcases enqueue_ok henqueue with ⟨rfl, hmem, hkey, hagentId⟩ | ⟨hnew, rfl, rfl⟩
  · refine ⟨.inl rfl, fun _ a ha ↦ ⟨item, hmem, hkey, ?_⟩⟩
    rw [hholder] at ha
    rw [hagentId, ← some.inj ha]
    rfl
  · refine ⟨.inr ⟨_, rfl, hnew, shaped_turnItem b c t.state p agentId _ _, rfl⟩, fun _ a ha ↦ ?_⟩
    rw [hholder] at ha
    exact ⟨_, mem_append_right _ (mem_singleton_self _), rfl, some.inj ha⟩

end AgentColab.Brainstorm
