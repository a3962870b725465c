import AgentColab.Brainstorm.Fairness
import AgentColab.Domain.Computation

/-!
# Commands that are sent again

Each command is run alone, with its idempotency key. The append gives back the Event of the key, but
it comes last: before it a command checks the state that its first run has left. A pause, a resume
and a close find the status that they have set; a contribution breaches a limit, is out of turn, or
computes the number of another turn. A join appends nothing and returns the seat after the highest
one. So no retry returns the earlier result, but for a join of an account that had its seat before.
-/

namespace AgentColab.Brainstorm

open List Option

open Work (ItemRow)

/-- An Event with the idempotency key it was appended under. -/
structure Recorded where
  scope : String
  key : String
  actor : Account
  event : Event
  eventId : String
  aggregateSeq : ℕ

structure Desk where
  tables : Tables
  items : List ItemRow
  recorded : List Recorded

/-- What a run of a command is given: fresh identifiers, the time and the costs so far. -/
structure Arrival where
  eventId : String
  turnId : String
  context : Context
  spent : ℕ

inductive Call where
  | join (caller account : Account) (role : Role) (agentId : Option String)
  | contribute (actor : Account) (contributionType : Option String) (body : String)
  | pause (actor : Account) (reasonCode : String)
  | resume (actor : Account) (limits : List (String × Option ℤ))
  | close (actor : Account)

namespace Call

def caller : Call → Account
  | join caller _ _ _ => caller
  | contribute actor _ _ => actor
  | pause actor _ => actor
  | resume actor _ => actor
  | close actor => actor

/-- `idempotency_scope` -/
def scope : Call → String
  | join .. => "brainstorm:join"
  | contribute .. => "brainstorm:contribute"
  | pause .. => "brainstorm:pause"
  | resume .. => "brainstorm:resume"
  | close .. => "brainstorm:close"

end Call

inductive Data where
  | replayed
  | seat (seat : ℕ) (role : Role)
  | turn (turnId : String) (turnNo : ℕ) (contributionType : String) (nextWorkItemId : Option String)
  | status (status : Status)
  | resumed (limits : Limits) (nextWorkItemId : Option String)

structure Result where
  resourceId : String
  eventId : String
  aggregateSeq : ℕ
  replayed : Bool := false
  data : Data

/-- The later result is the earlier one: it names the same Event and, unless it is marked as a
replay, has the same data. -/
def Result.Repeats (r' r : Result) : Prop :=
  r'.resourceId = r.resourceId ∧ r'.eventId = r.eventId ∧ r'.aggregateSeq = r.aggregateSeq ∧
    (r'.replayed = false → r'.data = r.data)

def Command.event (s : State) : Command → Option Event
  | .contribute actor contributionType body =>
    let isAgent : Bool := ((s.participant actor).map (·.role)) = some .agent
    some (.ideaRecorded actor (recordedType isAgent contributionType) (s.row.turnNo + 1) body)
  | .pause _ reasonCode => some (.paused reasonCode)
  | .pauseOnBreach breach => some (.paused breach.code)
  | .resume _ limits => (parse (limits ++ s.row.limits.asDict)).toOption.map .resumed
  | .close _ => some (.closed s.row.turnNo)
  | .summarize => some .summaryRecorded

/-- `append`: the Event of the key, or a new one; and whether it was there. -/
def Desk.append (d : Desk) (scope key : String) (actor : Account) (event : Event)
    (eventId : String) : Except String (Recorded × Bool) :=
  match d.recorded.find? fun e ↦ e.scope = scope ∧ e.key = key ∧ e.actor = actor with
  | some e => if e.event = event then .ok (e, true) else .error "IDEMPOTENCY_CONFLICT"
  | none => .ok (⟨scope, key, actor, event, eventId, d.tables.stream.length + 1⟩, false)

/-- What `_deliver_next_turn` returns. -/
def nextWorkItemId (b : Subject) (t : Tables) (items : List ItemRow) : Option String :=
  if t.row.status = .opened ∧ t.holder.isSome then
    (items.find? (·.idempotencyKey = turnKey b (t.row.turnNo + 1))).map (·.workItemId)
  else none

def Event.data (b : Subject) (turnId : String) (t : Tables) (items : List ItemRow) : Event → Data
  | .ideaRecorded _ contributionType turnNo _ =>
    .turn turnId turnNo contributionType (nextWorkItemId b t items)
  | .resumed limits => .resumed limits (nextWorkItemId b t items)
  | _ => .status t.row.status

/-- A command whose Event was there: `_pause` sets the status again. -/
def Desk.replay (d : Desk) : Event → Data × Desk
  | .paused reasonCode =>
    (.status .paused, { d with tables := { d.tables with
      row := d.tables.row.setStatus .paused reasonCode } })
  | _ => (.replayed, d)

def Command.delivered (b : Subject) (x : Arrival) (t : Tables) (items : List ItemRow)
    (c : Command) : Except String (List ItemRow) :=
  if c.delivers then (deliverNextTurn b x.context t items).mapError (·.code) else .ok items

/-- A handler: the checks, the append, the writes and the delivery. -/
def execute (b : Subject) (scope key : String) (actor : Account) (x : Arrival) (d : Desk)
    (c : Command) : Except String (Result × Desk) := do
  judge d.tables.state x.spent x.context.now c
  let event ← (c.event d.tables.state).elim (.error "BRAINSTORM_LIMITS_INVALID") .ok
  let (e, found) ← d.append scope key actor event x.eventId
  if found then
    let (data, d') := d.replay event
    return (⟨b.brainstormId, e.eventId, e.aggregateSeq, true, data⟩, d')
  else
    let t ← (d.tables.write d.tables.state c).elim (.error "IntegrityError") .ok
    let items ← c.delivered b x t d.items
    return (⟨b.brainstormId, e.eventId, e.aggregateSeq, false, event.data b x.turnId t items⟩,
      ⟨t, items, d.recorded ++ [e]⟩)

/-- `BreachCode` -/
def breaches : List Breach :=
  [.maxConsecutiveExceeded, .turnsPerAgentExceeded, .totalTurnsExceeded, .budgetExceeded,
    .timeLimitExceeded]

/-- An error leaves the session as it was. -/
def rolledBack (d : Desk) : Except String (Result × Desk) → Except String Result × Desk
  | .ok (r, d') => (.ok r, d')
  | .error code => (.error code, d)

/-- `add_participant`: the session with the account seated. -/
def Desk.seated (d : Desk) (account : Account) (role : Role) (agentId : Option String) : Desk :=
  let ps := d.tables.participants
  let t : Tables := { d.tables with
    participants := addParticipant ps account role agentId (nextSeat ps) }
  { d with tables := t }

/-- **A command**: what it returns and what it leaves. The pause that follows a breach is made in a
transaction of its own. -/
def perform (b : Subject) (key : String) (x : Arrival) (d : Desk) (call : Call) :
    Except String Result × Desk :=
  match call with
  | .join caller account role agentId =>
    if d.tables.row.facilitator ≠ caller then (.error "BRAINSTORM_FACILITATOR_ONLY", d)
    else if d.tables.row.status = .closed then (.error "BRAINSTORM_CLOSED", d)
    else
      (.ok ⟨b.brainstormId, "", 0, false, .seat (nextSeat d.tables.participants) role⟩,
        d.seated account role agentId)
  | .contribute actor contributionType body =>
    match execute b call.scope key actor x d (.contribute actor contributionType body) with
    | .ok (r, d') => (.ok r, d')
    | .error code =>
      match breaches.find? (·.code = code) with
      | none => (.error code, d)
      | some breach =>
        match execute b call.scope (key ++ ":pause") actor x d (.pauseOnBreach breach) with
        | .ok (_, d') => (.error code, d')
        | .error code' => (.error code', d)
  | .pause actor reasonCode =>
    rolledBack d (execute b call.scope key actor x d (.pause actor reasonCode))
  | .resume actor limits => rolledBack d (execute b call.scope key actor x d (.resume actor limits))
  | .close actor => rolledBack d (execute b call.scope key actor x d (.close actor))

/-- The second run returns what the first one returned and leaves session, turns and items as
they were. -/
def RetrySafe (b : Subject) (key : String) (x' : Arrival) (d' : Desk) (call : Call) (r : Result) :
    Prop :=
  ∃ r' d'', perform b key x' d' call = (.ok r', d'') ∧ r'.Repeats r ∧ d''.tables = d'.tables ∧
    d''.items = d'.items

theorem seat_lt_nextSeat {ps : List Participant} {p : Participant} (hp : p ∈ ps) :
    p.seat < nextSeat ps := by
  have hle : ∀ (l : List ℕ) (m : ℕ), m ≤ l.foldl max m ∧ ∀ n ∈ l, n ≤ l.foldl max m := by
    intro l
    induction l with
    | nil => exact fun m ↦ ⟨le_rfl, fun n hn ↦ absurd hn not_mem_nil⟩
    | cons k l ih =>
      intro m
      obtain ⟨hmax, hmem⟩ := ih (max m k)
      refine ⟨(le_max_left m k).trans hmax, fun n hn ↦ ?_⟩
      rcases mem_cons.1 hn with rfl | hn
      · exact (le_max_right m n).trans hmax
      · exact hmem n hn
  exact (hle _ 0).2 (p.seat + 1) (List.mem_map_of_mem hp)

theorem elim_eq_ok {α : Type} {o : Option α} {code : String} {a : α}
    (h : o.elim (.error code : Except String α) .ok = .ok a) : o = some a := by
  cases o with
  | none => cases h
  | some => rw [Except.ok.inj h]

variable {b : Subject} {key : String} {account actor : Account} {x x' : Arrival} {d d' : Desk}
    {c : Command} {y : Result × Desk} {r : Result} {call : Call} {role : Role}
    {agentId : Option String}

theorem execute_judged {scope : String} (h : execute b scope key actor x d c = .ok y) :
    judge d.tables.state x.spent x.context.now c = .ok () := by
  obtain ⟨⟨⟩, hjudge, _⟩ := bind_eq_ok.1 h
  exact hjudge

theorem execute_ok {scope : String}
    (hnew : ∀ e ∈ d.recorded, ¬(e.scope = scope ∧ e.key = key ∧ e.actor = actor))
    (h : execute b scope key actor x d c = .ok (r, d')) :
    d.tables.write d.tables.state c = some d'.tables ∧ ∃ e, d'.recorded = d.recorded ++ [e] ∧
      e.scope = scope ∧ e.key = key ∧ e.actor = actor ∧ c.event d.tables.state = some e.event := by
  have hfind : d.recorded.find? (fun e ↦ e.scope = scope ∧ e.key = key ∧ e.actor = actor) = none :=
    List.find?_eq_none.2 fun e he ↦ by simpa using hnew e he
  obtain ⟨-, -, h⟩ := bind_eq_ok.1 h
  obtain ⟨event, hevent, h⟩ := bind_eq_ok.1 h
  obtain ⟨⟨e, found⟩, happend, h⟩ := bind_eq_ok.1 h
  rw [Desk.append, hfind] at happend
  cases happend
  dsimp only at h
  rw [if_neg Bool.false_ne_true] at h
  obtain ⟨t, hwrite, h⟩ := bind_eq_ok.1 h
  obtain ⟨items, -, h⟩ := bind_eq_ok.1 h
  cases h
  exact ⟨elim_eq_ok hwrite, _, rfl, rfl, rfl, rfl, elim_eq_ok hevent⟩

theorem execute_conflict {scope : String} {rest : List Recorded} {e : Recorded}
    (hnew : ∀ e ∈ rest, ¬(e.scope = scope ∧ e.key = key ∧ e.actor = actor))
    (hd : d.recorded = rest ++ [e]) (he : e.scope = scope ∧ e.key = key ∧ e.actor = actor)
    (hevent : c.event d.tables.state ≠ some e.event) : execute b scope key actor x d c ≠ .ok y := by
  have hfind : d.recorded.find? (fun e ↦ e.scope = scope ∧ e.key = key ∧ e.actor = actor) =
      some e := by
    rw [hd, List.find?_append, List.find?_eq_none.2 fun e he ↦ by simpa using hnew e he]
    simp [he]
  intro h
  obtain ⟨_, _, h⟩ := bind_eq_ok.1 h
  obtain ⟨event, hevent', h⟩ := bind_eq_ok.1 h
  obtain ⟨_, happend, _⟩ := bind_eq_ok.1 h
  rw [Desk.append, hfind] at happend
  dsimp only at happend
  split_ifs at happend with heq
  exact hevent (heq ▸ elim_eq_ok hevent')

theorem eq_ok_of_rolledBack {y : Except String (Result × Desk)} (h : rolledBack d y = (.ok r, d')) :
    y = .ok (r, d') := by
  obtain code | ⟨r', d''⟩ := y <;> cases h
  rfl

/-- **A command that has appended an Event refuses its retry.** -/
theorem retry_refused
    (hnew : ∀ e ∈ d.recorded, ¬(e.scope = call.scope ∧ e.key = key ∧ e.actor = call.caller))
    (hjoin : ∀ caller account role agentId, call ≠ .join caller account role agentId)
    (h : perform b key x d call = (.ok r, d')) (r' : Result) (d'' : Desk) :
    perform b key x' d' call ≠ (.ok r', d'') := by
  intro h'
  cases call with
  | join caller account role agentId => exact hjoin caller account role agentId rfl
  | contribute actor contributionType body =>
    have hrun : ∀ {x : Arrival} {d d' : Desk} {r : Result},
        perform b key x d (.contribute actor contributionType body) = (.ok r, d') →
        execute b (Call.contribute actor contributionType body).scope key actor x d
          (.contribute actor contributionType body) = .ok (r, d') := by
      intro x d d' r h
      rw [perform] at h
      split at h
      next heq =>
        cases h
        exact heq
      next =>
        split at h
        next => cases h
        next => split at h <;> cases h
    obtain ⟨hwrite, e, hd, hscope, hkey, hactor, hevent⟩ := execute_ok hnew (hrun h)
    refine execute_conflict hnew hd ⟨hscope, hkey, hactor⟩ ?_ (hrun h')
    -- The number of the turn is one higher now, so the Event is another one.
    have hturnNo : d'.tables.row.turnNo = d.tables.row.turnNo + 1 := by
      rw [Tables.write] at hwrite
      split at hwrite
      · cases hwrite
      · rw [← some.inj hwrite]
        rfl
    intro heq
    rw [← hevent] at heq
    simp only [Command.event, Tables.state, some.injEq, Event.ideaRecorded.injEq] at heq
    omega
  | pause =>
    obtain ⟨hwrite, -⟩ := execute_ok hnew (eq_ok_of_rolledBack h)
    have hjudge := execute_judged (eq_ok_of_rolledBack h')
    rw [← some.inj hwrite, judge] at hjudge
    split_ifs at hjudge with hfacilitator hstatus
    exact hstatus fun heq ↦ by cases heq
  | resume =>
    obtain ⟨hwrite, -⟩ := execute_ok hnew (eq_ok_of_rolledBack h)
    have hjudge := execute_judged (eq_ok_of_rolledBack h')
    rw [Tables.write] at hwrite
    split at hwrite
    next => cases hwrite
    next =>
      rw [← some.inj hwrite, judge] at hjudge
      split_ifs at hjudge with hfacilitator hstatus
      exact hstatus fun heq ↦ by cases heq
  | close =>
    obtain ⟨hwrite, -⟩ := execute_ok hnew (eq_ok_of_rolledBack h)
    have hjudge := execute_judged (eq_ok_of_rolledBack h')
    rw [← some.inj hwrite, judge] at hjudge
    split_ifs at hjudge with hfacilitator hstatus
    exact hstatus rfl

theorem join_ok {caller : Account}
    (h : perform b key x d (.join caller account role agentId) = (.ok r, d')) :
    d.tables.row.facilitator = caller ∧ d.tables.row.status ≠ .closed ∧
      r = ⟨b.brainstormId, "", 0, false, .seat (nextSeat d.tables.participants) role⟩ ∧
      d' = d.seated account role agentId := by
  rw [perform] at h
  by_cases hfacilitator : d.tables.row.facilitator = caller
  · rw [if_neg (not_not.2 hfacilitator)] at h
    by_cases hclosed : d.tables.row.status = .closed
    · rw [if_pos hclosed] at h
      cases h
    · rw [if_neg hclosed] at h
      cases h
      exact ⟨hfacilitator, hclosed, rfl, rfl⟩
  · rw [if_pos hfacilitator] at h
    cases h

theorem join_safe_iff {caller : Account} (hfacilitator : d.tables.row.facilitator = caller)
    (hclosed : d.tables.row.status ≠ .closed) :
    RetrySafe b key x (d.seated account role agentId) (.join caller account role agentId)
        ⟨b.brainstormId, "", 0, false, .seat (nextSeat d.tables.participants) role⟩ ↔
      ∃ p ∈ d.tables.participants, p.account = account := by
  have hretry : perform b key x (d.seated account role agentId)
      (.join caller account role agentId) = (.ok ⟨b.brainstormId, "", 0, false,
        .seat (nextSeat (d.seated account role agentId).tables.participants) role⟩,
        (d.seated account role agentId).seated account role agentId) := by
    have hrow : (d.seated account role agentId).tables.row = d.tables.row := rfl
    rw [perform, hrow, if_neg (not_not.2 hfacilitator), if_neg hclosed]
  rw [RetrySafe, hretry]
  constructor
  · rintro ⟨r', d'', heq, hrepeats, -, -⟩
    cases heq
    obtain ⟨-, -, -, hdata⟩ := hrepeats
    have hseat : nextSeat (d.seated account role agentId).tables.participants =
        nextSeat d.tables.participants := (Data.seat.inj (hdata rfl)).1
    by_contra hnone
    -- The account has taken the seat after the highest one, so the next seat is a higher one.
    have hadd : (d.seated account role agentId).tables.participants = d.tables.participants ++
        [⟨account, role, agentId, nextSeat d.tables.participants, 0⟩] := by
      rw [Desk.seated, addParticipant, if_neg]
      rw [List.any_eq_true]
      rintro ⟨p, hp, htaken⟩
      obtain hsame | hsame := of_decide_eq_true htaken
      · exact hnone ⟨p, hp, hsame⟩
      · exact (seat_lt_nextSeat hp).ne hsame
    rw [hadd] at hseat
    have hlt : nextSeat d.tables.participants < nextSeat (d.tables.participants ++
        [⟨account, role, agentId, nextSeat d.tables.participants, 0⟩]) :=
      seat_lt_nextSeat (p := ⟨account, role, agentId, nextSeat d.tables.participants, 0⟩) (by simp)
    exact hlt.ne hseat.symm
  · rintro ⟨p, hp, hsame⟩
    have hseated : d.seated account role agentId = d := by
      have hadd : addParticipant d.tables.participants account role agentId
          (nextSeat d.tables.participants) = d.tables.participants := by
        rw [addParticipant, if_pos]
        exact List.any_eq_true.2 ⟨p, hp, decide_eq_true (.inl hsame)⟩
      rw [Desk.seated, hadd]
    rw [hseated, hseated]
    exact ⟨_, _, rfl, ⟨rfl, rfl, rfl, fun _ ↦ rfl⟩, rfl, rfl⟩

/-- **Which commands are retry-safe**: sending a command again returns the earlier result and
changes nothing exactly when it is a join of an account that had its seat before. -/
theorem retry_safe_iff
    (hnew : ∀ e ∈ d.recorded, ¬(e.scope = call.scope ∧ e.key = key ∧ e.actor = call.caller))
    (h : perform b key x d call = (.ok r, d')) :
    RetrySafe b key x' d' call r ↔ ∃ caller account role agentId,
      call = .join caller account role agentId ∧
        ∃ p ∈ d.tables.participants, p.account = account := by
  by_cases hcall : ∃ caller account role agentId, call = .join caller account role agentId
  · obtain ⟨caller, account, role, agentId, rfl⟩ := hcall
    obtain ⟨hfacilitator, hclosed, rfl, rfl⟩ := join_ok h
    rw [join_safe_iff hfacilitator hclosed]
    exact ⟨fun hp ↦ ⟨_, _, _, _, rfl, hp⟩, fun ⟨_, _, _, _, heq, hp⟩ ↦ by cases heq; exact hp⟩
  · refine iff_of_false ?_ ?_
    · rintro ⟨r', d'', h', -⟩
      exact retry_refused hnew (fun caller account role agentId heq ↦
        hcall ⟨caller, account, role, agentId, heq⟩) h r' d'' h'
    · rintro ⟨caller, account, role, agentId, heq, -⟩
      exact hcall ⟨caller, account, role, agentId, heq⟩

namespace Sample

def meeting : Subject := ⟨"w", "b", "c", "topic"⟩

def arrival : Arrival := ⟨"e1", "t1", ⟨"wi1", "co1", "writer", 0⟩, 0⟩

def desk : Desk := ⟨start "facilitator" limits [("writer", .human, none)] 0, [], []⟩

end Sample

open Sample

theorem retry_safe_writer : RetrySafe meeting "k" arrival (desk.seated "writer" .human none)
    (.join "facilitator" "writer" .human none) ⟨"b", "", 0, false, .seat 1 .human⟩ :=
  (retry_safe_iff (x := arrival) (d := desk) (fun _ h ↦ absurd h not_mem_nil) rfl).2
    ⟨_, _, _, _, rfl, _, mem_cons_self, rfl⟩

/-- A pause is refused the second time, and a contribution pauses the session. -/
theorem pause_refused_again :
    (∃ r d', perform meeting "k" arrival desk (.pause "facilitator" "BREAK") = (.ok r, d') ∧
      ¬RetrySafe meeting "k" arrival d' (.pause "facilitator" "BREAK") r) ∧
    ∃ r d' d'', perform meeting "k" arrival desk (.contribute "writer" none "idea") = (.ok r, d') ∧
      perform meeting "k" arrival d' (.contribute "writer" none "idea") =
        (.error "MAX_CONSECUTIVE_EXCEEDED", d'') ∧ d''.tables.row.status = .paused := by
  refine ⟨⟨_, _, rfl, fun ⟨_, _, h, _⟩ ↦ ?_⟩, ⟨_, _, _, rfl, rfl, rfl⟩⟩
  cases h

end AgentColab.Brainstorm
