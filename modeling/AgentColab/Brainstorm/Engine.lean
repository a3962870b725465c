import AgentColab.Brainstorm.Limits
import AgentColab.Domain.Text
import Mathlib.Data.List.Sort

/-!
# A brainstorm session and its transactions

A command reads the row of the session, its participants and the length of the Event stream, and
appends its Event with the next number. The append takes a lock on the stream until the commit, so
from there on the writes of a transaction are one step. What it has read before may be old: the row
has no lock, and only the unique index on the numbers decides between two contributions.
-/

namespace AgentColab.Brainstorm

abbrev Account := String

inductive Status where
  | opened
  | paused
  | closed
deriving DecidableEq

def Status.value : Status → String
  | opened => "OPEN"
  | paused => "PAUSED"
  | closed => "CLOSED"

inductive Role where
  | human
  | agent
deriving DecidableEq

structure Participant where
  account : Account
  role : Role
  agentId : Option String
  seat : ℕ
  turnsTaken : ℕ
deriving DecidableEq

/-- The row of `brainstorms`. -/
structure Row where
  facilitator : Account
  status : Status
  limits : Limits
  turnNo : ℕ
  turnIndex : ℕ
  lastContributor : Option Account
  consecutiveTurns : ℕ
  pausedReason : Option String
  startedAt : Time

/-- A row of `brainstorm_turns`. -/
structure Turn where
  seq : ℕ
  account : Account
  contributionType : String
  body : String

inductive Event where
  | opened (limits : Limits)
  | ideaRecorded (account : Account) (contributionType : String) (turnNo : ℕ) (body : String)
  | paused (reasonCode : String)
  | resumed (limits : Limits)
  | closed (turnCount : ℕ)
  | summaryRecorded
deriving DecidableEq

structure Tables where
  row : Row
  participants : List Participant
  turns : List Turn
  stream : List Event

/-- `BrainstormState`: the row and the participants, by seat. -/
structure State where
  row : Row
  participants : List Participant

namespace State

def agents (s : State) : List Participant := s.participants.filter (·.role = .agent)

def participant (s : State) (account : Account) : Option Participant :=
  s.participants.find? (·.account = account)

/-- `next_agent`: round robin over the seats of the Agents. -/
def nextAgent (s : State) : Option Participant := s.agents[s.row.turnIndex % s.agents.length]?

end State

/-! ## Commands -/

/-- `CONTRIBUTION_TYPES` -/
def contributionTypes : List String := ["IDEA", "CHALLENGE", "QUESTION", "GUIDANCE"]

/-- A command, with the account of its caller. The server pauses after a breach, in a transaction of
its own. -/
inductive Command where
  | contribute (actor : Account) (contributionType : Option String) (body : String)
  | pause (actor : Account) (reasonCode : String)
  | pauseOnBreach (breach : Breach)
  | resume (actor : Account) (limits : List (String × Option ℤ))
  | close (actor : Account)
  | summarize

/-- The type that is recorded: a human's plain utterance is an idea. -/
def recordedType (isAgent : Bool) (contributionType : Option String) : String :=
  match contributionType with
  | some name => if name = "" then (if isAgent then "" else "IDEA") else name.toUpper
  | none => if isAgent then "" else "IDEA"

def turnState (s : State) (p : Participant) (actor : Account) (spent : ℕ) (now : Time) :
    TurnState where
  totalTurns := s.row.turnNo
  contributorTurns := p.turnsTaken
  consecutiveTurns := s.row.consecutiveTurns
  isLastContributor := s.row.lastContributor = some actor
  spentCostUnits := spent
  startedAt := s.row.startedAt
  now := now

/-- What `contribute_turn` refuses, up to its append. -/
def judgeContribution (s : State) (actor : Account) (contributionType : Option String)
    (body : String) (spent : ℕ) (now : Time) : Except String Participant :=
  if s.row.status ≠ .opened then .error "BRAINSTORM_NOT_OPEN"
  else if strip body = "" then .error "BRAINSTORM_BODY_REQUIRED"
  else
    match s.participant actor with
    | none => .error "BRAINSTORM_NOT_A_PARTICIPANT"
    | some p =>
      let isAgent : Bool := p.role = .agent
      if isAgent = true ∧ contributionType.getD "" = "" then
        .error "BRAINSTORM_CONTRIBUTION_TYPE_REQUIRED"
      else if recordedType isAgent contributionType ∉ contributionTypes then
        .error "BRAINSTORM_CONTRIBUTION_TYPE_INVALID"
      else
        match check s.row.limits (turnState s p actor spent now) isAgent with
        | some breach => .error breach.code
        | none =>
          match s.nextAgent with
          | none => .ok p
          | some expected =>
            if isAgent = true ∧ expected.account ≠ actor then .error "BRAINSTORM_NOT_YOUR_TURN"
            else .ok p

/-- What a command refuses before it appends. -/
def judge (s : State) (spent : ℕ) (now : Time) : Command → Except String Unit
  | .contribute actor contributionType body =>
    (judgeContribution s actor contributionType body spent now).map fun _ ↦ ()
  | .pause actor _ =>
    if s.row.facilitator ≠ actor then .error "BRAINSTORM_FACILITATOR_ONLY"
    else if s.row.status ≠ .opened then .error "BRAINSTORM_NOT_OPEN"
    else .ok ()
  | .pauseOnBreach _ => if s.row.status ≠ .opened then .error "BRAINSTORM_NOT_OPEN" else .ok ()
  | .resume actor limits =>
    if s.row.facilitator ≠ actor then .error "BRAINSTORM_FACILITATOR_ONLY"
    else if s.row.status ≠ .paused then .error "BRAINSTORM_NOT_PAUSED"
    else (parse (limits ++ s.row.limits.asDict)).map fun _ ↦ ()
  | .close actor =>
    if s.row.facilitator ≠ actor then .error "BRAINSTORM_FACILITATOR_ONLY"
    else if s.row.status = .closed then .error "BRAINSTORM_CLOSED"
    else .ok ()
  | .summarize => .ok ()

/-! ## Writes -/

/-- `advance`: the number of turns is counted in the row, the other values are computed from what
was read. -/
def Row.advance (row : Row) (s : State) (contributor : Account) (isAgent : Bool) : Row :=
  { row with
    turnNo := row.turnNo + 1
    turnIndex := if isAgent then s.row.turnIndex + 1 else s.row.turnIndex
    lastContributor := some contributor
    consecutiveTurns :=
      if s.row.lastContributor = some contributor then s.row.consecutiveTurns + 1 else 1 }

/-- `set_status` -/
def Row.setStatus (row : Row) (status : Status) (reason : Option String) : Row :=
  { row with status := status, pausedReason := reason }

/-- `UPDATE brainstorm_participants SET turns_taken = turns_taken + 1` -/
def countTurn (participants : List Participant) (account : Account) : List Participant :=
  participants.map fun p ↦
    if p.account = account then { p with turnsTaken := p.turnsTaken + 1 } else p

/-- The Event of a command and what it writes; `none` when the unique index of the turns refuses
the number that was read. -/
def Tables.write (t : Tables) (s : State) : Command → Option Tables
  | .contribute actor contributionType body =>
    let isAgent : Bool := ((s.participant actor).map (·.role)) = some .agent
    let type := recordedType isAgent contributionType
    if t.turns.any (·.seq = s.row.turnNo + 1) then none
    else some
      { row := t.row.advance s actor isAgent
        participants := countTurn t.participants actor
        turns := t.turns ++ [⟨s.row.turnNo + 1, actor, type, body⟩]
        stream := t.stream ++ [.ideaRecorded actor type (s.row.turnNo + 1) body] }
  | .pause _ reasonCode => some
      { t with
        row := t.row.setStatus .paused reasonCode
        stream := t.stream ++ [.paused reasonCode] }
  | .pauseOnBreach breach => some
      { t with
        row := t.row.setStatus .paused breach.code
        stream := t.stream ++ [.paused breach.code] }
  | .resume _ limits =>
    match parse (limits ++ s.row.limits.asDict) with
    | .error _ => none
    | .ok limits => some
        { t with
          row := { t.row with limits := limits, consecutiveTurns := 0 }.setStatus .opened none
          stream := t.stream ++ [.resumed limits] }
  | .close _ => some
      { t with
        row := t.row.setStatus .closed none
        stream := t.stream ++ [.closed s.row.turnNo] }
  | .summarize => some { t with stream := t.stream ++ [.summaryRecorded] }

/-- `add_participant`, given the seat that was read: nothing is inserted when the account or the
seat is taken. -/
def addParticipant (participants : List Participant) (account : Account) (role : Role)
    (agentId : Option String) (seat : ℕ) : List Participant :=
  if participants.any fun p ↦ p.account = account ∨ p.seat = seat then participants
  else participants ++ [⟨account, role, agentId, seat, 0⟩]

/-- `start_brainstorm`: the session is opened and its participants are seated in order. -/
def start (facilitator : Account) (limits : Limits)
    (participants : List (Account × Role × Option String)) (now : Time) : Tables where
  row := ⟨facilitator, .opened, limits, 0, 0, none, 0, none, now⟩
  participants := participants.foldl
    (fun ps p ↦ addParticipant ps p.1 p.2.1 p.2.2 ((ps.map fun q ↦ q.seat + 1).foldl max 0)) []
  turns := []
  stream := [.opened limits]

/-! ## Interleaved transactions -/

/-- A transaction and what it has read so far. -/
structure Transaction where
  command : Command
  row : Option Row := none
  participants : Option (List Participant) := none
  streamLength : Option ℕ := none

structure World where
  tables : Tables
  transactions : ℕ → Option Transaction

/-- The steps of a transaction, each at any time. `readStream` is the judgement together with the
read of the stream, and `commit` is everything from the append on. `stop` is a refusal, a conflict
or a rollback. A join reads the highest seat and inserts. -/
inductive Label where
  | begin (i : ℕ) (command : Command)
  | loadRow (i : ℕ)
  | loadParticipants (i : ℕ)
  | readStream (i : ℕ) (spent : ℕ) (now : Time)
  | commit (i : ℕ)
  | stop (i : ℕ)
  | join (account : Account) (role : Role) (agentId : Option String) (seat : ℕ)

def World.set (w : World) (i : ℕ) (x : Option Transaction) : World :=
  { w with transactions := fun j ↦ if j = i then x else w.transactions j }

/-- One step; `none` when the transaction cannot take it. -/
def World.step (w : World) : Label → Option World
  | .begin i command =>
    match w.transactions i with
    | none => some (w.set i (some { command := command }))
    | some _ => none
  | .loadRow i =>
    match w.transactions i with
    | some ⟨command, none, none, none⟩ => some (w.set i (some ⟨command, some w.tables.row, none, none⟩))
    | _ => none
  | .loadParticipants i =>
    match w.transactions i with
    | some ⟨command, some row, none, none⟩ =>
      let participants := w.tables.participants.insertionSort fun a b ↦ a.seat ≤ b.seat
      some (w.set i (some ⟨command, some row, some participants, none⟩))
    | _ => none
  | .readStream i spent now =>
    match w.transactions i with
    | some ⟨command, some row, some participants, none⟩ =>
      match judge ⟨row, participants⟩ spent now command with
      | .error _ => none
      | .ok _ =>
        some (w.set i (some ⟨command, some row, some participants, some w.tables.stream.length⟩))
    | _ => none
  | .commit i =>
    match w.transactions i with
    | some ⟨command, some row, some participants, some streamLength⟩ =>
      -- `expected_seq` is compared under the lock
      if streamLength ≠ w.tables.stream.length then none
      else
        (w.tables.write ⟨row, participants⟩ command).map fun t ↦
          { w.set i none with tables := t }
    | _ => none
  | .stop i => some (w.set i none)
  | .join account role agentId seat =>
    some { w with tables := { w.tables with
      participants := addParticipant w.tables.participants account role agentId seat } }

/-- The states that a session reaches from its start. -/
inductive Reachable : World → Prop
  | start (facilitator : Account) (limits : Limits)
      (participants : List (Account × Role × Option String)) (now : Time) :
      Reachable ⟨start facilitator limits participants now, fun _ ↦ none⟩
  | step {w w' : World} (l : Label) (h : Reachable w) (hstep : w.step l = some w') : Reachable w'

end AgentColab.Brainstorm
