import AgentColab.Domain.Clock
import AgentColab.Domain.Text
import Mathlib.Data.List.Nodup
import Mathlib.Order.Nat

/-!
# Break-glass sessions

An activation looks for an active session of the account without a lock and inserts its own at its
commit. A session is ended under the lock of its row: by its owner, who finds it still open, or by a
sweep, which has selected the expired sessions and does not look a second time. The Task of a
session that has been ended is opened in a transaction of its own.

The key of the Event that ends a session is the session's identity, and the actor is its account,
whoever ends it. The lock of the audit chain only orders the ends of transactions and is left out.
-/

namespace AgentColab.BreakGlass

/-! ## Rows -/

inductive EndedReason where
  | terminated
  | expired
deriving DecidableEq

def EndedReason.value : EndedReason → String
  | terminated => "TERMINATED"
  | expired => "EXPIRED"

/-- A row of `breakglass_sessions`. -/
structure SessionRow where
  sessionId : String
  accountId : String
  scope : String
  reason : String
  startedAt : Time
  expiresAt : Time
  endedAt : Option Time
  endedReason : Option EndedReason
  posthocTaskId : Option String
deriving DecidableEq

/-- `BreakGlassSession.active` -/
def SessionRow.active (s : SessionRow) : Bool := s.endedAt.isNone

/-- A session in which the account can act at the time `t`. -/
def SessionRow.ActiveAt (s : SessionRow) (t : Time) : Prop :=
  s.endedAt = none ∧ s.startedAt ≤ t ∧ t < s.expiresAt

instance (s : SessionRow) (t : Time) : Decidable (s.ActiveAt t) := by
  unfold SessionRow.ActiveAt
  infer_instance

/-- The Event `BREAK_GLASS_ENDED`. -/
structure EndedEvent where
  sessionId : String
  endedReason : EndedReason

/-- What the statement of `_end` writes into the row, with the Event that it appends, if any. -/
structure Ending where
  sessionId : String
  endedAt : Time
  endedReason : EndedReason
  events : List EndedEvent

/-- The arguments of `activate`, with the identity that it draws. -/
structure Activation where
  sessionId : String
  accountId : String
  scope : String
  reason : String
  now : Time
  ttl : Time

/-- The row that `activate` inserts. -/
def Activation.row (q : Activation) : SessionRow where
  sessionId := q.sessionId
  accountId := q.accountId
  scope := q.scope
  reason := q.reason
  startedAt := q.now
  expiresAt := q.now + q.ttl
  endedAt := none
  endedReason := none
  posthocTaskId := none

/-- The Task that a transaction has created for a session, and the one that it writes into the
row. -/
structure Opening where
  created : List (String × String)
  posthocTaskId : Option String

/-! ## Transactions -/

/-- An open transaction. `seen` is the number of sessions committed when an activation looked;
nothing depends on it. A sweep has `candidates` yet to end. -/
inductive Transaction where
  | activate (request : Activation) (seen : ℕ)
  | terminate (ending : Ending)
  | sweep (candidates : List String) (ended : List Ending)
  | posthoc (sessionId : String) (opening : Opening)

/-- The committed rows and Events, the Tasks by session, the locks of the rows, and the open
transactions. `todo` are the sessions whose Task a running process has yet to open, `refused` those
over which a sweep has been aborted. -/
structure World where
  sessions : List SessionRow
  events : List EndedEvent
  tasks : List (String × String)
  locks : String → Option ℕ
  transactions : ℕ → Option Transaction
  todo : List String
  refused : List String

namespace World

def set (w : World) (i : ℕ) (x : Option Transaction) : World :=
  { w with transactions := Function.update w.transactions i x }

def close (w : World) (i : ℕ) : World :=
  { w.set i none with locks := fun id ↦ if w.locks id = some i then none else w.locks id }

def lock (w : World) (i : ℕ) (id : String) : World :=
  { w with locks := Function.update w.locks id (some i) }

def Free (w : World) (i : ℕ) (id : String) : Prop := w.locks id = none ∨ w.locks id = some i

instance (w : World) (i : ℕ) (id : String) : Decidable (w.Free i id) := by
  unfold Free
  infer_instance

/-- `_load` -/
def load (w : World) (id : String) : Option SessionRow :=
  w.sessions.find? (·.sessionId = id)

/-- A session that `active_session_for` finds. -/
def ActiveFor (accountId : String) (now : Time) (s : SessionRow) : Prop :=
  s.accountId = accountId ∧ s.endedAt = none ∧ now < s.expiresAt

instance (accountId : String) (now : Time) (s : SessionRow) :
    Decidable (ActiveFor accountId now s) := by
  unfold ActiveFor
  infer_instance

/-- The append of `_end`: an Event with the same body is replayed, and `none` is an
`IDEMPOTENCY_CONFLICT`. -/
def append (w : World) (id : String) (reason : EndedReason) : Option (List EndedEvent) :=
  match w.events.find? (·.sessionId = id) with
  | none => some [⟨id, reason⟩]
  | some e => if e.endedReason = reason then some [] else none

/-- `_end` -/
def ending (w : World) (id : String) (now : Time) (reason : EndedReason) : Option Ending :=
  (w.append id reason).map fun events ↦ ⟨id, now, reason, events⟩

/-- The update of `_end`. -/
def endRow (e : Ending) (s : SessionRow) : SessionRow :=
  if s.sessionId = e.sessionId then
    { s with endedAt := some e.endedAt, endedReason := some e.endedReason }
  else s

/-- `expire_sessions`: the select. -/
def expired (w : World) (now : Time) : List String :=
  (w.sessions.filter fun s ↦ s.endedAt = none ∧ s.expiresAt ≤ now).map SessionRow.sessionId

/-- `_open_posthoc_verification`. `taskId` is none when there is no channel or the Task is refused;
under the key of a Task that exists the command returns that Task; `verified` says whether the
verification of the Task is created as well. -/
def openPosthocVerification (w : World) (id : String) (taskId : Option String) (verified : Bool) :
    Opening :=
  match taskId with
  | none => ⟨[], none⟩
  | some taskId =>
    match w.tasks.lookup id with
    | some prior => ⟨[], if verified then some prior else none⟩
    | none => ⟨[(id, taskId)], if verified then some taskId else none⟩

/-- The update of `open_posthoc`. -/
def postRow (id : String) (o : Opening) (s : SessionRow) : SessionRow :=
  if s.sessionId = id ∧ o.posthocTaskId.isSome then { s with posthocTaskId := o.posthocTaskId }
  else s

/-- What is committed of `_end`: the row, the Event, and the Task that is to be opened. -/
def endOne (w : World) (e : Ending) : World :=
  { w with
    sessions := w.sessions.map (endRow e)
    events := w.events ++ e.events
    todo := w.todo ++ [e.sessionId] }

/-- `open_posthoc`, with the row that it has locked. -/
def openPosthoc (w : World) (s : SessionRow) (taskId : Option String) (verified : Bool) : Opening :=
  if s.active ∨ s.posthocTaskId.isSome then ⟨[], none⟩
  else w.openPosthocVerification s.sessionId taskId verified

end World

/-! ## Steps -/

/-- The statements of the transactions. `lose` is the end of a process that has a Task to open. -/
inductive Label where
  | activate (i : ℕ) (request : Activation)
  | terminate (i : ℕ) (sessionId actor : String) (now : Time)
  | select (i : ℕ) (now : Time)
  | expire (i : ℕ) (sessionId : String) (now : Time)
  | posthoc (i : ℕ) (sessionId : String) (taskId : Option String) (verified : Bool)
  | commit (i : ℕ)
  | stop (i : ℕ)
  | lose (sessionId : String)

open World in
/-- One statement; `none` when the transaction cannot execute it now, or is refused. -/
def World.step (w : World) : Label → Option World
  | .activate i q =>
    match w.transactions i with
    | none =>
      if strip q.scope = "" ∨ strip q.reason = "" then none
      else if w.sessions.any fun s ↦ ActiveFor q.accountId q.now s then none
      else some (w.set i (some (.activate q w.sessions.length)))
    | some _ => none
  | .terminate i id actor now =>
    match w.transactions i, w.load id with
    | none, some s =>
      if w.Free i id ∧ s.active ∧ s.accountId = actor then
        (w.ending id now .terminated).map fun e ↦ (w.lock i id).set i (some (.terminate e))
      else none
    | _, _ => none
  | .select i now =>
    match w.transactions i with
    | none => some (w.set i (some (.sweep (w.expired now) [])))
    | some _ => none
  | .expire i id now =>
    match w.transactions i with
    | some (.sweep candidates ended) =>
      if id ∈ candidates ∧ w.Free i id then
        match w.ending id now .expired with
        | some e =>
          some ((w.lock i id).set i (some (.sweep (candidates.erase id) (ended ++ [e]))))
        -- the conflict ends the transaction of the sweep
        | none => some { w.close i with refused := w.refused ++ [id] }
      else none
    | _ => none
  | .posthoc i id taskId verified =>
    match w.transactions i, w.load id with
    | none, some s =>
      if id ∈ w.todo ∧ w.Free i id then
        some ((w.lock i id).set i (some (.posthoc id (w.openPosthoc s taskId verified))))
      else none
    | _, _ => none
  | .commit i =>
    match w.transactions i with
    | some (.activate q _) =>
      if ∀ s ∈ w.sessions, s.sessionId ≠ q.sessionId then
        some { w.close i with sessions := w.sessions ++ [q.row] }
      else none
    | some (.terminate e) => some ((w.endOne e).close i)
    | some (.sweep [] ended) => some ((ended.foldl endOne w).close i)
    | some (.sweep _ _) => none
    | some (.posthoc id o) => some
        { w.close i with
          sessions := w.sessions.map (postRow id o)
          tasks := w.tasks ++ o.created
          todo := w.todo.erase id }
    | none => none
  | .stop i =>
    match w.transactions i with
    | some (.posthoc id _) => some { w.close i with todo := w.todo.erase id }
    | _ => some (w.close i)
  | .lose id => some { w with todo := w.todo.erase id }

def World.start : World where
  sessions := []
  events := []
  tasks := []
  locks := fun _ ↦ none
  transactions := fun _ ↦ none
  todo := []
  refused := []

inductive Run (C : World → Label → Prop) : World → List Label → World → Prop
  | nil (w : World) : Run C w [] w
  | cons {w w₁ w' : World} {l : Label} {ls : List Label} (hstep : w.step l = some w₁) (hC : C w l)
      (h : Run C w₁ ls w') : Run C w (l :: ls) w'

/-! ## What is promised -/

/-- A sweep that began now would take the session up. -/
def World.TakesUp (w : World) (id : String) : Prop := ∃ now, id ∈ w.expired now

structure Proper (w : World) : Prop where
  /-- No account has two sessions that are active at one time. -/
  single : ∀ s ∈ w.sessions, ∀ s' ∈ w.sessions, s.accountId = s'.accountId →
    ∀ t, s.ActiveAt t → s'.ActiveAt t → s = s'
  /-- A session that has been ended has one Event, with its reason, and no other has any. -/
  events : ∀ s ∈ w.sessions, (w.events.filter (·.sessionId = s.sessionId)).map
    EndedEvent.endedReason = s.endedReason.toList
  ended : ∀ s ∈ w.sessions, s.endedReason.isSome = s.endedAt.isSome
  /-- No sweep has been aborted over a session that has been ended. -/
  sweeps : w.refused = []
  /-- A session that has been ended has its Task, or will be taken up. -/
  followed : ∀ s ∈ w.sessions, s.endedAt ≠ none → s.posthocTaskId = none →
    s.sessionId ∈ w.todo ∨ w.TakesUp s.sessionId
  /-- There is one Task, at most, of a session, and the row names it. -/
  once : (w.tasks.map Prod.fst).Nodup
  opened : ∀ s ∈ w.sessions, ∀ t, s.posthocTaskId = some t → (s.sessionId, t) ∈ w.tasks

/-- What is promised of two states, one after the other: the end of a session is final. -/
def Final (w w' : World) : Prop :=
  ∀ s ∈ w.sessions, s.endedAt ≠ none → ∃ s' ∈ w'.sessions, s'.sessionId = s.sessionId ∧
    s'.endedAt = s.endedAt ∧ s'.endedReason = s.endedReason

/-- The Task of the session has been opened. -/
def World.Followed (w : World) (id : String) : Prop :=
  ∀ s ∈ w.sessions, s.sessionId = id → s.posthocTaskId.isSome

instance (w : World) (id : String) : Decidable (w.Followed id) := by
  unfold World.Followed
  infer_instance

/-- When an activation commits, no session of the account that was committed after its look is
active; a sweep finds the session that it takes up still open; and a transaction that is to open
the Task of a session opens it, unless there is one. -/
def Orderly (w : World) : Label → Prop
  | .expire _ id _ => ∀ s ∈ w.sessions, s.sessionId = id → s.endedAt = none
  | .commit i =>
    match w.transactions i with
    | some (.activate q seen) => ∀ s ∈ w.sessions.drop seen, ¬World.ActiveFor q.accountId q.now s
    | some (.posthoc id o) => o.posthocTaskId = none → w.Followed id
    | _ => True
  | .stop i =>
    match w.transactions i with
    | some (.posthoc id _) => w.Followed id
    | _ => True
  | .lose id => w.Followed id
  | _ => True

instance (w : World) (l : Label) : Decidable (Orderly w l) := by
  unfold Orderly
  split
  · infer_instance
  · split <;> infer_instance
  · split <;> infer_instance
  · infer_instance
  · infer_instance

end AgentColab.BreakGlass
