import AgentColab.Events.Recorded
import AgentColab.Transaction.Serial

/-!
# The two Event stores

The store in memory looks for the idempotency key, then at `expected_seq`, then for the cause among
all its Events. PostgreSQL looks for the key, then checks actor, channel, task and cause with their
workspaces, and only then `expected_seq`; it also encrypts and checks the contract.
-/

namespace AgentColab

open Transaction Database List Option

/-! ## The store in memory -/

/-- A key of `_idem`. -/
abbrev IdemText := String × String × String × String

/-- `InMemoryEventStore`. The `recorded_seq` of an Event is its position. -/
structure InMemoryEventStore where
  events : List Event := []
  idem : List (IdemText × String × String) := []

/-- The key of `_idem`. -/
def AppendRequest.idemText (r : AppendRequest) : IdemText :=
  (r.workspaceId, r.actorAccountId, r.idempotencyScope, r.idempotencyKey)

def Event.isOf (ws aggType aggId : String) (e : Event) : Bool :=
  e.workspaceId = ws ∧ e.aggregateType = aggType ∧ e.aggregateId = aggId

/-- `_last` -/
def lastOf (events : List Event) (ws aggType aggId : String) : Option Event :=
  events.reverse.find? (Event.isOf ws aggType aggId)

/-- What `append` reads of the last Event of the aggregate. -/
def InMemoryEventStore.link (m : InMemoryEventStore) (r : AppendRequest) : Option (ℕ × String) :=
  (lastOf m.events r.workspaceId r.aggregateType r.aggregateId).map fun e ↦
    (e.aggregateSeq, e.contentHash)

/-- What `append` says about a number that is not the next one. -/
def sequenceConflict (r : AppendRequest) (last : Option (ℕ × String)) : AppendError :=
  .store ⟨.sequenceConflict, s!"expected {r.expectedSeq.getD 0}, next is {nextSeq last}"⟩

/-- `expected_seq` is another number than the next one. -/
def AppendRequest.misfits (r : AppendRequest) (last : Option (ℕ × String)) : Bool :=
  r.expectedSeq.any fun expected : ℤ ↦ expected ≠ (nextSeq last : ℤ)

/-- `InMemoryEventStore.append`. -/
def InMemoryEventStore.append (sha256 : Digest) (eventId : Uuid) (now : Time) (r : AppendRequest)
    (m : InMemoryEventStore) : Except AppendError (AppendResult × InMemoryEventStore) := do
  let bodyHash ← (r.requestBodyHash sha256).mapError .canonicalization
  match m.idem.lookup r.idemText with
  | some (priorHash, priorId) =>
    if priorHash ≠ bodyHash then
      .error (.store ⟨.idempotencyConflict, "same idempotency key with a different body"⟩)
    else
      -- Every identifier in `_idem` is one of an Event.
      match m.events.find? (·.eventId = priorId) with
      | none => .error .valueError
      | some prior => .ok (⟨prior.eventId, prior.aggregateSeq, prior.contentHash,
          m.events.findIdx (·.eventId = priorId) + 1, true⟩, m)
  | none =>
    let last := m.link r
    if r.misfits last then .error (sequenceConflict r last)
    else if r.causedBy.any fun cause ↦ !m.events.any (·.eventId = cause) then
      .error (.store ⟨.causedByUnknown, r.causedBy.getD ""⟩)
    else
      let draft := draftEvent r eventId last (none, none) now
      let contentHash ← (computeContentHash sha256 draft).mapError .canonicalization
      let event := draft.withHash contentHash
      return (⟨event.eventId, event.aggregateSeq, contentHash, m.events.length + 1, false⟩,
        ⟨m.events ++ [event], m.idem ++ [(r.idemText, bodyHash, event.eventId)]⟩)

/-! ## Both stores -/

/-- The two stores, and the next statement of PostgreSQL. -/
structure Stores where
  db : EventTables
  n : ℕ
  memory : InMemoryEventStore

/-- A request, and what the stores are given while they serve it. -/
structure Appending where
  r : AppendRequest
  inp : ℕ → EventInput
  now : Time

/-- The statement after the checks that start at another one. -/
def checkedAt (n : ℕ) (r : AppendRequest) : ℕ :=
  n + 1 + r.channelId.toList.length + r.taskId.toList.length + r.causedBy.toList.length

/-- The statement that draws the identifier of the Event: after the lock, the key, the checks, the
head of the aggregate and the encryption. -/
def idStatement (n : ℕ) (r : AppendRequest) : ℕ :=
  checkedAt (n + 2) r + 1 + r.sensitive.toList.length

/-- The key of a request whose identifiers have been read. -/
def AppendRequest.key (r : AppendRequest) (ws actor : Uuid) : IdemKey :=
  ⟨ws, actor, r.idempotencyScope, r.idempotencyKey⟩

namespace Stores

variable (cfg : EventConfig) (s : Stores) (x : Appending)

/-- The identifier of the Event, which both stores draw. -/
def drawn : Uuid := (x.inp (idStatement s.n x.r)).uuid

def postgres : Except AppendError AppendResult × EventTables × ℕ :=
  eventDatabase.serial x.inp s.n s.db (append cfg x.r)

def inMemory : Except AppendError (AppendResult × InMemoryEventStore) :=
  s.memory.append cfg.sha256 (s.drawn x) x.now x.r

/-- The stores after a request; one that is refused is rolled back. -/
def step : Stores where
  db := (eventDatabase.transact x.inp s.n s.db (append cfg x.r)).1
  n := (eventDatabase.transact x.inp s.n s.db (append cfg x.r)).2
  memory := ((s.inMemory cfg x).toOption.map Prod.snd).getD s.memory

end Stores

/-- The same outcome: the same Event, accepted or replayed, or the same error. -/
def Agree : Except AppendError AppendResult → Except AppendError AppendResult → Prop
  | .ok r, .ok r' =>
    r.eventId = r'.eventId ∧ r.aggregateSeq = r'.aggregateSeq ∧ r.replayed = r'.replayed
  | .error e, .error e' => e = e'
  | _, _ => False

/-- What `append` reads of the latest row of an aggregate. -/
def headOf (rows : List EventRow) (a : Aggregate) : Option (ℕ × String) :=
  (latest (rows.filter (·.aggregate = a))).map fun r ↦ (r.aggregateSeq, r.contentHash)

def Stores.head (s : Stores) (ws : Uuid) (r : AppendRequest) : Option (ℕ × String) :=
  headOf s.db.events ⟨ws, r.aggregateType, r.aggregateId⟩

/-- The sensitive part of a request, encrypted. -/
def Stores.encrypted (cfg : EventConfig) (s : Stores) (x : Appending) :
    Except AppendError (Option (List UInt8) × Option String) × EventTables × ℕ :=
  eventDatabase.serial x.inp (checkedAt (s.n + 2) x.r + 1) s.db (encryptSensitive cfg x.r)

def Stores.draft (s : Stores) (x : Appending) (ws : Uuid)
    (sealed : Option (List UInt8) × Option String) : Event :=
  draftEvent x.r (s.drawn x) (s.head ws x.r) sealed (x.inp (idStatement s.n x.r + 1)).now

def IdemKey.text (k : IdemKey) : IdemText :=
  (k.workspaceId.text, k.actorAccountId.text, k.scope, k.key)

/-- A row and an Event are one new Event: each store links it to the hash that it has for the Event
before it. -/
structure Twin (rows : List EventRow) (events : List Event) (row : EventRow) (event : Event) :
    Prop where
  eventId : row.eventId = event.eventId
  fresh : ∀ r ∈ rows, r.eventId ≠ row.eventId
  key : ∀ r ∈ rows, r.idemKey ≠ row.idemKey
  aggregate : event.workspaceId = row.workspaceId.text ∧
    event.aggregateType = row.aggregateType ∧ event.aggregateId = row.aggregateId
  next : row.aggregateSeq = nextSeq (headOf rows row.aggregate)
  seq : event.aggregateSeq = row.aggregateSeq
  previous : row.previousHash = (headOf rows row.aggregate).map Prod.snd ∧
    event.previousHash = (lastOf events event.workspaceId event.aggregateType
      event.aggregateId).map Event.contentHash

/-- **The Events of the two stores are the same ones**, in the same order. -/
inductive Twins : List EventRow → List Event → List (IdemText × String × String) → Prop
  | nil : Twins [] [] []
  | snoc {rows : List EventRow} {events : List Event} {idem : List (IdemText × String × String)}
    {row : EventRow} {event : Event} (h : Twins rows events idem)
    (p : Twin rows events row event) : Twins (rows ++ [row]) (events ++ [event])
      (idem ++ [(row.idemKey.text, row.requestBodyHash, row.eventId)])

theorem eq_of_text {u v : Uuid} (h : u.text = v.text) : u = v := by
  cases u
  cases v
  cases h
  rfl

namespace Twins

variable {rows : List EventRow} {events : List Event}
  {idem : List (IdemText × String × String)}

theorem latest_append (l : List EventRow) (r : EventRow) : latest (l ++ [r]) = match latest l with
      | none => some r
      | some b => if b.aggregateSeq < r.aggregateSeq then some r else some b := by
  rw [latest, foldl_append]
  rfl

variable {a : Aggregate} {row : EventRow}

theorem latest_snoc (ha : row.aggregate = a)
    (hseq : row.aggregateSeq = nextSeq (headOf rows row.aggregate)) :
    latest ((rows ++ [row]).filter (·.aggregate = a)) = some row := by
  rw [filter_append, filter_singleton, decide_eq_true ha, cond_true, latest_append]
  rw [ha, headOf] at hseq
  split
  next => rfl
  next b hb =>
    rw [hb, map_some, nextSeq] at hseq
    rw [if_pos (by omega)]

theorem latest_other (ha : row.aggregate ≠ a) :
    (rows ++ [row]).filter (·.aggregate = a) = rows.filter (·.aggregate = a) := by
  rw [filter_append, filter_singleton, decide_eq_false ha, cond_false, append_nil]

theorem lt_nextSeq (h : Twins rows events idem) (a : Aggregate) {r : EventRow} (hr : r ∈ rows)
    (ha : r.aggregate = a) : r.aggregateSeq < nextSeq (headOf rows a) := by
  induction h with
  | nil => cases hr
  | @snoc rows _ _ row _ h p ih =>
    by_cases hrow : row.aggregate = a
    · have hhead : headOf (rows ++ [row]) a = some (row.aggregateSeq, row.contentHash) := by
        rw [headOf, latest_snoc hrow p.next, map_some]
      rw [hhead]
      obtain hr | hr := mem_append.1 hr
      · have hlt : r.aggregateSeq < row.aggregateSeq := by
          rw [p.next, hrow]
          exact ih hr
        exact hlt.trans (Nat.lt_succ_self _)
      · rw [mem_singleton.1 hr]
        exact Nat.lt_succ_self _
    · rw [headOf, latest_other hrow]
      obtain hr | hr := mem_append.1 hr
      · exact ih hr
      · exact absurd (mem_singleton.1 hr ▸ ha) hrow

theorem head (h : Twins rows events idem) (ws : Uuid) (aggType aggId : String) :
    (headOf rows ⟨ws, aggType, aggId⟩).map Prod.fst =
      (lastOf events ws.text aggType aggId).map Event.aggregateSeq := by
  induction h with
  | nil => rfl
  | @snoc _ _ _ row event h p ih =>
    obtain ⟨hws, htype, haggId⟩ := p.aggregate
    rw [lastOf, reverse_append, reverse_singleton, singleton_append, List.find?_cons]
    by_cases hrow : row.aggregate = ⟨ws, aggType, aggId⟩
    · have hof : event.isOf ws.text aggType aggId = true := by
        rw [EventRow.aggregate, Aggregate.mk.injEq] at hrow
        obtain ⟨rfl, rfl, rfl⟩ := hrow
        simp [Event.isOf, hws, htype, haggId]
      rw [hof, headOf, latest_snoc hrow p.next]
      simp [p.seq]
    · have hof : event.isOf ws.text aggType aggId = false := by
        refine decide_eq_false fun ⟨hws', htype', haggId'⟩ ↦ hrow ?_
        rw [EventRow.aggregate, ← htype, ← haggId, htype', haggId',
          show row.workspaceId = ws from eq_of_text (hws.symm.trans hws')]
      rw [hof, headOf, latest_other hrow]
      exact ih

theorem find_key (h : Twins rows events idem) (k : IdemKey) : idem.lookup k.text =
      (rows.find? (·.idemKey = k)).map fun row ↦ (row.requestBodyHash, row.eventId) := by
  induction h with
  | nil => rfl
  | @snoc rows _ _ row _ h p ih =>
    rw [lookup_append, ih, List.find?_append]
    cases rows.find? (·.idemKey = k) with
    | some => rfl
    | none =>
      by_cases hk : row.idemKey = k
      · subst hk
        simp
      · have hne : (k.text == row.idemKey.text) = false := by
          refine beq_false_of_ne fun heq ↦ hk ?_
          simp only [IdemKey.text, Prod.mk.injEq] at heq
          obtain ⟨hws, hactor, hscope, hkey'⟩ := heq
          rcases k with ⟨ws, actor, scope, key⟩
          rw [EventRow.idemKey, IdemKey.mk.injEq]
          exact ⟨(eq_of_text hws).symm, (eq_of_text hactor).symm, hscope.symm, hkey'.symm⟩
        simp [hk, lookup_cons, hne]

theorem find_event (h : Twins rows events idem) (e : String) :
    (events.find? (·.eventId = e)).map Event.aggregateSeq =
      (rows.find? (·.eventId = e)).map EventRow.aggregateSeq := by
  induction h with
  | nil => rfl
  | @snoc rows _ _ row _ h p ih =>
    rw [List.find?_append, List.find?_append]
    cases hrows : rows.find? (·.eventId = e) with
    | some =>
      rw [hrows] at ih
      obtain ⟨event', hevent', hsame⟩ := map_eq_some_iff.1 ih
      simp [hevent', hsame]
    | none =>
      rw [hrows] at ih
      rw [map_eq_none_iff.1 ih]
      by_cases he : row.eventId = e
      · simp [he, ← p.eventId, p.seq]
      · simp [he, ← p.eventId]

theorem find_self (h : Twins rows events idem) (hrow : row ∈ rows) :
    rows.find? (·.eventId = row.eventId) = some row := by
  induction h with
  | nil => cases hrow
  | @snoc _ _ _ _ _ h p ih =>
    rw [List.find?_append]
    obtain hrow | hrow := mem_append.1 hrow
    · rw [ih hrow, some_or]
    · rw [mem_singleton.1 hrow, List.find?_eq_none.2 fun r hr ↦ by simpa using p.fresh r hr]
      simp

theorem any_event (h : Twins rows events idem) (e : String) :
    events.any (·.eventId = e) = (rows.find? (·.eventId = e)).isSome := by
  rw [← isSome_find?, ← isSome_map, h.find_event, isSome_map]

end Twins

/-! ## Requests on which the stores agree -/

/-- PostgreSQL accepts the Event: it can encrypt, the contract admits the Event, the payload can be
stored, and the identifiers are new. -/
structure Acceptable (cfg : EventConfig) (s : Stores) (x : Appending) (ws : Uuid) : Prop where
  encryption : x.r.sensitive ≠ none → cfg.crypto = true ∧
    s.db.sensitiveKeys.lookup ("dek://" ++ x.r.workspaceId ++ "/" ++ x.r.aggregateType ++
      "/" ++ x.r.aggregateId) ≠ some .destroyed
  contract : ∀ sealed hash, (s.encrypted cfg x).1 = .ok sealed →
    computeContentHash cfg.sha256 (s.draft x ws sealed) = .ok hash →
      cfg.registry.validateContract ((s.draft x ws sealed).withHash hash) = .ok ()
  storable : x.r.payload.json.stored.storable = true
  eventId : ∀ row ∈ s.db.events,
    row.eventId ≠ (draftEvent x.r (s.drawn x) none (none, none) 0).eventId
  id : ∀ row ∈ s.db.events, row.id ≠ (x.inp (idStatement s.n x.r + 2)).uuid

structure Known (cfg : EventConfig) (s : Stores) (x : Appending) (ws actor : Uuid) : Prop where
  account : s.db.accounts.lookup actor = some ws
  channel : ∀ c, x.r.channelId = some c →
    ∃ u, parseUuid c = some u ∧ s.db.channels.lookup u = some ws
  task : ∀ t w, x.r.taskId = some t → s.db.tasksProjection.lookup t = some w → w = ws
  cause : ∀ c row, x.r.causedBy = some c → s.db.events.find? (·.eventId = c) = some row →
    row.workspaceId = ws
  fits : ∀ c, x.r.causedBy = some c → s.db.events.find? (·.eventId = c) = none →
    x.r.misfits (s.head ws x.r) = false
  acceptable : (∀ c, x.r.causedBy = some c → s.db.events.any (·.eventId = c)) →
    x.r.misfits (s.head ws x.r) = false → Acceptable cfg s x ws

/-- Its identifiers are canonical, and under a new key it keeps to what both stores know. -/
def Fits (cfg : EventConfig) (s : Stores) (x : Appending) : Prop :=
  ∃ ws actor, parseUuid x.r.workspaceId = some ws ∧ ws.text = x.r.workspaceId ∧
    parseUuid x.r.actorAccountId = some actor ∧ actor.text = x.r.actorAccountId ∧
    (s.db.findIdempotent (x.r.key ws actor) = none → Known cfg s x ws actor)

/-! ## PostgreSQL, run alone -/

section Postgres

variable {inp : ℕ → EventInput} {n : ℕ} {db : EventTables} {ws actor : Uuid} {r : AppendRequest}

theorem serial_uuidArg {text : String} {u : Uuid} (h : parseUuid text = some u) :
    eventDatabase.serial inp n db (uuidArg text) = (.ok u, db, n) := by
  rw [uuidArg, h]
  rfl

theorem serial_findIdempotent (hws : parseUuid r.workspaceId = some ws)
    (hactor : parseUuid r.actorAccountId = some actor) :
    eventDatabase.serial inp n db (findIdempotent r) =
      (.ok (db.findIdempotent (r.key ws actor)), db, n + 1) := by
  rw [findIdempotent, serial_do (serial_uuidArg hws), serial_do (serial_uuidArg hactor)]
  rfl

theorem serial_checkActor {text : String} (h : db.accounts.lookup actor = some ws) :
    eventDatabase.serial inp n db (checkActor ws actor text) = (.ok (), db, n + 1) := by
  have hquery : eventDatabase.serial inp n db (query (.accountWorkspace actor)) =
      (.ok (some ws), db, n + 1) := by
    rw [← h]
    rfl
  rw [checkActor, serial_do hquery]
  simp only [sameWorkspace, ne_eq, not_true_eq_false, if_false]
  rfl

variable {channel : Option String}

theorem serial_checkChannel
    (h : ∀ c, channel = some c → ∃ u, parseUuid c = some u ∧ db.channels.lookup u = some ws) :
    eventDatabase.serial inp n db (checkChannel ws channel) =
      (.ok (), db, n + channel.toList.length) := by
  cases channel with
  | none => rfl
  | some c =>
    obtain ⟨u, hu, hlookup⟩ := h c rfl
    have hquery : eventDatabase.serial inp n db (query (.channelWorkspace u)) =
        (.ok (some ws), db, n + 1) := by
      rw [← hlookup]
      rfl
    rw [checkChannel, serial_do (serial_uuidArg hu), serial_do hquery]
    simp only [sameWorkspace, ne_eq, not_true_eq_false, if_false]
    rfl

theorem serial_checkTask {task : Option String}
    (h : ∀ t w, task = some t → db.tasksProjection.lookup t = some w → w = ws) :
    eventDatabase.serial inp n db (checkTask ws task) = (.ok (), db, n + task.toList.length) := by
  cases task with
  | none => rfl
  | some t =>
    have hquery : eventDatabase.serial inp n db (query (.taskWorkspace t)) =
        (.ok (db.tasksProjection.lookup t), db, n + 1) := rfl
    rw [checkTask, serial_do hquery]
    cases hlookup : db.tasksProjection.lookup t with
    | none => rfl
    | some w =>
      rw [h t w rfl hlookup]
      simp only [sameWorkspace, ne_eq, not_true_eq_false, if_false]
      rfl

theorem serial_checkCause {cause : Option String} (h : ∀ c row, cause = some c →
    db.events.find? (·.eventId = c) = some row → row.workspaceId = ws) :
    eventDatabase.serial inp n db (checkCause ws cause) =
      (if cause.any fun c ↦ (db.events.find? (·.eventId = c)).isNone then
        .error (.store ⟨.causedByUnknown, cause.getD ""⟩) else .ok (),
        db, n + cause.toList.length) := by
  cases cause with
  | none => rfl
  | some c =>
    have hquery : eventDatabase.serial inp n db (query (.eventWorkspace c)) =
        (.ok ((db.events.find? (·.eventId = c)).map (·.workspaceId)), db, n + 1) := rfl
    rw [checkCause, serial_do hquery]
    cases hfind : db.events.find? (·.eventId = c) with
    | none => simp [hfind, Option.any]; rfl
    | some row =>
      rw [map_some, h c row rfl hfind]
      simp [hfind, Option.any, sameWorkspace]
      rfl

theorem serial_channelArg (h : ∀ c, channel = some c → ∃ u, parseUuid c = some u) :
    eventDatabase.serial inp n db (channelArg channel) = (.ok (channel.bind parseUuid), db, n) := by
  cases channel with
  | none => rfl
  | some c =>
    obtain ⟨u, hu⟩ := h c rfl
    rw [bind_some, hu]
    exact serial_do (serial_uuidArg hu)

variable {cfg : EventConfig} {bodyHash : String}

theorem serial_encryptSensitive (h : r.sensitive ≠ none → cfg.crypto = true ∧
      db.sensitiveKeys.lookup ("dek://" ++ r.workspaceId ++ "/" ++ r.aggregateType ++ "/" ++
        r.aggregateId) ≠ some .destroyed) :
    ∃ sealed db', db'.events = db.events ∧ eventDatabase.serial inp n db (encryptSensitive cfg r) =
      (.ok sealed, db', n + r.sensitive.toList.length) := by
  rw [encryptSensitive]
  cases hsensitive : r.sensitive with
  | none => exact ⟨_, db, rfl, rfl⟩
  | some =>
    obtain ⟨hcrypto, hkey⟩ := h (by rw [hsensitive]; exact Option.some_ne_none _)
    simp only [hcrypto, Bool.not_true, Bool.false_eq_true, if_false]
    generalize "dek://" ++ r.workspaceId ++ "/" ++ r.aggregateType ++ "/" ++ r.aggregateId = ref
      at hkey
    cases hlookup : db.sensitiveKeys.lookup ref with
    | some status =>
      cases status with
      | destroyed => exact absurd hlookup hkey
      | active =>
        have hquery : eventDatabase.serial inp n db (query (.encrypt ref)) =
            (.ok (.ok (inp n).ciphertext), db, n + 1) := by
          simp only [query, Prog.issue, serial, execEventStmt, execEncrypt, hlookup]
          rfl
        exact ⟨_, db, rfl, by rw [serial_do hquery]; rfl⟩
    | none =>
      have hquery : eventDatabase.serial inp n db (query (.encrypt ref)) =
          (.ok (.ok (inp n).ciphertext), db.apply (.insertKey ref), n + 1) := by
        simp only [query, Prog.issue, serial, execEventStmt, execEncrypt, hlookup]
        rfl
      exact ⟨_, db.apply (.insertKey ref), rfl, by rw [serial_do hquery]; rfl⟩

theorem serial_insertEvent {ciphertext : Option (List UInt8)} {draft : Event} {hash : String}
    {row : ℕ → EventRow} (hrow : rowOf (draft.withHash hash) (inp n).uuid ws actor
      (r.channelId.bind parseUuid) ciphertext bodyHash (inp (n + 1)).now = row)
    (hhash : computeContentHash cfg.sha256 draft = .ok hash)
    (hcontract : cfg.registry.validateContract (draft.withHash hash) = .ok ())
    (hws : parseUuid r.workspaceId = some ws)
    (hchannel : ∀ c, r.channelId = some c → ∃ u, parseUuid c = some u)
    (hactor : parseUuid r.actorAccountId = some actor)
    (hstorable : (row (n + 2)).payload.storable = true)
    (hviolated : db.violated (row (n + 2)) = none) :
    eventDatabase.serial inp n db (insertEvent cfg r bodyHash ciphertext draft) =
      (.ok ⟨draft.eventId, draft.aggregateSeq, hash, n + 2, false⟩,
        { db with events := db.events ++ [row (n + 2)] }, n + 3) := by
  have hhash' : eventDatabase.serial inp n db
      (canonicalized (computeContentHash cfg.sha256 draft)) = (.ok hash, db, n) := by
    rw [hhash]
    rfl
  have hcontract' : eventDatabase.serial inp n db
      (checked (cfg.registry.validateContract (draft.withHash hash))) = (.ok (), db, n) := by
    rw [hcontract]
    rfl
  have hid : eventDatabase.serial inp n db (query .newUuid) = (.ok (inp n).uuid, db, n + 1) := rfl
  have hnow : eventDatabase.serial inp (n + 1) db (query (.now .stored)) =
      (.ok (inp (n + 1)).now, db, n + 2) := rfl
  have hinsert : eventDatabase.serial inp (n + 2) db (query (.insert row)) =
      (.ok (.inserted (n + 2)), db.apply (.insertEvent (row (n + 2))), n + 3) := by
    simp only [query, Prog.issue, serial, execEventStmt, execInsert, hstorable, hviolated,
      Bool.not_true, Bool.false_eq_true, if_false]
    rfl
  rw [insertEvent, serial_do hhash', serial_do hcontract', serial_do hid,
    serial_do (serial_uuidArg hws), serial_do (serial_channelArg hchannel),
    serial_do (serial_uuidArg hactor), serial_do hnow, hrow, serial_do hinsert]
  rfl

theorem serial_checkWorkspace {s : Stores} {x : Appending} (h : Known cfg s x ws actor)
    (hws : parseUuid x.r.workspaceId = some ws)
    (hactor : parseUuid x.r.actorAccountId = some actor) :
    eventDatabase.serial x.inp n s.db (checkWorkspace x.r) =
      (if x.r.causedBy.any fun c ↦ (s.db.events.find? (·.eventId = c)).isNone then
        .error (.store ⟨.causedByUnknown, x.r.causedBy.getD ""⟩) else .ok (),
        s.db, checkedAt n x.r) := by
  rw [checkWorkspace, serial_do (serial_uuidArg hws), serial_do (serial_uuidArg hactor),
    serial_do (serial_checkActor h.account), serial_do (serial_checkChannel h.channel),
    serial_do (serial_checkTask h.task), serial_checkCause h.cause, checkedAt]

end Postgres

variable {p : EventProg AppendResult} {n n' : ℕ} {db db' : EventTables}

theorem transact_ok {inp : ℕ → EventInput} {a : AppendResult}
    (h : eventDatabase.serial inp n db p = (.ok a, db', n')) :
    eventDatabase.transact inp n db p = (db', n') := by
  rw [transact, h]

theorem transact_error {inp : ℕ → EventInput} {e : AppendError}
    (h : eventDatabase.serial inp n db p = (.error e, db', n')) :
    eventDatabase.transact inp n db p = (db, n') := by
  rw [transact, h]

/-! ## Agreement -/

section

variable {cfg : EventConfig} {s : Stores} {x : Appending}

def Stores.Same (s : Stores) : Prop := Twins s.db.events s.memory.events s.memory.idem

/-- The stores take the request in the same way. -/
def Stores.Coincide (cfg : EventConfig) (s : Stores) (x : Appending) : Prop :=
  Agree (s.postgres cfg x).1 ((s.inMemory cfg x).map Prod.fst) ∧ (s.step cfg x).Same

variable {db : EventTables} {n : ℕ} {r : AppendRequest} {bodyHash : String} {actor ws : Uuid}

theorem agree_error {e : AppendError} (h : s.Same)
    (hpostgres : s.postgres cfg x = (.error e, db, n)) (hmemory : s.inMemory cfg x = .error e) :
    s.Coincide cfg x := by
  refine ⟨by rw [hpostgres, hmemory]; exact rfl, ?_⟩
  rw [Stores.Same, Stores.step, transact_error hpostgres, hmemory]
  exact h

theorem agree_ok {r r' : AppendResult} {m : InMemoryEventStore}
    (hpostgres : s.postgres cfg x = (.ok r, db, n)) (hmemory : s.inMemory cfg x = .ok (r', m))
    (heventId : r.eventId = r'.eventId) (hseq : r.aggregateSeq = r'.aggregateSeq)
    (hreplayed : r.replayed = r'.replayed) (h : Twins db.events m.events m.idem) :
    s.Coincide cfg x := by
  refine ⟨by rw [hpostgres, hmemory]; exact ⟨heventId, hseq, hreplayed⟩, ?_⟩
  rw [Stores.Same, Stores.step, transact_ok hpostgres, hmemory]
  exact h

theorem hash_of_body {sha256 : Digest} (h : r.requestBodyHash sha256 = .ok bodyHash) (event : Event)
    (hpayload : event.payload = r.payload.json) :
    ∃ hash, computeContentHash sha256 event = .ok hash := by
  have hbody : r.body.isFinite = true := by
    by_contra hbody
    rw [AppendRequest.requestBodyHash, canonicalJson, if_neg hbody] at h
    cases h
  have hfinite : (hashBody sha256 event).isFinite = true := by
    rw [isFinite_hashBody, hpayload]
    simp only [AppendRequest.body, Json.isFinite, Json.All, allMembers, Bool.and_eq_true] at hbody
    exact hbody.2.2.2.2.2.1
  rw [computeContentHash, canonicalJson, if_pos hfinite]
  exact ⟨_, rfl⟩

theorem agree_known {prior : EventRow} (h : s.Same) (hprior : prior ∈ s.db.events)
    (hbody : x.r.requestBodyHash cfg.sha256 = .ok bodyHash)
    (hpostgres : s.postgres cfg x = eventDatabase.serial x.inp n s.db (replay prior bodyHash))
    (hidem : s.memory.idem.lookup x.r.idemText = some (prior.requestBodyHash, prior.eventId)) :
    s.Coincide cfg x := by
  rw [replay] at hpostgres
  by_cases hsame : prior.requestBodyHash = bodyHash
  · rw [if_neg (not_not.2 hsame)] at hpostgres
    have hfind := h.find_event prior.eventId
    rw [h.find_self hprior, map_some] at hfind
    obtain ⟨event, hevent, hseq⟩ := map_eq_some_iff.1 hfind
    have hmemory : s.inMemory cfg x = .ok (⟨event.eventId, event.aggregateSeq, event.contentHash,
        s.memory.events.findIdx (·.eventId = prior.eventId) + 1, true⟩, s.memory) := by
      rw [Stores.inMemory, InMemoryEventStore.append, hbody]
      simp [Except.mapError, bind, Except.bind, hidem, hsame, hevent]
    have heventId : event.eventId = prior.eventId := by simpa using List.find?_some hevent
    exact agree_ok hpostgres hmemory heventId.symm hseq.symm rfl h
  · rw [if_pos hsame] at hpostgres
    refine agree_error h hpostgres ?_
    rw [Stores.inMemory, InMemoryEventStore.append, hbody]
    simp [Except.mapError, bind, Except.bind, hidem, hsame]

theorem nextSeq_eq {l l' : Option (ℕ × String)} (h : l.map Prod.fst = l'.map Prod.fst) :
    nextSeq l = nextSeq l' := by
  cases l with
  | none => rw [map_eq_none_iff.1 h.symm]
  | some =>
    obtain ⟨p', rfl, hp⟩ := map_eq_some_iff.1 h.symm
    rw [nextSeq, nextSeq, hp]

theorem violated_eq_none {row : EventRow} (h : s.Same) (hevents : db.events = s.db.events)
    (hid : ∀ r ∈ s.db.events, r.id ≠ row.id) (heventId : ∀ r ∈ s.db.events, r.eventId ≠ row.eventId)
    (hseq : row.aggregateSeq = nextSeq (headOf s.db.events row.aggregate))
    (hkey : ∀ r ∈ s.db.events, r.idemKey ≠ row.idemKey) : db.violated row = none := by
  have hnone : ∀ p : EventRow → Bool, (∀ r ∈ s.db.events, p r = false) →
      s.db.events.any p ≠ true := by
    intro p hp hany
    obtain ⟨r, hr, hr'⟩ := List.any_eq_true.1 hany
    exact Bool.false_ne_true ((hp r hr).symm.trans hr')
  rw [EventTables.violated, hevents, if_neg (hnone _ fun r hr ↦ decide_eq_false (hid r hr)),
    if_neg (hnone _ fun r hr ↦ decide_eq_false (heventId r hr)),
    if_neg (hnone _ fun r hr ↦ decide_eq_false fun hsame ↦
      (Twins.lt_nextSeq h _ hr hsame.1).ne (hsame.2.trans hseq)),
    if_neg (hnone _ fun r hr ↦ decide_eq_false (hkey r hr))]

theorem idemText_eq (hws : ws.text = r.workspaceId) (hactor : actor.text = r.actorAccountId) :
    r.idemText = (r.key ws actor).text := by
  rw [AppendRequest.idemText, ← hws, ← hactor]
  rfl

theorem agree_new (h : s.Same) (hknown : Known cfg s x ws actor)
    (hbody : x.r.requestBodyHash cfg.sha256 = .ok bodyHash)
    (hws : parseUuid x.r.workspaceId = some ws) (hwsText : ws.text = x.r.workspaceId)
    (hactor : parseUuid x.r.actorAccountId = some actor)
    (hactorText : actor.text = x.r.actorAccountId) (hpostgres : s.postgres cfg x =
      eventDatabase.serial x.inp (s.n + 2) s.db (appendNew cfg x.r bodyHash))
    (hfind : s.db.findIdempotent (x.r.key ws actor) = none)
    (hidem : s.memory.idem.lookup x.r.idemText = none) : s.Coincide cfg x := by
  have hcheck := serial_checkWorkspace (n := s.n + 2) hknown hws hactor
  have hnext : nextSeq (s.memory.link x.r) = nextSeq (s.head ws x.r) := by
    refine nextSeq_eq ?_
    rw [InMemoryEventStore.link, Stores.head, h.head, ← hwsText, Option.map_map]
    rfl
  have hmisfits : x.r.misfits (s.memory.link x.r) = x.r.misfits (s.head ws x.r) := by
    rw [AppendRequest.misfits, AppendRequest.misfits, hnext]
  have hcauses : (x.r.causedBy.any fun c ↦ !s.memory.events.any (·.eventId = c)) =
      x.r.causedBy.any fun c ↦ (s.db.events.find? (·.eventId = c)).isNone := by
    simp only [h.any_event, not_isSome]
  have hmemory : s.inMemory cfg x = s.memory.append cfg.sha256 (s.drawn x) x.now x.r := rfl
  rw [InMemoryEventStore.append, hbody] at hmemory
  simp only [Except.mapError, bind, Except.bind, hidem, hmisfits, hcauses] at hmemory
  rw [appendNew] at hpostgres
  by_cases hcause : (x.r.causedBy.any fun c ↦
      (s.db.events.find? (·.eventId = c)).isNone) = true
  · -- The number fits, so the store in memory comes to the cause too.
    obtain ⟨c, hc, hnone⟩ := (Option.any_eq_true _ _).1 hcause
    rw [hknown.fits c hc (isNone_iff_eq_none.1 hnone)] at hmemory
    rw [if_pos hcause] at hcheck hmemory
    exact agree_error h (hpostgres.trans (serial_do_error hcheck)) hmemory
  rw [if_neg hcause] at hcheck hmemory
  have hhead : eventDatabase.serial x.inp (checkedAt (s.n + 2) x.r) s.db
      (query (.head ⟨ws, x.r.aggregateType, x.r.aggregateId⟩)) =
      (.ok (s.head ws x.r), s.db, checkedAt (s.n + 2) x.r + 1) := rfl
  rw [serial_do hcheck, serial_do (serial_uuidArg hws), serial_do hhead] at hpostgres
  change _ = eventDatabase.serial x.inp _ s.db (if x.r.misfits _ then _ else _) at hpostgres
  by_cases hmisfit : x.r.misfits (s.head ws x.r) = true
  · rw [if_pos hmisfit] at hpostgres hmemory
    refine agree_error h hpostgres (hmemory.trans ?_)
    rw [sequenceConflict, hnext]
  · rw [if_neg hmisfit] at hpostgres hmemory
    have hacceptable : Acceptable cfg s x ws := by
      refine hknown.acceptable (fun c hc ↦ ?_) (Bool.eq_false_iff.2 hmisfit)
      by_contra hnone
      refine hcause ((Option.any_eq_true _ _).2 ⟨c, hc, ?_⟩)
      rwa [← isSome_find?, Bool.not_eq_true, isSome_eq_false_iff] at hnone
    obtain ⟨sealed, db, hevents, hsealed⟩ : ∃ sealed db, db.events = s.db.events ∧
        s.encrypted cfg x = (.ok sealed, db, idStatement s.n x.r) :=
      serial_encryptSensitive hacceptable.encryption
    have hid : eventDatabase.serial x.inp (idStatement s.n x.r) db (query .newUuid) =
        (.ok (s.drawn x), db, idStatement s.n x.r + 1) := rfl
    have hnow : eventDatabase.serial x.inp (idStatement s.n x.r + 1) db
        (query (.now .hashed)) = (.ok (x.inp (idStatement s.n x.r + 1)).now, db,
          idStatement s.n x.r + 2) := rfl
    rw [serial_do hsealed, serial_do hid, serial_do hnow] at hpostgres
    obtain ⟨hash, hhash⟩ := hash_of_body hbody (s.draft x ws sealed) rfl
    obtain ⟨hash', hhash'⟩ := hash_of_body hbody (draftEvent x.r (s.drawn x) (s.memory.link x.r)
      (none, none) x.now) rfl
    have hkeys : ∀ r ∈ s.db.events, r.idemKey ≠ x.r.key ws actor := by
      intro r hr hkey
      exact List.find?_eq_none.1 hfind r hr (decide_eq_true hkey)
    rw [hhash'] at hmemory
    refine agree_ok (hpostgres.trans (serial_insertEvent rfl hhash
      (hacceptable.contract sealed hash (congrArg Prod.fst hsealed) hhash) hws
      (fun c hc ↦ (hknown.channel c hc).imp fun _ ↦ And.left) hactor hacceptable.storable
      (violated_eq_none h hevents hacceptable.id hacceptable.eventId rfl hkeys))) hmemory rfl
      hnext.symm rfl ?_
    rw [hevents, idemText_eq hwsText hactorText]
    exact .snoc h ⟨rfl, hacceptable.eventId, hkeys, ⟨hwsText.symm, rfl, rfl⟩, rfl, hnext, rfl,
      Option.map_map ..⟩

theorem agree_of_fits (h : s.Same) (hfits : Fits cfg s x) : s.Coincide cfg x := by
  obtain ⟨ws, actor, hws, hwsText, hactor, hactorText, hknown⟩ := hfits
  cases hbody : x.r.requestBodyHash cfg.sha256 with
  | error e =>
    have hpostgres : s.postgres cfg x = (.error (.canonicalization e), s.db, s.n) := by
      rw [Stores.postgres, append, hbody]
      rfl
    refine agree_error h hpostgres ?_
    rw [Stores.inMemory, InMemoryEventStore.append, hbody]
    rfl
  | ok bodyHash =>
    have hcanonicalized : eventDatabase.serial x.inp s.n s.db
        (canonicalized (x.r.requestBodyHash cfg.sha256)) = (.ok bodyHash, s.db, s.n) := by
      rw [hbody]
      rfl
    have hlock : eventDatabase.serial x.inp s.n s.db (lock x.r.workspaceId
        x.r.aggregateType x.r.aggregateId) = (.ok (), s.db, s.n + 1) := rfl
    have hidem : s.memory.idem.lookup x.r.idemText = (s.db.findIdempotent (x.r.key ws actor)).map
        fun row ↦ (row.requestBodyHash, row.eventId) := by
      rw [idemText_eq hwsText hactorText]
      exact h.find_key _
    cases hfind : s.db.findIdempotent (x.r.key ws actor) with
    | none =>
      have hpostgres : s.postgres cfg x =
          eventDatabase.serial x.inp (s.n + 2) s.db (appendNew cfg x.r bodyHash) := by
        rw [Stores.postgres, append, serial_do hcanonicalized, serial_do hlock,
          serial_do (serial_findIdempotent hws hactor), hfind]
      refine agree_new h (hknown hfind) hbody hws hwsText hactor hactorText hpostgres hfind ?_
      rw [hidem, hfind]
      rfl
    | some prior =>
      have hpostgres : s.postgres cfg x =
          eventDatabase.serial x.inp (s.n + 2) s.db (replay prior bodyHash) := by
        rw [Stores.postgres, append, serial_do hcanonicalized, serial_do hlock,
          serial_do (serial_findIdempotent hws hactor), hfind]
      refine agree_known h (mem_of_find?_eq_some hfind) hbody hpostgres ?_
      rw [hidem, hfind]
      rfl

/-- What has been appended, from two empty stores, by requests that fit. -/
inductive Meets (cfg : EventConfig) : Stores → Prop
  | start (db : EventTables) (n : ℕ) (hempty : db.events = []) : Meets cfg ⟨db, n, {}⟩
  | append {s : Stores} (x : Appending) (h : Meets cfg s) (hfits : Fits cfg s x) :
    Meets cfg (s.step cfg x)

theorem Meets.same (h : Meets cfg s) : s.Same := by
  induction h with
  | start _ n hempty =>
    rw [Stores.Same, hempty]
    exact .nil
  | append x h hfits ih => exact (agree_of_fits ih hfits).2

end

namespace Sample

def appending (r : AppendRequest) : Appending where
  r := r
  inp n := { uuid := workspace, now := n }
  now := 0

def doubtful : AppendRequest := { request with expectedSeq := some 7, causedBy := some "evt-0" }

/-- Every hash is the same one, of 64 hexadecimal digits. -/
def uniform : EventConfig := configOf fun _ ↦ String.ofList (List.replicate 64 'a')

def opened : Stores := ⟨tables, 0, {}⟩

theorem contract_uniform : uniform.registry.validateContract
    ((opened.draft (appending request) workspace (none, none)).withHash (uniform.sha256 [])) =
      .ok () := by
  decide +kernel

theorem acceptable_request : Acceptable uniform opened (appending request) workspace where
  encryption h := absurd rfl h
  contract sealed hash hsealed hhash := by
    have hnone : sealed = (none, none) := (Except.ok.inj hsealed).symm
    subst hnone
    rw [computeContentHash] at hhash
    cases hbytes : canonicalJson (hashBody uniform.sha256
        (opened.draft (appending request) workspace (none, none))) with
    | error e =>
      rw [hbytes] at hhash
      cases hhash
    | ok bytes =>
      rw [hbytes] at hhash
      cases hhash
      exact contract_uniform
  storable := by decide +kernel
  eventId _ h := absurd h not_mem_nil
  id _ h := absurd h not_mem_nil

theorem known_request : Known uniform opened (appending request) workspace actor where
  account := by decide +kernel
  channel _ h := absurd h (some_ne_none _).symm
  task _ _ h := absurd h (some_ne_none _).symm
  cause _ _ h := absurd h (some_ne_none _).symm
  fits _ h := absurd h (some_ne_none _).symm
  acceptable _ _ := acceptable_request

theorem fits_request : Fits uniform opened (appending request) :=
  ⟨workspace, actor, by decide +kernel, rfl, by decide +kernel, rfl, fun _ ↦ known_request⟩

theorem meets_opened : Meets uniform opened := .start tables 0 rfl

end Sample

end AgentColab
