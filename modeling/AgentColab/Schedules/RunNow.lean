import AgentColab.Domain.Computation
import AgentColab.Events.Decoding
import AgentColab.Schedules.Commands

/-!
# Run-now requests

A request to run a Schedule now is named by its requester and its idempotency key. The handler locks
the Schedule, looks for an earlier Run by the idempotency key alone, and makes the key of a new Run
from a key in which an underscore has replaced every colon.
-/

namespace AgentColab.Schedules

open AgentColab List Option

/-! ## The command -/

/-- The accounts by their uuids. `account_id` is unique. -/
structure Accounts where
  accountId : String → String
  workspaceId : String → String
  unique : Function.Injective accountId

/-- `RunScheduleNow`, and who issues it under which idempotency key. -/
structure RunScheduleNow where
  accountUuid : String
  idempotencyKey : String
  scheduleId : String
  clientKey : Option String := none
deriving DecidableEq

/-- `cmd.client_key or request_key` -/
def RunScheduleNow.key (cmd : RunScheduleNow) : String :=
  requestedKey cmd.clientKey cmd.idempotencyKey

/-- An Event that the command appends to a Run, in the scope `schedule_run:run_now`. -/
structure RunEvent where
  workspaceId : String
  runId : ℕ
  actorAccountId : String
  idempotencyKey : String
  scheduleId : String
  scheduleVersionId : ℕ
  scheduledFor : Time
deriving DecidableEq

/-- The Event store identifies an Event by its workspace, actor, scope and key. -/
def RunEvent.sameIdentity (e e' : RunEvent) : Bool :=
  e.workspaceId = e'.workspaceId && e.actorAccountId = e'.actorAccountId &&
    e.idempotencyKey = e'.idempotencyKey

structure RunStore where
  tables : ScheduleTables := {}
  events : List RunEvent := []

/-- What a client sees of a `CommandResult`. -/
structure RunNowResult where
  runId : ℕ
  replayed : Bool

variable (accounts : Accounts)

namespace RunStore

/-- `_load_schedule` and `_current_version` -/
def load (db : RunStore) (workspaceId scheduleId : String) :
    Except ExecError (ScheduleRow × VersionRow) :=
  match (db.tables.schedule scheduleId).filter fun s ↦ s.workspaceId = workspaceId with
  | none => .error (.command "SCHEDULE_NOT_FOUND" scheduleId)
  | some schedule =>
    match schedule.currentVersionId with
    | none => .error (.command "SCHEDULE_VERSION_MISSING" schedule.scheduleId)
    | some vid =>
      match db.tables.version vid with
      | none => .error (.command "SCHEDULE_VERSION_MISSING" schedule.scheduleId)
      | some version => .ok (schedule, version)

/-- `find_run_by_request_key` -/
def findRun (db : RunStore) (scheduleId requestKey : String) : Option RunRow :=
  db.tables.runs.find? fun r ↦
    r.scheduleId = scheduleId && r.runKind = .manual && r.requestKey = some requestKey

/-- `_replay`: whether the requester has an Event with the key on the Run. -/
def replays (db : RunStore) (cmd : RunScheduleNow) (run : RunRow) : Bool :=
  db.events.any fun e ↦
    e.workspaceId = accounts.workspaceId cmd.accountUuid && e.runId = run.runId &&
      e.idempotencyKey = cmd.idempotencyKey && e.actorAccountId = cmd.accountUuid

/-- `insert_run`. When a unique index stops it, the earlier Run stands. -/
def insertOrFind (db : RunStore) (row : RunRow) (requestKey : String) :
    Except ExecError (RunRow × RunStore) :=
  if db.tables.runs.any row.conflicts then
    match db.findRun row.scheduleId requestKey with
    | some run => .ok (run, db)
    | none => .error (.command "RUN_DUPLICATE" "manual run already requested")
  else .ok (row, { db with tables := db.tables.apply (.insertRun row) })

/-- `append`. The result tells a replay. -/
def append (db : RunStore) (e : RunEvent) : Except ExecError (Bool × RunStore) :=
  match db.events.find? (·.sameIdentity e) with
  | some prior =>
    if prior = e then .ok (true, db)
    else .error (.eventStore "IDEMPOTENCY_CONFLICT" "same idempotency key with a different body")
  | none => .ok (false, { db with events := db.events ++ [e] })

/-- The row that `run_now` inserts. -/
def newRow (schedule : ScheduleRow) (version : VersionRow) (now : Time) (n : ℕ)
    (cmd : RunScheduleNow) (key : String) : RunRow where
  runId := n
  workspaceId := accounts.workspaceId cmd.accountUuid
  scheduleId := schedule.scheduleId
  scheduleVersionId := version.id
  runKind := .manual
  scheduledFor := now
  requestKey := some cmd.idempotencyKey
  status := .due
  idempotencyKey := key
  requestedBy := some cmd.accountUuid

/-- `run_now` behind the command bus, with the answer of the permission check. -/
def runNow (permission : Except ExecError Unit) (now : Time) (n : ℕ) (cmd : RunScheduleNow)
    (db : RunStore) : Except ExecError (RunNowResult × RunStore) := do
  if cmd.idempotencyKey = "" then
    .error (.command "IDEMPOTENCY_KEY_REQUIRED" "Idempotency-Key header required")
  else
  let (schedule, version) ← db.load (accounts.workspaceId cmd.accountUuid) cmd.scheduleId
  permission
  match (db.findRun schedule.scheduleId cmd.idempotencyKey).filter (db.replays accounts cmd) with
  | some run => .ok (⟨run.runId, true⟩, db)
  | none =>
    if schedule.status ≠ .enabled ∧ schedule.status ≠ .paused then
      .error (.command "SCHEDULE_STATUS_INVALID"
        ("run now is not allowed in " ++ schedule.status.value))
    else
    let key ← (manualIdempotencyKey schedule.scheduleId (accounts.accountId cmd.accountUuid)
      (safeKey cmd.key)).mapError .value
    let (run, db) ← db.insertOrFind (newRow accounts schedule version now n cmd key)
      cmd.idempotencyKey
    let (replayed, db) ← db.append ⟨accounts.workspaceId cmd.accountUuid, run.runId,
      cmd.accountUuid, cmd.idempotencyKey, schedule.scheduleId, version.id, now⟩
    .ok (⟨run.runId, replayed⟩, db)

/-- Whether the state allows a request: there is such a Schedule and it is enabled or paused, the
requester is permitted, the parts of the key are in order, and the requester has not used the
idempotency key for another Schedule. -/
def allows (permission : Except ExecError Unit) (cmd : RunScheduleNow) (db : RunStore) : Bool :=
  cmd.idempotencyKey ≠ "" && permission.isOk &&
  (match db.load (accounts.workspaceId cmd.accountUuid) cmd.scheduleId with
    | .ok (schedule, _) => schedule.status = .enabled || schedule.status = .paused
    | .error _ => false) &&
  (manualIdempotencyKey cmd.scheduleId (accounts.accountId cmd.accountUuid)
    (safeKey cmd.key)).isOk &&
  db.events.all fun e ↦
    !(e.workspaceId = accounts.workspaceId cmd.accountUuid && e.actorAccountId = cmd.accountUuid &&
      e.idempotencyKey = cmd.idempotencyKey) || e.scheduleId = cmd.scheduleId

end RunStore

/-! ## Histories -/

/-- A request, whether the state allowed it, and the Run it was answered with. -/
structure Answer where
  cmd : RunScheduleNow
  allowed : Bool
  runId : Option ℕ
deriving DecidableEq

structure RunWorld where
  db : RunStore
  log : List Answer := []

/-- A request is handled; one that fails is rolled back. -/
def RunWorld.runNow (permission : Except ExecError Unit) (now : Time) (n : ℕ) (cmd : RunScheduleNow)
    (w : RunWorld) : RunWorld :=
  let answer (runId : Option ℕ) : Answer := ⟨cmd, w.db.allows accounts permission cmd, runId⟩
  match w.db.runNow accounts permission now n cmd with
  | .ok (r, db) => ⟨db, w.log ++ [answer r.runId]⟩
  | .error _ => { w with log := w.log ++ [answer none] }

/-- The Runs that the planner and a retry insert. -/
def RunRow.Automatic (row : RunRow) : Prop :=
  row.runKind ≠ .manual ∧ ((∃ k, row.idempotencyKey = scheduledIdempotencyKey row.scheduleId k) ∨
      ∃ original no, retryIdempotencyKey original no = .ok row.idempotencyKey)

/-- The worlds that requests with `C` and all that else writes the tables lead to. A Run id is new.
-/
inductive RunReached (C : RunWorld → RunScheduleNow → Prop) : RunWorld → Prop
  | start (tables : ScheduleTables) (h : ∀ row ∈ tables.runs, row.Automatic) :
      RunReached C ⟨⟨tables, []⟩, []⟩
  | runNow {w : RunWorld} (hw : RunReached C w) (permission : Except ExecError Unit) (now : Time)
      (n : ℕ) (cmd : RunScheduleNow) (hn : ∀ row ∈ w.db.tables.runs, row.runId ≠ n)
      (hc : C w cmd) : RunReached C (w.runNow accounts permission now n cmd)
  | write {w : RunWorld} (hw : RunReached C w) (x : ScheduleWrite)
      (hx : ∀ row, x = .insertRun row → row.Automatic) :
      RunReached C { w with db.tables := w.db.tables.apply x }

/-- What holds of two requests for one Schedule that are served with the Runs `r` and `s`. -/
structure Consistent (cmd cmd' : RunScheduleNow) (r s : ℕ) : Prop where
  /-- The same pair gets the same Run. -/
  same : cmd.accountUuid = cmd'.accountUuid → cmd.idempotencyKey = cmd'.idempotencyKey → r = s
  /-- Distinct pairs get different Runs. -/
  own : ¬(cmd.accountUuid = cmd'.accountUuid ∧ cmd.idempotencyKey = cmd'.idempotencyKey) → r ≠ s
  /-- The key of a Run determines the requester and the key that was asked for. -/
  injective : ∀ key, manualIdempotencyKey cmd.scheduleId (accounts.accountId cmd.accountUuid)
      (safeKey cmd.key) = .ok key →
    manualIdempotencyKey cmd'.scheduleId (accounts.accountId cmd'.accountUuid)
      (safeKey cmd'.key) = .ok key → cmd.accountUuid = cmd'.accountUuid ∧ cmd.key = cmd'.key

/-- **Run-now keys are faithful.** -/
structure Faithful (w : RunWorld) : Prop where
  /-- A request that the state allows is served. -/
  served : ∀ a ∈ w.log, a.allowed = true → a.runId ≠ none
  /-- The Run of a request carries its requester and its idempotency key. -/
  created : ∀ a ∈ w.log, ∀ r, a.runId = some r → ∃ row ∈ w.db.tables.runs, row.runId = r ∧
    row.runKind = .manual ∧ row.scheduleId = a.cmd.scheduleId ∧
    row.requestedBy = some a.cmd.accountUuid ∧ row.requestKey = some a.cmd.idempotencyKey
  consistent : ∀ a ∈ w.log, ∀ b ∈ w.log, ∀ r s, a.runId = some r → b.runId = some s →
    a.cmd.scheduleId = b.cmd.scheduleId → Consistent accounts a.cmd b.cmd r s

/-- Nobody else has used the idempotency key, and the requester no other key that is the same
without colons. -/
def Careful (w : RunWorld) (cmd : RunScheduleNow) : Prop :=
  ∀ a ∈ w.log, a.runId ≠ none → a.cmd.scheduleId = cmd.scheduleId →
    (a.cmd.idempotencyKey = cmd.idempotencyKey → a.cmd.accountUuid = cmd.accountUuid) ∧
    (a.cmd.accountUuid = cmd.accountUuid → safeKey a.cmd.key = safeKey cmd.key →
      a.cmd.idempotencyKey = cmd.idempotencyKey ∧ a.cmd.key = cmd.key)

/-! ## Keys -/

variable {a k s : String} {cmd : RunScheduleNow} {r : ℕ} {w : RunWorld}

theorem manualIdempotencyKey_inj {s' a' k' key : String} (h : manualIdempotencyKey s a k = .ok key)
    (h' : manualIdempotencyKey s' a' k' = .ok key) : s = s' ∧ a = a' ∧ k = k' := by
  rw [manualIdempotencyKey] at h h'
  split_ifs at h h' with hparts hparts'
  have heq := congrArg String.toList (Except.ok.inj (h.trans h'.symm))
  simp only [any_cons, any_nil, Bool.or_false, Bool.or_eq_true, not_or,
    Bool.not_eq_true] at hparts hparts'
  have hcolon {t : String} (ht : t.toList.contains ':' = false) (c : Char) (hc : c ∈ t.toList) :
      (c != ':') = true := by
    rw [bne_iff_ne]
    rintro rfl
    rw [← contains_iff_mem, ht] at hc
    cases hc
  have hhead (l : List Char) : ∀ c ∈ (':' :: l).head?, (c != ':') = false := by simp
  simp only [String.toList_append, append_assoc] at heq
  obtain ⟨hs, heq⟩ := append_inj_of_all (hcolon hparts.1.2) (hcolon hparts'.1.2) (hhead _) (hhead _)
    (append_cancel_left heq)
  obtain ⟨ha, heq⟩ := append_inj_of_all (hcolon hparts.2.1.2) (hcolon hparts'.2.1.2) (hhead _)
    (hhead _) (List.cons.inj heq).2
  exact ⟨String.toList_inj.1 hs, String.toList_inj.1 ha, String.toList_inj.1 (List.cons.inj heq).2⟩

theorem RunRow.Automatic.ne_manual {row : RunRow} (h : row.Automatic) :
    manualIdempotencyKey s a k ≠ .ok row.idempotencyKey := by
  intro hkey
  rw [manualIdempotencyKey] at hkey
  split_ifs at hkey
  have hmanual := congrArg String.toList (Except.ok.inj hkey)
  rcases h.2 with ⟨k, hk⟩ | ⟨original, no, hk⟩
  · rw [hk] at hmanual
    simp [scheduledIdempotencyKey] at hmanual
  · rw [retryIdempotencyKey] at hk
    split_ifs at hk
    rw [← Except.ok.inj hk] at hmanual
    simp at hmanual

/-! ## One request -/

namespace RunStore

variable {accounts} {db db' : RunStore} {cmd : RunScheduleNow} {permission : Except ExecError Unit}
  {now : Time} {n : ℕ} {r : RunNowResult}

variable {sid : String} {run : RunRow}

theorem scheduleId_of_load {ws : String} {s : ScheduleRow} {v : VersionRow}
    (h : db.load ws sid = .ok (s, v)) : s.scheduleId = sid := by
  rw [load] at h
  cases hs : (db.tables.schedule sid).filter fun s ↦ s.workspaceId = ws with
  | none => simp [hs] at h
  | some s' =>
    have hmem := (filter_eq_some_iff.1 hs).1
    have hid : s'.scheduleId = sid := by simpa using List.find?_some hmem
    simp only [hs] at h
    cases hvid : s'.currentVersionId with
    | none => simp [hvid] at h
    | some vid =>
      simp only [hvid] at h
      cases hv : db.tables.version vid with
      | none => simp [hv] at h
      | some =>
        simp only [hv, Except.ok.injEq, Prod.mk.injEq] at h
        rw [← h.1, hid]

theorem findRun_eq_some {key : String} (h : db.findRun sid key = some run) :
    run ∈ db.tables.runs ∧ run.scheduleId = sid ∧ run.runKind = .manual ∧
      run.requestKey = some key := by
  have hrun := List.find?_some h
  simp only [Bool.and_eq_true, decide_eq_true_eq] at hrun
  exact ⟨mem_of_find?_eq_some h, hrun.1.1, hrun.1.2, hrun.2⟩

theorem findRun_eq_none {key : String} (h : db.findRun sid key = none) (hrun : run ∈ db.tables.runs)
    (hsid : run.scheduleId = sid) (hkind : run.runKind = .manual) : run.requestKey ≠ some key := by
  intro hkey
  have := List.find?_eq_none.1 h run hrun
  simp [hsid, hkind, hkey] at this

theorem runNow_eq_ok (h : db.runNow accounts permission now n cmd = .ok (r, db')) :
    (∃ run, db.findRun cmd.scheduleId cmd.idempotencyKey = some run ∧
      db.replays accounts cmd run = true ∧ r.runId = run.runId ∧ db' = db) ∨
    ∃ schedule version key run db₁ replayed, schedule.scheduleId = cmd.scheduleId ∧
      (db.findRun cmd.scheduleId cmd.idempotencyKey).filter (db.replays accounts cmd) = none ∧
      manualIdempotencyKey cmd.scheduleId (accounts.accountId cmd.accountUuid)
        (safeKey cmd.key) = .ok key ∧
      db.insertOrFind (newRow accounts schedule version now n cmd key) cmd.idempotencyKey =
        .ok (run, db₁) ∧
      db₁.append ⟨accounts.workspaceId cmd.accountUuid, run.runId, cmd.accountUuid,
        cmd.idempotencyKey, cmd.scheduleId, version.id, now⟩ = .ok (replayed, db') ∧
      r = ⟨run.runId, replayed⟩ := by
  rw [runNow] at h
  split_ifs at h
  obtain ⟨⟨schedule, version⟩, hload, h⟩ := bind_eq_ok.1 h
  obtain ⟨-, -, h⟩ := bind_eq_ok.1 h
  have hsid := scheduleId_of_load hload
  simp only [hsid] at h
  cases hfind : (db.findRun cmd.scheduleId cmd.idempotencyKey).filter (db.replays accounts cmd) with
  | some run =>
    simp only [hfind, Except.ok.injEq, Prod.mk.injEq] at h
    obtain ⟨hrun, hreplay⟩ := filter_eq_some_iff.1 hfind
    exact .inl ⟨run, hrun, hreplay, by rw [← h.1], h.2.symm⟩
  | none =>
    simp only [hfind] at h
    split_ifs at h
    obtain ⟨key, hkey, h⟩ := bind_eq_ok.1 h
    obtain ⟨⟨run, db₁⟩, hrun, h⟩ := bind_eq_ok.1 h
    obtain ⟨⟨replayed, db₂⟩, happend, h⟩ := bind_eq_ok.1 h
    simp only [Except.ok.injEq, Prod.mk.injEq] at h
    obtain ⟨rfl, rfl⟩ := h
    have hkey' : manualIdempotencyKey cmd.scheduleId (accounts.accountId cmd.accountUuid)
        (safeKey cmd.key) = .ok key := by
      cases hk : manualIdempotencyKey cmd.scheduleId (accounts.accountId cmd.accountUuid)
          (safeKey cmd.key) with
      | error e => simp [hk, Except.mapError] at hkey
      | ok key' => simpa [hk, Except.mapError] using hkey
    exact .inr ⟨schedule, version, key, run, db₁, replayed, hsid, rfl, hkey', hrun, happend, rfl⟩

theorem runNow_of_allows (hallows : db.allows accounts permission cmd = true)
    (hserve : (∃ run, (db.findRun cmd.scheduleId cmd.idempotencyKey).filter
        (db.replays accounts cmd) = some run) ∨
      ∀ schedule version key, schedule.scheduleId = cmd.scheduleId →
        manualIdempotencyKey cmd.scheduleId (accounts.accountId cmd.accountUuid)
          (safeKey cmd.key) = .ok key →
        db.tables.runs.any (newRow accounts schedule version now n cmd key).conflicts = false ∧
        ∀ e : RunEvent, e.workspaceId = accounts.workspaceId cmd.accountUuid →
          e.actorAccountId = cmd.accountUuid → e.idempotencyKey = cmd.idempotencyKey →
          db.events.find? (·.sameIdentity e) = none) :
    ∃ r db', db.runNow accounts permission now n cmd = .ok (r, db') := by
  simp only [allows, Bool.and_eq_true, decide_eq_true_eq] at hallows
  obtain ⟨⟨⟨⟨hne, hpermission⟩, hload⟩, hkey⟩, -⟩ := hallows
  cases hl : db.load (accounts.workspaceId cmd.accountUuid) cmd.scheduleId with
  | error => simp [hl] at hload
  | ok found =>
    obtain ⟨schedule, version⟩ := found
    have hsid := scheduleId_of_load hl
    cases permission with
    | error => simp [Except.isOk, Except.toBool] at hpermission
    | ok =>
      cases hk : manualIdempotencyKey cmd.scheduleId (accounts.accountId cmd.accountUuid)
          (safeKey cmd.key) with
      | error e => simp [hk, Except.isOk, Except.toBool] at hkey
      | ok key =>
        rw [runNow, if_neg hne, hl]
        simp only [bind, Except.bind, hsid]
        cases hfind : (db.findRun cmd.scheduleId cmd.idempotencyKey).filter
            (db.replays accounts cmd) with
        | some run => exact ⟨_, _, rfl⟩
        | none =>
          rw [hfind] at hserve
          obtain ⟨hconflict, hevents⟩ := hserve.resolve_left (by simp) schedule version key hsid hk
          have hopen : ¬(schedule.status ≠ .enabled ∧ schedule.status ≠ .paused) := by
            rw [hl] at hload
            rintro ⟨henabled, hpaused⟩
            simp [henabled, hpaused] at hload
          rw [if_neg hopen, hk]
          simp only [Except.mapError]
          rw [insertOrFind, hconflict]
          simp only [Bool.false_eq_true, if_false]
          have hnone := hevents ⟨accounts.workspaceId cmd.accountUuid,
            (newRow accounts schedule version now n cmd key).runId, cmd.accountUuid,
            cmd.idempotencyKey, cmd.scheduleId, version.id, now⟩ rfl rfl rfl
          simp only [append, hnone]
          exact ⟨_, _, rfl⟩

end RunStore

/-! ## Histories of careful requests -/

variable {accounts}

theorem Consistent.refl (cmd : RunScheduleNow) (r : ℕ) : Consistent accounts cmd cmd r r where
  same := fun _ _ ↦ rfl
  own := fun h ↦ absurd ⟨rfl, rfl⟩ h
  injective := fun _ _ _ ↦ ⟨rfl, rfl⟩

theorem Consistent.symm {cmd' : RunScheduleNow} {s : ℕ} (h : Consistent accounts cmd cmd' r s) :
    Consistent accounts cmd' cmd s r where
  same := fun haccount hkey ↦ (h.same haccount.symm hkey.symm).symm
  own := fun hne ↦ (h.own fun heq ↦ hne ⟨heq.1.symm, heq.2.symm⟩).symm
  injective := fun key hkey hkey' ↦ (h.injective key hkey' hkey).imp Eq.symm Eq.symm

theorem Careful.consistent (hc : Careful w cmd) {a : Answer} (ha : a ∈ w.log) {s : ℕ}
    (hr : a.runId = some r) (hsid : a.cmd.scheduleId = cmd.scheduleId) (hpair : r = s ↔
    a.cmd.accountUuid = cmd.accountUuid ∧ a.cmd.idempotencyKey = cmd.idempotencyKey) :
    Consistent accounts a.cmd cmd r s where
  same := fun haccount hkey ↦ hpair.2 ⟨haccount, hkey⟩
  own := fun hne heq ↦ hne (hpair.1 heq)
  injective := by
    intro key hkey hkey'
    obtain ⟨-, haccount, hsafe⟩ := manualIdempotencyKey_inj hkey hkey'
    have haccount' := accounts.unique haccount
    exact ⟨haccount', ((hc a ha (by simp [hr]) hsid).2 haccount' hsafe).2⟩

/-- What ties the answers to the rows and the Events. -/
structure RunWorld.Sound (accounts : Accounts) (w : RunWorld) : Prop where
  faithful : Faithful accounts w
  kind : ∀ row ∈ w.db.tables.runs, row.runKind = .manual ∨ row.Automatic
  row : ∀ row ∈ w.db.tables.runs, row.runKind = .manual → ∃ a ∈ w.log,
    a.runId = some row.runId ∧ a.cmd.scheduleId = row.scheduleId ∧
    row.requestKey = some a.cmd.idempotencyKey ∧
    manualIdempotencyKey a.cmd.scheduleId (accounts.accountId a.cmd.accountUuid)
      (safeKey a.cmd.key) = .ok row.idempotencyKey
  event : ∀ a ∈ w.log, ∀ r, a.runId = some r → ∃ e ∈ w.db.events,
    e.workspaceId = accounts.workspaceId a.cmd.accountUuid ∧ e.runId = r ∧
    e.idempotencyKey = a.cmd.idempotencyKey ∧ e.actorAccountId = a.cmd.accountUuid
  answer : ∀ e ∈ w.db.events, ∃ a ∈ w.log, a.runId = some e.runId ∧
    a.cmd.accountUuid = e.actorAccountId ∧ a.cmd.idempotencyKey = e.idempotencyKey ∧
    a.cmd.scheduleId = e.scheduleId

namespace RunWorld

variable {w : RunWorld} {cmd : RunScheduleNow} {n : ℕ}

theorem Sound.found (hw : w.Sound accounts) (hc : Careful w cmd) {run : RunRow}
    (hfind : w.db.findRun cmd.scheduleId cmd.idempotencyKey = some run) :
    w.db.replays accounts cmd run = true ∧ ∃ a ∈ w.log, a.runId = some run.runId ∧
      a.cmd.scheduleId = cmd.scheduleId ∧ a.cmd.accountUuid = cmd.accountUuid ∧
      a.cmd.idempotencyKey = cmd.idempotencyKey := by
  obtain ⟨hrun, hsid, hkind, hkey⟩ := RunStore.findRun_eq_some hfind
  obtain ⟨a, ha, hid, hasid, hakey, -⟩ := hw.row run hrun hkind
  have hsame : a.cmd.idempotencyKey = cmd.idempotencyKey := some_inj.1 (hakey.symm.trans hkey)
  have haccount := (hc a ha (by simp [hid]) (hasid.trans hsid)).1 hsame
  obtain ⟨e, he, hws, heid, hekey, hactor⟩ := hw.event a ha _ hid
  refine ⟨List.any_eq_true.2 ⟨e, he, ?_⟩, a, ha, hid, hasid.trans hsid, haccount, hsame⟩
  simp [hws, heid, hekey, hactor, haccount, hsame]

theorem Sound.free (hw : w.Sound accounts) (hc : Careful w cmd)
    (hn : ∀ row ∈ w.db.tables.runs, row.runId ≠ n)
    (hfind : w.db.findRun cmd.scheduleId cmd.idempotencyKey = none) {schedule : ScheduleRow}
    {version : VersionRow} {now : Time} {key : String}
    (hsid : schedule.scheduleId = cmd.scheduleId)
    (hkey : manualIdempotencyKey cmd.scheduleId (accounts.accountId cmd.accountUuid)
      (safeKey cmd.key) = .ok key) :
    w.db.tables.runs.any (RunStore.newRow accounts schedule version now n cmd key).conflicts =
      false := by
  rw [List.any_eq_false]
  intro row hrow hconflict
  simp only [RunRow.conflicts, RunStore.newRow, hsid, isSome_none, Bool.false_and,
    Bool.or_false, isSome_some, Bool.true_and, Bool.or_eq_true, Bool.and_eq_true,
    decide_eq_true_eq] at hconflict
  rcases hconflict with hid | ⟨hrowsid, hidem | ⟨hkind, hreq⟩⟩
  · exact hn row hrow hid.symm
  · rcases hw.kind row hrow with hmanual | hauto
    · obtain ⟨a, ha, haid, hasid, hakey, hamanual⟩ := hw.row row hrow hmanual
      rw [← hidem] at hamanual
      obtain ⟨-, haccount, hsafe⟩ := manualIdempotencyKey_inj hamanual hkey
      have hsame := ((hc a ha (by simp [haid]) (hasid.trans hrowsid.symm)).2
        (accounts.unique haccount) hsafe).1
      exact RunStore.findRun_eq_none hfind hrow hrowsid.symm hmanual (hsame ▸ hakey)
    · exact hauto.ne_manual (hidem ▸ hkey)
  · exact RunStore.findRun_eq_none hfind hrow hrowsid.symm hkind.symm hreq.symm

theorem Sound.unused (hw : w.Sound accounts)
    (hfind : w.db.findRun cmd.scheduleId cmd.idempotencyKey = none) {e : RunEvent}
    (he : e ∈ w.db.events) (hkey : e.idempotencyKey = cmd.idempotencyKey) :
    e.scheduleId ≠ cmd.scheduleId := by
  intro hsid
  obtain ⟨a, ha, hid, -, hakey, hasid⟩ := hw.answer e he
  obtain ⟨row, hrow, -, hkind, hrowsid, -, hreq⟩ := hw.faithful.created a ha _ hid
  refine RunStore.findRun_eq_none hfind hrow (hrowsid.trans (hasid.trans hsid)) hkind ?_
  rw [hreq, hakey, hkey]

end RunWorld

namespace RunWorld

variable {w : RunWorld} {cmd : RunScheduleNow} {permission : Except ExecError Unit} {now : Time}
  {n : ℕ}

theorem Sound.served (hw : w.Sound accounts) (hc : Careful w cmd)
    (hn : ∀ row ∈ w.db.tables.runs, row.runId ≠ n)
    (hallows : w.db.allows accounts permission cmd = true) :
    ∃ r db, w.db.runNow accounts permission now n cmd = .ok (r, db) := by
  refine RunStore.runNow_of_allows hallows ?_
  cases hfind : w.db.findRun cmd.scheduleId cmd.idempotencyKey with
  | some run =>
    obtain ⟨hreplay, -⟩ := hw.found hc hfind
    exact .inl ⟨run, filter_eq_some_iff.2 ⟨rfl, hreplay⟩⟩
  | none =>
    refine .inr fun schedule version key hsid hkey ↦ ⟨hw.free hc hn hfind hsid hkey, ?_⟩
    intro e hws hactor hekey
    refine List.find?_eq_none.2 fun prior hprior hsame ↦ ?_
    simp only [RunEvent.sameIdentity, Bool.and_eq_true, decide_eq_true_eq] at hsame
    simp only [RunStore.allows, Bool.and_eq_true, List.all_eq_true] at hallows
    have hschedule := hallows.2 prior hprior
    simp only [hsame.1.1.trans hws, hsame.1.2.trans hactor, hsame.2.trans hekey, decide_true,
      Bool.and_self, Bool.not_true, Bool.false_or, decide_eq_true_eq] at hschedule
    exact hw.unused hfind hprior (hsame.2.trans hekey) hschedule

theorem Sound.refuse (hw : w.Sound accounts) (cmd : RunScheduleNow) :
    RunWorld.Sound accounts { w with log := w.log ++ [⟨cmd, false, none⟩] } where
  faithful :=
    { served := forall_mem_append.2 ⟨hw.faithful.served, by simp⟩
      created := forall_mem_append.2 ⟨hw.faithful.created, by simp⟩
      consistent := by
        intro a ha b hb r s hr hs
        rcases mem_append.1 ha with ha | ha
        · rcases mem_append.1 hb with hb | hb
          · exact hw.faithful.consistent a ha b hb r s hr hs
          · obtain rfl := mem_singleton.1 hb
            cases hs
        · obtain rfl := mem_singleton.1 ha
          cases hr }
  kind := hw.kind
  row := fun row hrow hkind ↦ by
    obtain ⟨a, ha, h⟩ := hw.row row hrow hkind
    exact ⟨a, mem_append_left _ ha, h⟩
  event := forall_mem_append.2 ⟨hw.event, by simp⟩
  answer := fun e he ↦ by
    obtain ⟨a, ha, h⟩ := hw.answer e he
    exact ⟨a, mem_append_left _ ha, h⟩

end RunWorld

namespace RunWorld

variable {w : RunWorld} {cmd : RunScheduleNow} {permission : Except ExecError Unit} {now : Time}
  {n : ℕ}

theorem Sound.runNow_eq_ok (hw : w.Sound accounts) (hc : Careful w cmd)
    (hn : ∀ row ∈ w.db.tables.runs, row.runId ≠ n) {r : RunNowResult} {db : RunStore}
    (h : w.db.runNow accounts permission now n cmd = .ok (r, db)) :
    (db = w.db ∧ ∃ a ∈ w.log, a.runId = some r.runId ∧ a.cmd.scheduleId = cmd.scheduleId ∧
      a.cmd.accountUuid = cmd.accountUuid ∧ a.cmd.idempotencyKey = cmd.idempotencyKey) ∨
    r.runId = n ∧ w.db.findRun cmd.scheduleId cmd.idempotencyKey = none ∧
      ∃ schedule version key, schedule.scheduleId = cmd.scheduleId ∧
        manualIdempotencyKey cmd.scheduleId (accounts.accountId cmd.accountUuid)
          (safeKey cmd.key) = .ok key ∧ db = ⟨w.db.tables.apply (.insertRun
            (RunStore.newRow accounts schedule version now n cmd key)),
          w.db.events ++ [⟨accounts.workspaceId cmd.accountUuid, n, cmd.accountUuid,
            cmd.idempotencyKey, cmd.scheduleId, version.id, now⟩]⟩ := by
  rcases RunStore.runNow_eq_ok h with ⟨run, hfind, -, hr, rfl⟩ |
    ⟨schedule, version, key, run, db₁, replayed, hsid, hfilter, hkey, hinsert, happend, rfl⟩
  · obtain ⟨-, a, ha, hid, hpair⟩ := hw.found hc hfind
    exact .inl ⟨rfl, a, ha, hr ▸ hid, hpair⟩
  · have hfind : w.db.findRun cmd.scheduleId cmd.idempotencyKey = none := by
      cases hf : w.db.findRun cmd.scheduleId cmd.idempotencyKey with
      | none => rfl
      | some =>
        rw [hf, filter_some, if_pos (hw.found hc hf).1] at hfilter
        exact absurd hfilter (some_ne_none _)
    rw [RunStore.insertOrFind, hw.free hc hn hfind hsid hkey] at hinsert
    simp only [Bool.false_eq_true, if_false, Except.ok.injEq, Prod.mk.injEq] at hinsert
    obtain ⟨rfl, rfl⟩ := hinsert
    rw [RunStore.append] at happend
    refine .inr ⟨rfl, hfind, schedule, version, key, hsid, hkey, ?_⟩
    split at happend
    · next prior hprior =>
      split_ifs at happend with heq
      obtain ⟨a, ha, hid, -⟩ := hw.answer prior (mem_of_find?_eq_some hprior)
      obtain ⟨row, hrow, hrowid, -⟩ := hw.faithful.created a ha _ hid
      exact absurd (hrowid.trans (congrArg RunEvent.runId heq)) (hn row hrow)
    · simp only [Except.ok.injEq, Prod.mk.injEq] at happend
      exact happend.2.symm

variable {allowed : Bool} {s : ℕ}

theorem Sound.consistent_concat (hw : w.Sound accounts) (hc : Careful w cmd) (hpair : ∀ a ∈ w.log,
    ∀ r, a.runId = some r → a.cmd.scheduleId = cmd.scheduleId → (r = s ↔ a.cmd.accountUuid =
    cmd.accountUuid ∧ a.cmd.idempotencyKey = cmd.idempotencyKey)) :
    ∀ a ∈ w.log ++ [⟨cmd, allowed, some s⟩], ∀ b ∈ w.log ++ [⟨cmd, allowed, some s⟩],
      ∀ r r', a.runId = some r → b.runId = some r' → a.cmd.scheduleId = b.cmd.scheduleId →
        Consistent accounts a.cmd b.cmd r r' := by
  intro a ha b hb r r' hr hr' hsid
  rcases mem_append.1 ha with ha | ha
  · rcases mem_append.1 hb with hb | hb
    · exact hw.faithful.consistent a ha b hb r r' hr hr' hsid
    · obtain rfl := mem_singleton.1 hb
      obtain rfl := some_inj.1 hr'
      exact hc.consistent ha hr hsid (hpair a ha r hr hsid)
  · obtain rfl := mem_singleton.1 ha
    obtain rfl := some_inj.1 hr
    rcases mem_append.1 hb with hb | hb
    · exact (hc.consistent hb hr' hsid.symm (hpair b hb r' hr' hsid.symm)).symm
    · obtain rfl := mem_singleton.1 hb
      obtain rfl := some_inj.1 hr'
      exact .refl _ _

theorem Sound.repeat (hw : w.Sound accounts) (hc : Careful w cmd) {a : Answer} (ha : a ∈ w.log)
    (hid : a.runId = some s) (hsid : a.cmd.scheduleId = cmd.scheduleId)
    (haccount : a.cmd.accountUuid = cmd.accountUuid)
    (hkey : a.cmd.idempotencyKey = cmd.idempotencyKey) :
    RunWorld.Sound accounts { w with log := w.log ++ [⟨cmd, allowed, some s⟩] } where
  faithful :=
    { served := forall_mem_append.2 ⟨hw.faithful.served, by simp⟩
      created := forall_mem_append.2 ⟨hw.faithful.created, by
        rw [forall_mem_singleton]
        rintro _ ⟨⟩
        rw [← hsid, ← haccount, ← hkey]
        exact hw.faithful.created a ha s hid⟩
      consistent := by
        refine hw.consistent_concat hc fun b hb r hr hbsid ↦ ?_
        have hcons := hw.faithful.consistent b hb a ha r s hr hid (hbsid.trans hsid.symm)
        rw [← haccount, ← hkey]
        constructor
        · intro heq
          by_contra hne
          exact hcons.own hne heq
        · rintro ⟨hb, hbkey⟩
          exact hcons.same hb hbkey }
  kind := hw.kind
  row := fun row hrow hkind ↦ by
    obtain ⟨b, hb, h⟩ := hw.row row hrow hkind
    exact ⟨b, mem_append_left _ hb, h⟩
  event := forall_mem_append.2 ⟨hw.event, by
    rw [forall_mem_singleton]
    rintro _ ⟨⟩
    rw [← haccount, ← hkey]
    exact hw.event a ha s hid⟩
  answer := fun e he ↦ by
    obtain ⟨b, hb, h⟩ := hw.answer e he
    exact ⟨b, mem_append_left _ hb, h⟩

theorem Sound.insert (hw : w.Sound accounts) (hc : Careful w cmd)
    (hn : ∀ row ∈ w.db.tables.runs, row.runId ≠ n)
    (hfind : w.db.findRun cmd.scheduleId cmd.idempotencyKey = none) {schedule : ScheduleRow}
    {version : VersionRow} {key : String} (hsid : schedule.scheduleId = cmd.scheduleId) (hkey :
    manualIdempotencyKey cmd.scheduleId (accounts.accountId cmd.accountUuid) (safeKey cmd.key) =
    .ok key) : RunWorld.Sound accounts ⟨⟨w.db.tables.apply (.insertRun
        (RunStore.newRow accounts schedule version now n cmd key)),
      w.db.events ++ [⟨accounts.workspaceId cmd.accountUuid, n, cmd.accountUuid,
        cmd.idempotencyKey, cmd.scheduleId, version.id, now⟩]⟩,
      w.log ++ [⟨cmd, allowed, some n⟩]⟩ where
  faithful :=
    { served := forall_mem_append.2 ⟨hw.faithful.served, by simp⟩
      created := forall_mem_append.2 ⟨fun a ha r hr ↦ by
        obtain ⟨row, hrow, h⟩ := hw.faithful.created a ha r hr
        exact ⟨row, mem_append_left _ hrow, h⟩, by
        rw [forall_mem_singleton]
        rintro _ ⟨⟩
        exact ⟨_, mem_append_right _ (mem_singleton_self _), rfl, rfl, hsid, rfl, rfl⟩⟩
      consistent := by
        refine hw.consistent_concat hc fun a ha r hr hasid ↦ ?_
        obtain ⟨row, hrow, hid, hkind, hrowsid, -, hreq⟩ := hw.faithful.created a ha r hr
        -- An earlier Run has another id, and no earlier request has this pair.
        refine iff_of_false (fun heq ↦ hn row hrow (hid.trans heq)) fun hpair ↦ ?_
        refine RunStore.findRun_eq_none hfind hrow (hrowsid.trans hasid) hkind ?_
        rw [hreq, hpair.2] }
  kind := forall_mem_append.2 ⟨hw.kind, by
    rw [forall_mem_singleton]
    exact .inl rfl⟩
  row := forall_mem_append.2 ⟨fun row hrow hkind ↦ by
    obtain ⟨a, ha, h⟩ := hw.row row hrow hkind
    exact ⟨a, mem_append_left _ ha, h⟩, by
    rw [forall_mem_singleton]
    intro _
    exact ⟨_, mem_append_right _ (mem_singleton_self _), rfl, hsid.symm, rfl, hkey⟩⟩
  event := forall_mem_append.2 ⟨fun a ha r hr ↦ by
    obtain ⟨e, he, h⟩ := hw.event a ha r hr
    exact ⟨e, mem_append_left _ he, h⟩, by
    rw [forall_mem_singleton]
    rintro _ ⟨⟩
    exact ⟨_, mem_append_right _ (mem_singleton_self _), rfl, rfl, rfl, rfl⟩⟩
  answer := forall_mem_append.2 ⟨fun e he ↦ by
    obtain ⟨a, ha, h⟩ := hw.answer e he
    exact ⟨a, mem_append_left _ ha, h⟩, by
    rw [forall_mem_singleton]
    exact ⟨_, mem_append_right _ (mem_singleton_self _), rfl, rfl, rfl, rfl⟩⟩

theorem Sound.runNow (hw : w.Sound accounts) (hc : Careful w cmd)
    (hn : ∀ row ∈ w.db.tables.runs, row.runId ≠ n) :
    (w.runNow accounts permission now n cmd).Sound accounts := by
  rw [RunWorld.runNow]
  cases h : w.db.runNow accounts permission now n cmd with
  | error =>
    have hallows : w.db.allows accounts permission cmd = false := by
      rw [Bool.eq_false_iff]
      intro hallows
      obtain ⟨r, db, hok⟩ : ∃ r db, w.db.runNow accounts permission now n cmd = .ok (r, db) :=
        hw.served hc hn hallows
      rw [h] at hok
      cases hok
    simp only [hallows]
    exact hw.refuse cmd
  | ok p =>
    obtain ⟨r, db⟩ := p
    rcases hw.runNow_eq_ok hc hn h with ⟨rfl, a, ha, hid, hsid, haccount, hkey⟩ |
      ⟨hid, hfind, schedule, version, key, hsid, hkey, rfl⟩
    · exact hw.repeat hc ha hid hsid haccount hkey
    · simp only [hid]
      exact hw.insert hc hn hfind hsid hkey

end RunWorld

theorem runs_apply (t : ScheduleTables) (x : ScheduleWrite) : (∀ row' ∈ (t.apply x).runs,
      (∃ row ∈ t.runs, ∃ cols, row' = row.set cols) ∨ x = .insertRun row') ∧
    ∀ row ∈ t.runs, ∃ cols, row.set cols ∈ (t.apply x).runs := by
  have hsame : (∀ row' ∈ t.runs, (∃ row ∈ t.runs, ∃ cols, row' = row.set cols) ∨
      x = .insertRun row') ∧ ∀ row ∈ t.runs, ∃ cols, row.set cols ∈ t.runs :=
    ⟨fun row hrow ↦ .inl ⟨row, hrow, {}, rfl⟩, fun row hrow ↦ ⟨{}, hrow⟩⟩
  cases x with
  | insertRun =>
    refine ⟨fun row' hrow' ↦ ?_, fun row hrow ↦ ⟨{}, mem_append_left _ hrow⟩⟩
    rcases mem_append.1 hrow' with hrow' | hrow'
    · exact .inl ⟨row', hrow', {}, rfl⟩
    · rw [mem_singleton.1 hrow']
      exact .inr rfl
  | setRun rid cols =>
    have hset (row : RunRow) : ∃ cols', (if row.runId = rid then row.set cols else row) =
        row.set cols' := by
      split_ifs
      · exact ⟨cols, rfl⟩
      · exact ⟨{}, rfl⟩
    constructor
    · intro row' hrow'
      obtain ⟨row, hrow, rfl⟩ := List.mem_map.1 hrow'
      exact .inl ⟨row, hrow, by simpa using hset row⟩
    · intro row hrow
      obtain ⟨cols', hcols'⟩ := hset row
      exact ⟨cols', hcols' ▸ List.mem_map.2 ⟨row, hrow, by simp⟩⟩
  | _ => exact hsame

theorem RunWorld.Sound.write (hw : w.Sound accounts) {x : ScheduleWrite}
    (hx : ∀ row, x = .insertRun row → row.Automatic) :
    RunWorld.Sound accounts { w with db.tables := w.db.tables.apply x } := by
  obtain ⟨hback, hforth⟩ := runs_apply w.db.tables x
  refine ⟨⟨hw.faithful.served, ?_, hw.faithful.consistent⟩, ?_, ?_, hw.event, hw.answer⟩
  · intro a ha r hr
    obtain ⟨row, hrow, h⟩ := hw.faithful.created a ha r hr
    obtain ⟨cols, hcols⟩ := hforth row hrow
    exact ⟨_, hcols, h⟩
  · intro row' hrow'
    rcases hback row' hrow' with ⟨row, hrow, cols, rfl⟩ | hinsert
    · exact hw.kind row hrow
    · exact .inr (hx row' hinsert)
  · intro row' hrow' hkind
    rcases hback row' hrow' with ⟨row, hrow, cols, rfl⟩ | hinsert
    · exact hw.row row hrow hkind
    · exact absurd hkind (hx row' hinsert).1

theorem RunReached.sound (h : RunReached accounts Careful w) : w.Sound accounts := by
  induction h with
  | start _ htables =>
    exact ⟨⟨by simp, by simp, by simp⟩, fun row hrow ↦ .inr (htables row hrow),
      fun row hrow hkind ↦ absurd hkind (htables row hrow).1, by simp, by simp⟩
  | runNow _ _ _ n _ hn hc ih => exact ih.runNow hc hn
  | write _ x hx ih => exact ih.write hx

/-- **Run-now keys are faithful as long as requests are careful.** -/
theorem run_now_faithful {w : RunWorld} (h : RunReached accounts Careful w) : Faithful accounts w :=
  h.sound.faithful

/-! ## Two requesters and one key -/

namespace Sample

def people : Accounts := ⟨id, fun _ ↦ "ws-1", Function.injective_id⟩

def hourly : VersionRow where
  name := "report"
  channelId := "general"
  cronExpression :=
    { expression := "30 * * * *", minutes := [30], hours := List.range' 0 24
      daysOfMonth := List.range' 1 31, months := List.range' 1 12, daysOfWeek := List.range 7
      domRestricted := false, dowRestricted := false
      minutes_lt := by simp
      hours_lt := by simp
      minutes_sorted := pairwise_singleton _ _
      hours_sorted := pairwise_lt_range' }
  timezone := "UTC"
  executionPrincipalId := "agent-1"
  actionTemplate := {}
  id := 0
  scheduleId := "sch-1"
  version := 1

def hourlyTables : ScheduleTables where
  schedules := [{ scheduleId := "sch-1", workspaceId := "ws-1", name := "report",
                  status := .enabled, currentVersionId := some 0 }]
  versions := [hourly]

/-- The requests one after another, each with the next number for its Run. -/
def serve (cmds : List RunScheduleNow) : RunWorld :=
  cmds.foldl (fun w cmd ↦ w.runNow people (.ok ()) 0 w.log.length cmd) ⟨⟨hourlyTables, []⟩, []⟩

theorem serve_concat {C : RunWorld → RunScheduleNow → Prop} {cmds : List RunScheduleNow}
    (h : RunReached people C (serve cmds))
    (hn : ∀ row ∈ (serve cmds).db.tables.runs, row.runId ≠ (serve cmds).log.length)
    (hc : C (serve cmds) cmd) : RunReached people C (serve (cmds ++ [cmd])) := by
  have hserve : serve (cmds ++ [cmd]) =
      (serve cmds).runNow people (.ok ()) 0 (serve cmds).log.length cmd := by
    rw [serve, foldl_append]
    rfl
  rw [hserve]
  exact .runNow h (.ok ()) 0 _ cmd hn hc

theorem serve_nil (C : RunWorld → RunScheduleNow → Prop) : RunReached people C (serve []) :=
  .start hourlyTables (by simp [hourlyTables])

/-- Two requesters with keys of their own, of whom the first asks twice. -/
def apart : List RunScheduleNow :=
  [⟨"ann", "k-1", "sch-1", none⟩, ⟨"bob", "k-2", "sch-1", none⟩, ⟨"ann", "k-1", "sch-1", none⟩]

def shared : List RunScheduleNow :=
  [⟨"ann", "k-1", "sch-1", none⟩, ⟨"bob", "k-1", "sch-1", none⟩]

end Sample

open Sample

theorem run_now_faithful_apart : RunReached people Careful (serve apart) ∧
    Faithful people (serve apart) := by
  have hfirst : RunReached people Careful (serve (apart.take 1)) :=
    serve_concat (serve_nil _) (by decide) (by unfold Careful; decide)
  have hsecond : RunReached people Careful (serve (apart.take 2)) :=
    serve_concat hfirst (by decide) (by unfold Careful; decide)
  have h : RunReached people Careful (serve apart) :=
    serve_concat hsecond (by decide) (by unfold Careful; decide)
  exact ⟨h, run_now_faithful h⟩

/-- The second requester gets the Run of the first. -/
theorem run_now_not_faithful : RunReached people (fun _ _ ↦ True) (serve shared) ∧
      ¬ Faithful people (serve shared) := by
  constructor
  · have hfirst : RunReached people (fun _ _ ↦ True) (serve (shared.take 1)) :=
      serve_concat (serve_nil _) (by decide) trivial
    exact serve_concat hfirst (by decide) trivial
  · intro h
    have hlog : (serve shared).log = [⟨⟨"ann", "k-1", "sch-1", none⟩, true, some 0⟩,
          ⟨⟨"bob", "k-1", "sch-1", none⟩, true, some 0⟩] := by decide
    have hfirst : (⟨⟨"ann", "k-1", "sch-1", none⟩, true, some 0⟩ : Answer) ∈
        (serve shared).log := by simp [hlog]
    have hsecond : (⟨⟨"bob", "k-1", "sch-1", none⟩, true, some 0⟩ : Answer) ∈
        (serve shared).log := by simp [hlog]
    exact (h.consistent _ hfirst _ hsecond 0 0 rfl rfl rfl).own (by decide) rfl

-- The keys of the second request and the first differ in a colon and an underscore.
example : (serve [⟨"ann", "k:1", "sch-1", none⟩, ⟨"ann", "k_1", "sch-1", none⟩]).log.map
    (·.runId) = [some 0, none] := by decide

end AgentColab.Schedules
