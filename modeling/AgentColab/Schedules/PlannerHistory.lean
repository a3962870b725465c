import AgentColab.Digest.Sha256
import AgentColab.Schedules.Coverage

/-!
# Histories of planner passes and Schedule commands

A pass locks the row of the Schedule it plans, and so does every command, so what happens to one
Schedule is a sequence. The clock is a function of the statement that reads it, and never goes back.
-/

namespace AgentColab.Schedules

open AgentColab Transaction Transaction.Database ScheduleTables List Option

/-- A step of the sequence. A pass is given the row that `enabled_schedules` returned. -/
inductive PlannerCall where
  | plan (schedule : ScheduleRow) (horizonS : ℤ)
  | enable (ctx : CommandContext) (scheduleId : String)
  | pause (ctx : CommandContext) (scheduleId : String)
  | resume (ctx : CommandContext) (scheduleId : String)
  | commitVersion (ctx : CommandContext) (scheduleId : String)
      (changes : VersionContent → VersionContent)

def plannerBody (cfg : ScheduleConfig) : PlannerCall → Body Unit
  | .plan schedule horizonS => do
    let _ ← planCurrentVersion cfg horizonS schedule
  | .enable ctx sid => enableSchedule cfg ctx sid
  | .pause ctx sid => pauseSchedule cfg ctx sid
  | .resume ctx sid => resumeSchedule cfg ctx sid
  | .commitVersion ctx sid changes => commitVersion cfg ctx sid changes

/-- The number of the statement with which a step that begins with statement `n` reads the time
that counts. -/
def PlannerCall.reading : PlannerCall → ℕ → ℕ
  | plan _ _, n => n + 1
  | enable _ _, n => n + 4
  | pause _ _, n => n + 4
  | resume _ _, n => n + 5
  | commitVersion _ _ _, n => n + 5

def OnClock (clock : ℕ → Time) (inp : ℕ → ScheduleInput) : Prop := ∀ k, (inp k).now = clock k

/-- A pass is over an ENABLED Schedule, and it is given the current row. -/
def OnEnabled (db : ScheduleTables) : PlannerCall → Prop
  | .plan schedule _ =>
    db.schedule schedule.scheduleId = some schedule ∧ schedule.status = .enabled
  | _ => True

/-! ## A small Schedule

One Schedule in UTC, on a machine that takes a fixed time for each statement. -/

namespace Sample

def dailyAt (minute hour : ℕ) (hminute : minute < 60) (hhour : hour < 24) : CronExpression where
  expression := toString minute ++ " " ++ toString hour ++ " * * *"
  minutes := [minute]
  hours := [hour]
  daysOfMonth := List.range' 1 31
  months := List.range' 1 12
  daysOfWeek := List.range 7
  domRestricted := false
  dowRestricted := false
  minutes_lt := by simpa using hminute
  hours_lt := by simpa using hhour
  minutes_sorted := pairwise_singleton _ _
  hours_sorted := pairwise_singleton _ _

def minutely : CronExpression where
  expression := "* * * * *"
  minutes := List.range 60
  hours := List.range 24
  daysOfMonth := List.range' 1 31
  months := List.range' 1 12
  daysOfWeek := List.range 7
  domRestricted := false
  dowRestricted := false
  minutes_lt := by simp
  hours_lt := by simp
  minutes_sorted := pairwise_lt_range
  hours_sorted := pairwise_lt_range

def cfg : ScheduleConfig where
  sha256 := Sha256.hexDigest
  zones tz := if tz = "UTC" then some (Zone.fixed 0) else none

def version (cron : CronExpression) : VersionRow where
  name := "report"
  channelId := "general"
  cronExpression := cron
  timezone := "UTC"
  executionPrincipalId := "agent-1"
  actionTemplate := {}
  minIntervalMinutes := 1
  id := 0
  scheduleId := "sch-1"
  version := 1

def daily : VersionRow := version (dailyAt 10 0 (by decide) (by decide))

def late : VersionRow := { version minutely with startsAt := some 36000000000 }

def draft : ScheduleRow where
  scheduleId := "sch-1"
  workspaceId := "ws-1"
  name := "report"
  currentVersionId := some 0

def enabled : ScheduleRow := { draft with status := .enabled, lastPlannedUntil := some 0 }

def ctx (key : String) : CommandContext :=
  ⟨"ws-1", "human-1", "00000000-0000-4000-8000-000000000001", key⟩

def minuteClock (k : ℕ) : Time := k * 60000000

def secondsClock (k : ℕ) : Time := k * 10000000

theorem monotone_minuteClock : Monotone minuteClock := fun a b h ↦
  Int.mul_le_mul_of_nonneg_right (Int.ofNat_le.2 h) (by decide)

theorem monotone_secondsClock : Monotone secondsClock := fun a b h ↦
  Int.mul_le_mul_of_nonneg_right (Int.ofNat_le.2 h) (by decide)

def showing (clock : ℕ → Time) (k : ℕ) : ScheduleInput := { now := clock k }

def transact (clock : ℕ → Time) (db : ScheduleTables × ℕ) (call : PlannerCall) :
    ScheduleTables × ℕ :=
  scheduleDatabase.transact (showing clock) db.2 db.1 (plannerBody cfg call)

end Sample

variable {cfg : ScheduleConfig} {sid : String} {version : VersionRow} {zone : Zone}
  {clock : ℕ → Time} {inp : ℕ → ScheduleInput} {db db' : ScheduleTables} {n n' : ℕ}

/-! ## Rows of Schedules -/

theorem schedule_setSchedule (sid' : String) (cols : ScheduleCols) :
    (db.apply (.setSchedule sid' cols)).schedule sid =
      (db.schedule sid).map fun s ↦ if s.scheduleId = sid' then s.set cols else s := by
  have hid : ∀ s : ScheduleRow,
      (if s.scheduleId = sid' then s.set cols else s).scheduleId = s.scheduleId := by
    intro s
    split_ifs <;> rfl
  simp only [ScheduleTables.schedule, ScheduleTables.apply, updateWhere, List.find?_map]
  congr 1
  · simp
  · congr 1
    funext s
    simp [hid]

variable {s schedule : ScheduleRow} {sid' : String} {now start t : Time} {k : ℕ} {horizonS : ℤ}
    {α : Type} {P : RunRow → Prop} {call : PlannerCall} {Q : α → ScheduleTables → ℕ → Prop}

theorem scheduleId_of_schedule (h : db.schedule sid = some s) : s.scheduleId = sid := by
  simpa using List.find?_some h

theorem schedule_setSchedule_of_ne (hne : sid ≠ sid') (cols : ScheduleCols) :
    (db.apply (.setSchedule sid' cols)).schedule sid = db.schedule sid := by
  rw [schedule_setSchedule]
  cases hs : db.schedule sid with
  | none => rfl
  | some =>
    have := scheduleId_of_schedule hs
    simp [this, hne]

theorem schedule_setSchedule_self (hs : db.schedule sid = some s) (cols : ScheduleCols) :
    (db.apply (.setSchedule sid cols)).schedule sid = some (s.set cols) := by
  rw [schedule_setSchedule, hs, map_some, if_pos (scheduleId_of_schedule hs)]

theorem ScheduleTables.WellFormed.setSchedule (hwf : db.WellFormed n) {cols : ScheduleCols}
    (hcols : cols.currentVersionId = none) : (db.apply (.setSchedule sid' cols)).WellFormed n where
  ids := hwf.ids
  keys := hwf.keys
  versionIds := hwf.versionIds
  currents sid s vid hs hvid := by
    rw [schedule_setSchedule, map_eq_some_iff] at hs
    obtain ⟨s', hs', rfl⟩ := hs
    refine hwf.currents sid s' vid hs' ?_
    split_ifs at hvid
    · rwa [ScheduleRow.set, hcols] at hvid
    · exact hvid
  owns sid s vid v hs hvid hv := by
    rw [schedule_setSchedule, map_eq_some_iff] at hs
    obtain ⟨s', hs', rfl⟩ := hs
    refine hwf.owns sid s' vid v hs' ?_ hv
    split_ifs at hvid
    · rwa [ScheduleRow.set, hcols] at hvid
    · exact hvid

/-! ## One pass -/

/-- What a committed pass over a Schedule has done that reads the time `now` before it takes the
number `k`. -/
inductive Passed (cfg : ScheduleConfig) (schedule : ScheduleRow) (now : Time) (k : ℕ)
    (horizonS : ℤ) (db db' : ScheduleTables) (n' : ℕ) : Prop where
  | unplanned (h : schedule.currentVersionId = none ∨
      ∃ vid, schedule.currentVersionId = some vid ∧ db.version vid = none) (same : db' = db)
      (wellFormed : db.WellFormed n')
  | planned (vid : ℕ) (version : VersionRow) (zone : Zone) (mid : ScheduleTables)
      (next : Option Time) (current : schedule.currentVersionId = some vid)
      (found : db.version vid = some version)
      (loaded : cfg.zones version.timezone = some zone)
      (late : k ≤ n')
      (progress : Progress version db mid n')
      (result : db' = mid.apply (.setSchedule schedule.scheduleId
        (cursorCols (now + seconds horizonS) next)))
      (recorded : ∀ m u, version.OccursAt zone m u → schedule.lastPlannedUntil.getD now < u →
        u ≤ now + seconds horizonS → version.Reaches cfg zone (schedule.lastPlannedUntil.getD now)
          (now + seconds horizonS) m → Recorded cfg version now mid m u)

theorem returns_plan (hwf : db.WellFormed n)
    (hrow : db.schedule schedule.scheduleId = some schedule) (horizonS : ℤ) :
    scheduleDatabase.Returns inp (plannerBody cfg (.plan schedule horizonS))
      (fun _ db' n' ↦ Passed cfg schedule (inp (n + 1)).now (n + 1) horizonS db db' n') db n := by
  rw [plannerBody, planCurrentVersion]
  cases hvid : schedule.currentVersionId with
  | none => exact returns_do (returns_ret.2 (returns_ret.2 (.unplanned (.inl hvid) rfl hwf)))
  | some vid =>
    refine returns_do (returns_do (returns_issue.2 ?_))
    change scheduleDatabase.Returns inp _ _ db (n + 1)
    dsimp only [execStatement, read]
    cases hv : db.version vid with
    | none =>
      exact returns_ret.2 (returns_ret.2
        (.unplanned (.inr ⟨vid, hvid, hv⟩) rfl (hwf.mono (Nat.le_succ n))))
    | some version =>
      have hsid := hwf.owns _ _ _ _ hrow hvid hv
      cases hz : cfg.zones version.timezone with
      | none =>
        -- the zone does not load, and the pass raises
        have hraise : ∀ a b, occurrences cfg version a b =
            .error (.cron "TIMEZONE_INVALID" version.timezone) := by
          intro a b
          rw [occurrences, loadZone, hz]
          rfl
        refine returns_do ?_
        rw [planSchedule]
        refine returns_do (returns_issue.2 ?_)
        simp only [hraise]
        exact returns_do returns_raise
      | some zone =>
        refine returns_do ((returns_planSchedule (hwf.mono (Nat.le_succ n)) hsid hz _).le.mono ?_)
        rintro - db' n' ⟨⟨mid, next, hprog, hdb', hrec⟩, hle⟩
        exact returns_ret.2 (returns_ret.2
          (.planned vid version zone mid next hvid hv hz hle hprog hdb' hrec))

theorem Passed.frame (h : Passed cfg schedule now k horizonS db db' n') :
    db'.WellFormed n' ∧ (∀ vid, db'.version vid = db.version vid) ∧
      ∀ sid s, db.schedule sid = some s → ∃ s', db'.schedule sid = some s' ∧
        s'.status = s.status ∧ s'.currentVersionId = s.currentVersionId := by
  rcases h with ⟨-, rfl, hwf⟩ | ⟨vid, v, z, mid, next, -, -, -, -, hprog, rfl, -⟩
  · exact ⟨hwf, fun _ ↦ rfl, fun sid s hs ↦ ⟨s, hs, rfl, rfl⟩⟩
  · refine ⟨hprog.wellFormed.setSchedule rfl, hprog.extends'.version_eq, fun sid s hs ↦ ?_⟩
    have hmid : mid.schedule sid = some s := (hprog.extends'.schedule_eq _).trans hs
    by_cases hsid : sid = schedule.scheduleId
    · subst hsid
      exact ⟨_, schedule_setSchedule_self hmid _, rfl, rfl⟩
    · exact ⟨s, (schedule_setSchedule_of_ne hsid _).trans hmid, rfl, rfl⟩

theorem Passed.cursor (h : Passed cfg schedule now k horizonS db db' n')
    (hrow : db.schedule schedule.scheduleId = some schedule)
    (hcur : schedule.currentVersionId = some version.id)
    (hfound : db.version version.id = some version) :
    ∃ s, db'.schedule schedule.scheduleId = some s ∧
      s.lastPlannedUntil = some (now + seconds horizonS) := by
  rcases h with ⟨hnone | ⟨vid, hvid, hnone⟩, -, -⟩ | ⟨vid, v, z, mid, next, -, -, -, -, hprog, rfl, -⟩
  · rw [hcur] at hnone
    cases hnone
  · obtain rfl : version.id = vid := some.inj (hcur.symm.trans hvid)
    rw [hfound] at hnone
    cases hnone
  · have hmid := (hprog.extends'.schedule_eq schedule.scheduleId).trans hrow
    exact ⟨_, schedule_setSchedule_self hmid _, rfl⟩

/-! ## One command -/

theorem returns_external {call : External} {Q : Option String → ScheduleTables → ℕ → Prop}
    (h : ∀ a, Q a db (n + 1)) : scheduleDatabase.Returns inp (external call) Q db n := by
  refine returns_do (returns_issue.2 ?_)
  change scheduleDatabase.Returns inp (orRaise ((inp n).external call)) _ db (n + 1)
  cases (inp n).external call with
  | ok a => exact returns_ret.2 (h a)
  | error => exact returns_raise

theorem returns_orCommand {x : Except ScheduleContractError α} (h : ∀ a, x = .ok a → Q a db n) :
    scheduleDatabase.Returns inp (orCommand x) Q db n := by
  cases x with
  | ok a => exact returns_ret.2 (h a rfl)
  | error => exact returns_raise

theorem returns_orRaise {x : Except ExecError α} (h : ∀ a, x = .ok a → Q a db n) :
    scheduleDatabase.Returns inp (orRaise x) Q db n := by
  cases x with
  | ok a => exact returns_ret.2 (h a rfl)
  | error => exact returns_raise

theorem returns_loadSchedule {ctx : CommandContext} {lock : Bool}
    {Q : ScheduleRow → ScheduleTables → ℕ → Prop}
    (h : ∀ s, db.schedule sid = some s → Q s db (n + 1)) :
    scheduleDatabase.Returns inp (loadSchedule ctx sid lock) Q db n := by
  refine returns_do (returns_issue.2 ?_)
  change scheduleDatabase.Returns inp _ _ db (n + 1)
  dsimp only [execStatement]
  cases hs : (db.schedule sid).filter _ with
  | none => exact returns_raise
  | some s => exact returns_ret.2 (h s (filter_eq_some_iff.1 hs).1)

theorem returns_currentVersion {Q : VersionRow → ScheduleTables → ℕ → Prop}
    (h : ∀ vid v, schedule.currentVersionId = some vid → db.version vid = some v → Q v db (n + 1)) :
    scheduleDatabase.Returns inp (currentVersion schedule) Q db n := by
  rw [currentVersion]
  cases hvid : schedule.currentVersionId with
  | none => exact returns_raise
  | some vid =>
    refine returns_do (returns_issue.2 ?_)
    change scheduleDatabase.Returns inp _ _ db (n + 1)
    dsimp only [execStatement, read]
    cases hv : db.version vid with
    | none => exact returns_raise
    | some v => exact returns_ret.2 (h vid v hvid hv)

theorem ScheduleTables.WellFormed.setRun (hwf : db.WellFormed n) (rid : ℕ) (cols : RunCols) :
    (db.apply (.setRun rid cols)).WellFormed n where
  ids r hr := by
    obtain ⟨r', hr', rfl⟩ := List.mem_map.1 hr
    have := hwf.ids r' hr'
    split_ifs <;> exact this
  keys r hr key hkey := by
    obtain ⟨r', hr', rfl⟩ := List.mem_map.1 hr
    have := hwf.keys r' hr' key
    split_ifs at hkey ⊢ <;> exact this hkey
  versionIds := hwf.versionIds
  currents := hwf.currents
  owns := hwf.owns

theorem returns_cancelPendingRuns (hwf : db.WellFormed n) (ctx : CommandContext)
    (reasonCode : String) : scheduleDatabase.Returns inp (cancelPendingRuns ctx sid reasonCode)
      (fun _ db' n' ↦ db'.WellFormed n' ∧ db'.schedules = db.schedules ∧
        db'.versions = db.versions) db n := by
  refine returns_do (returns_issue.2 (returns_do (returns_issue.2 ?_)))
  refine (returns_collect (P := fun _ _ _ ↦ True) (I := fun (s : ScheduleTables) k ↦
    s.WellFormed k ∧ s.schedules = db.schedules ∧ s.versions = db.versions)
    ⟨hwf.mono (Nat.le_add_right n 2), rfl, rfl⟩ ?_).mono fun _ _ _ h ↦ h.1
  rintro run - s k ⟨hs, hsch, hver⟩
  refine returns_do (returns_issue.2 (returns_do (returns_external fun _ ↦ returns_ret.2 ?_)))
  exact ⟨⟨(hs.setRun _ _).mono (Nat.le_add_right k 2), hsch, hver⟩, trivial, fun _ _ h ↦ h⟩

/-- The columns that enabling or resuming writes. -/
def enableCols (now : Time) (next : Option Time) : ScheduleCols where
  status := some .enabled
  lastPlannedUntil := some (some now)
  nextRunAt := some next

/-- The columns that pausing or disabling writes. -/
def stopCols (target : ScheduleStatus) : ScheduleCols where
  status := some target
  nextRunAt := some none

/-- What a committed transition of a Schedule has done that reads the time `now`. -/
inductive Transitioned (sid : String) (target : ScheduleStatus) (now : Time)
    (db db' : ScheduleTables) (n' : ℕ) : Prop where
  | replayed (same : db' = db) (wellFormed : db.WellFormed n')
  | enabled (next : Option Time) (isEnabled : target = .enabled) (wellFormed : db.WellFormed n')
      (result : db' = db.apply (.setSchedule sid (enableCols now next)))
  | stopped (mid : ScheduleTables) (notEnabled : target ≠ .enabled) (wellFormed : mid.WellFormed n')
      (schedules : mid.schedules = db.schedules) (versions : mid.versions = db.versions)
      (result : db' = mid.apply (.setSchedule sid (stopCols target)))

theorem returns_transition (hwf : db.WellFormed n) (ctx : CommandContext) (target : ScheduleStatus)
    (scope eventType action : String) :
    scheduleDatabase.Returns inp (transition cfg ctx sid target scope eventType action)
      (fun _ db' n' ↦ Transitioned sid target (inp (n + 4)).now db db' n' ∧ n + 4 ≤ n') db n := by
  rw [transition]
  refine returns_do (returns_loadSchedule fun s hs ↦ returns_do (returns_currentVersion
    fun vid v hvid hv ↦ returns_do (returns_external fun _ ↦ returns_do (returns_external ?_))))
  rintro (- | replay)
  · refine returns_do (returns_orCommand fun _ _ ↦ returns_do (returns_issue.2 ?_))
    refine returns_do (returns_external fun _ ↦ ?_)
    have hsid := scheduleId_of_schedule hs
    by_cases htarget : target = .enabled
    · rw [if_pos htarget]
      refine returns_do (returns_orRaise fun next _ ↦ returns_do (returns_issue.2
        (returns_do (returns_external fun _ ↦ returns_ret.2 ⟨.enabled next htarget ?_ ?_, ?_⟩))))
      · exact hwf.mono (by omega)
      · rw [hsid, htarget]
        rfl
      · omega
    · rw [if_neg htarget]
      refine returns_do ((returns_cancelPendingRuns (hwf.mono (by omega)) ctx _).le.mono ?_)
      rintro - mid k ⟨⟨hmid, hsch, hver⟩, hle⟩
      refine returns_do (returns_issue.2
        (returns_do (returns_external fun _ ↦ returns_ret.2 ⟨.stopped mid htarget ?_ hsch hver ?_, ?_⟩)))
      · exact hmid.mono (by omega)
      · rw [hsid]
        rfl
      · omega
  · exact returns_ret.2 ⟨.replayed rfl (hwf.mono (by omega)), by omega⟩

/-! ## A Schedule under planning -/

/-- A Schedule under planning since `start`: the occurrences between `start` and the cursor are
recorded, and the Runs of occurrences after `start` satisfy `P`. -/
structure UnderPlanning (cfg : ScheduleConfig) (version : VersionRow) (zone : Zone) (P : RunRow → Prop)
    (start now : Time) (db : ScheduleTables) (n : ℕ) : Prop where
  wellFormed : db.WellFormed n
  found : db.version version.id = some version
  planned : ∃ s until', db.schedule version.scheduleId = some s ∧ s.status = .enabled ∧
    s.currentVersionId = some version.id ∧ s.lastPlannedUntil = some until' ∧
    ∀ m u, version.OccursAt zone m u → start < u → u ≤ until' → Recorded cfg version now db m u
  runs : ∀ r ∈ db.runs, r.scheduleId = version.scheduleId → ∀ m u, version.OccursAt zone m u →
    start < u → r.occurrenceKey = some (version.keyOf cfg m) → P r

/-- **A pass keeps a Schedule under planning** if every occurrence of its own window is within
reach. -/
theorem UnderPlanning.passed (h : UnderPlanning cfg version zone P start t db n)
    (hzone : cfg.zones version.timezone = some zone)
    (hP : ∀ r : RunRow, r.status = .pending → r.scheduleVersionId = version.id → P r) (ht : t ≤ now)
    (hrow : db.schedule schedule.scheduleId = some schedule) (hfit : schedule.scheduleId =
    version.scheduleId → version.Fits cfg zone (schedule.lastPlannedUntil.getD now) (now + seconds
    horizonS)) (hpass : Passed cfg schedule now k horizonS db db' n') :
    UnderPlanning cfg version zone P start now db' n' := by
  obtain ⟨s, until', hs, hen, hcur, hcursor, hcov⟩ := h.planned
  rcases hpass with ⟨-, rfl, hwf⟩ | ⟨vid, version', zone', mid, next, hvid, hfound, hz, -, hprog, rfl, hrec⟩
  · exact ⟨hwf, h.found, ⟨s, until', hs, hen, hcur, hcursor, fun m u hm h₁ h₂ ↦
      (hcov m u hm h₁ h₂).mono ht (fun _ hr ↦ hr) fun _ hx ↦ hx⟩, h.runs⟩
  · have hext := hprog.extends'
    have hmid : mid.schedule version.scheduleId = some s := (hext.schedule_eq _).trans hs
    refine ⟨hprog.wellFormed.setSchedule rfl, (hext.version_eq _).trans h.found, ?_, ?_⟩
    · by_cases hsid : schedule.scheduleId = version.scheduleId
      · -- a pass over this Schedule: the cursor moves to the end of its window
        obtain rfl : schedule = s := some.inj (hrow.symm.trans (hsid ▸ hs))
        obtain rfl : vid = version.id := some.inj (hvid.symm.trans hcur)
        obtain rfl : version' = version := some.inj (hfound.symm.trans h.found)
        obtain rfl : zone' = zone := some.inj (hz.symm.trans hzone)
        refine ⟨schedule.set (cursorCols (now + seconds horizonS) next), now + seconds horizonS,
          ?_, hen, hcur, rfl, fun m u hm hstart huntil ↦ ?_⟩
        · rw [← hsid]
          exact schedule_setSchedule_self (hsid ▸ hmid) _
        · rw [hcursor, getD_some] at hrec hfit
          by_cases hold : u ≤ until'
          · exact (hcov m u hm hstart hold).mono ht hext.runs hext.notes
          · have hnew : until' < u := lt_of_not_ge hold
            exact hrec m u hm hnew huntil (hfit hsid m u hm hnew huntil)
      · refine ⟨s, until', ?_, hen, hcur, hcursor, fun m u hm h₁ h₂ ↦
          (hcov m u hm h₁ h₂).mono ht hext.runs hext.notes⟩
        rw [schedule_setSchedule_of_ne (Ne.symm hsid)]
        exact hmid
    · intro r hr hrsid m u hm hstart hkey
      rcases hext.fresh r hr with hr | ⟨hpend, hrv, hrs⟩
      · exact h.runs r hr hrsid m u hm hstart hkey
      · -- a new Run of this Schedule is of its current version
        have hsid : version'.scheduleId = version.scheduleId := hrs.symm.trans hrsid
        have howner := h.wellFormed.owns _ _ _ _ hrow hvid hfound
        rw [← howner, hsid, hs] at hrow
        obtain rfl : s = schedule := some.inj hrow
        obtain rfl : vid = version.id := some.inj (hvid.symm.trans hcur)
        obtain rfl : version' = version := some.inj (hfound.symm.trans h.found)
        exact hP r hpend hrv

/-! ## Coverage -/

/-- A pass, over this Schedule or another one, whose window the search can go through. -/
structure PassStep (cfg : ScheduleConfig) (version : VersionRow) (zone : Zone) (clock : ℕ → Time)
    (db : ScheduleTables) (n : ℕ) (call : PlannerCall) (inp : ℕ → ScheduleInput) : Prop where
  onClock : OnClock clock inp
  onEnabled : OnEnabled db call
  isPass : ∃ schedule horizonS, call = .plan schedule horizonS ∧
    (schedule.scheduleId = version.scheduleId → version.Fits cfg zone
      (schedule.lastPlannedUntil.getD (clock (n + 1))) (clock (n + 1) + seconds horizonS))

theorem UnderPlanning.mono {t' : Time} (h : UnderPlanning cfg version zone P start t db n)
    (ht : t ≤ t') (hn : n ≤ n') : UnderPlanning cfg version zone P start t' db n' := by
  obtain ⟨s, until', hs, hen, hcur, hcursor, hcov⟩ := h.planned
  exact ⟨h.wellFormed.mono hn, h.found, ⟨s, until', hs, hen, hcur, hcursor, fun m u hm h₁ h₂ ↦
    (hcov m u hm h₁ h₂).mono ht (fun _ hr ↦ hr) fun _ hx ↦ hx⟩, h.runs⟩

theorem UnderPlanning.step (hclock : Monotone clock)
    (hzone : cfg.zones version.timezone = some zone)
    (hP : ∀ r : RunRow, r.status = .pending → r.scheduleVersionId = version.id → P r)
    (h : UnderPlanning cfg version zone P start (clock n) db n)
    (hstep : PassStep cfg version zone clock db n call inp) :
    scheduleDatabase.Returns inp (plannerBody cfg call)
      (fun _ db' n' ↦ UnderPlanning cfg version zone P start (clock n') db' n') db n := by
  obtain ⟨schedule, horizonS, rfl, hfit⟩ := hstep.isPass
  obtain ⟨hrow, -⟩ := hstep.onEnabled
  refine (returns_plan h.wellFormed hrow horizonS).le.mono ?_
  rintro - db' n' ⟨hpass, hle⟩
  rw [hstep.onClock (n + 1)] at hpass
  have hkept := h.passed hzone hP (hclock (Nat.le_succ n)) hrow hfit hpass
  rcases hpass with ⟨-, rfl, -⟩ | ⟨-, -, -, -, -, -, -, -, hlate, -, -, -⟩
  · exact h.mono (hclock hle) hle
  · exact hkept.mono (hclock hlate) le_rfl

/-- **The planner covers what it passes over.** After every history of passes, each executable
occurrence within the validity between the instant at which planning started and the cursor has a
Run or a note, provided that every pass could go through its own window. -/
theorem planner_coverage {start : Time} {s₀ : ScheduleRow} {db₀ : ScheduleTables} {n₀ : ℕ}
    (hclock : Monotone clock) (hzone : cfg.zones version.timezone = some zone)
    (hwf : db₀.WellFormed n₀) (hversion : db₀.version version.id = some version)
    (hrow : db₀.schedule version.scheduleId = some s₀) (henabled : s₀.status = .enabled)
    (hcurrent : s₀.currentVersionId = some version.id) (hstart : s₀.lastPlannedUntil = some start)
    (hhist : scheduleDatabase.History (plannerBody cfg) (PassStep cfg version zone clock) db₀ n₀
      db n) :
    ∃ s until', db.schedule version.scheduleId = some s ∧ s.lastPlannedUntil = some until' ∧
      ∀ m u, version.OccursAt zone m u → start < u → u ≤ until' →
        db.HasRun version.scheduleId (version.keyOf cfg m) ∨
          db.HasSkip version.scheduleId (version.keyOf cfg m) := by
  have h₀ : UnderPlanning cfg version zone (fun _ ↦ True) start (clock n₀) db₀ n₀ := by
    refine ⟨hwf, hversion, ⟨s₀, start, hrow, henabled, hcurrent, hstart, ?_⟩, ?_⟩
    · intro m u _ h₁ h₂
      exact absurd h₂ (not_le_of_gt h₁)
    · intros
      trivial
  have h : UnderPlanning cfg version zone (fun _ ↦ True) start (clock n) db n := by
    refine History.invariant (I := fun (db : ScheduleTables) n ↦
      UnderPlanning cfg version zone (fun _ ↦ True) start (clock n) db n) h₀ ?_ ?_ hhist
    · intro db n n' hle h
      exact h.mono (hclock hle) hle
    · intro db n call inp h hstep
      exact h.step hclock hzone (fun _ _ _ ↦ trivial) hstep
  obtain ⟨s, until', hs, -, -, hcursor, hcov⟩ := h.planned
  exact ⟨s, until', hs, hcursor, fun m u hm h₁ h₂ ↦ (hcov m u hm h₁ h₂).imp_right And.right⟩

namespace Sample

theorem wellFormed (schedule : ScheduleRow) (version : VersionRow) (n : ℕ)
    (hsid : schedule.scheduleId = version.scheduleId) (hid : version.id < n)
    (hcur : schedule.currentVersionId = some version.id) :
    ({ schedules := [schedule], versions := [version] } : ScheduleTables).WellFormed n where
  ids _ hr := absurd hr not_mem_nil
  keys _ hr := absurd hr not_mem_nil
  versionIds v hv := by rwa [mem_singleton.1 hv]
  currents sid s vid hs hvid := by
    obtain rfl := mem_singleton.1 (mem_of_find?_eq_some hs)
    rw [hcur] at hvid
    rwa [← some.inj hvid]
  owns sid s vid v hs _ hv := by
    obtain rfl := mem_singleton.1 (mem_of_find?_eq_some hs)
    obtain rfl := mem_singleton.1 (mem_of_find?_eq_some hv)
    rw [← hsid]
    exact scheduleId_of_schedule hs

theorem passStep_daily : PassStep cfg daily (Zone.fixed 0) minuteClock
    { schedules := [enabled], versions := [daily] } 1 (.plan enabled 900) (showing minuteClock) where
  onClock _ := rfl
  onEnabled := ⟨by decide, rfl⟩
  isPass := ⟨enabled, 900, rfl, fun _ ↦ daily.fits_fixed cfg 0 (by decide) (by decide)⟩

end Sample

/-- One pass over a Schedule that has just been enabled. -/
theorem planner_coverage_onePass :
    let db := Sample.transact Sample.minuteClock
      ({ schedules := [Sample.enabled], versions := [Sample.daily] }, 1) (.plan Sample.enabled 900)
    ∃ s until', db.1.schedule "sch-1" = some s ∧ s.lastPlannedUntil = some until' ∧
      ∀ m u, Sample.daily.OccursAt (Zone.fixed 0) m u → 0 < u → u ≤ until' →
        db.1.HasRun "sch-1" (Sample.daily.keyOf Sample.cfg m) ∨
          db.1.HasSkip "sch-1" (Sample.daily.keyOf Sample.cfg m) :=
  planner_coverage Sample.monotone_minuteClock rfl
    (Sample.wellFormed Sample.enabled Sample.daily 1 rfl (by decide) rfl) rfl rfl rfl rfl rfl
    (.step _ _ .refl Sample.passStep_daily)

set_option maxRecDepth 40000 in
/-- The planner was down for ten hours less ten minutes. The five hundred occurrences that the
search returns are before the validity; the one at the beginning of the validity is not among them,
and the cursor is beyond it. -/
theorem planner_coverage_capped : ∃ db n, scheduleDatabase.History (plannerBody Sample.cfg)
        (fun db _ call inp ↦ OnClock Sample.minuteClock inp ∧ OnEnabled db call ∧
          call = .plan Sample.enabled 900)
        { schedules := [Sample.enabled], versions := [Sample.late] } 589 db n ∧
      ∃ s until', db.schedule "sch-1" = some s ∧ s.lastPlannedUntil = some until' ∧
        ∃ m u, Sample.late.OccursAt (Zone.fixed 0) m u ∧ 0 < u ∧ u ≤ until' ∧
          ¬db.HasRun "sch-1" (Sample.late.keyOf Sample.cfg m) ∧
          ¬db.HasSkip "sch-1" (Sample.late.keyOf Sample.cfg m) := by
  set start : ScheduleTables := { schedules := [Sample.enabled], versions := [Sample.late] }
  set after := Sample.transact Sample.minuteClock (start, 589) (.plan Sample.enabled 900)
  have hhist : scheduleDatabase.History (plannerBody Sample.cfg)
      (fun db _ call inp ↦ OnClock Sample.minuteClock inp ∧ OnEnabled db call ∧
        call = .plan Sample.enabled 900) start 589 after.1 after.2 := by
    have henabled : OnEnabled start (.plan Sample.enabled 900) := ⟨by decide, rfl⟩
    exact .step _ _ .refl ⟨fun _ ↦ rfl, henabled, rfl⟩
  have hruns : after.1.runs = [] := by decide
  have hnotes : after.1.notes = [] := by decide
  have hcursor : (after.1.schedule "sch-1").bind (·.lastPlannedUntil) = some 36300000000 := by
    decide
  obtain ⟨s, hs, hcursor⟩ := bind_eq_some_iff.1 hcursor
  refine ⟨_, _, hhist, s, 36300000000, hs, hcursor, 600, 36000000000,
    ⟨by decide, by decide, by decide⟩, by decide, by decide, ?_, ?_⟩
  · rintro ⟨r, hr, -⟩
    rw [hruns] at hr
    exact absurd hr not_mem_nil
  · rintro ⟨x, hx, -⟩
    rw [hnotes] at hx
    exact absurd hx not_mem_nil

/-! ## Pausing and resuming -/

def RunRow.PauseCancelled (r : RunRow) : Prop :=
  r.status = .cancelled ∧ r.errorCode = some "SCHEDULE_PAUSED"

/-- No Run that a pause has cancelled is of an occurrence later than `t`. -/
def NothingCancelledAhead (cfg : ScheduleConfig) (version : VersionRow) (zone : Zone)
    (db : ScheduleTables) (t : Time) : Prop :=
  ∀ r ∈ db.runs, r.scheduleId = version.scheduleId → r.PauseCancelled → ∀ m u,
    version.OccursAt zone m u → r.occurrenceKey = some (version.keyOf cfg m) → u ≤ t

/-- A pass whose window the search can go through, a pause, or an enabling or resuming with no
cancelled Run ahead of it. -/
structure PauseStep (cfg : ScheduleConfig) (version : VersionRow) (zone : Zone) (clock : ℕ → Time)
    (db : ScheduleTables) (n : ℕ) (call : PlannerCall) (inp : ℕ → ScheduleInput) : Prop where
  onClock : OnClock clock inp
  onEnabled : OnEnabled db call
  allowed : match call with
    | .plan schedule horizonS => schedule.scheduleId = version.scheduleId →
      version.Fits cfg zone (schedule.lastPlannedUntil.getD (clock (call.reading n)))
        (clock (call.reading n) + seconds horizonS)
    | .enable _ sid | .resume _ sid => sid = version.scheduleId ∧
      NothingCancelledAhead cfg version zone db (clock (call.reading n))
    | .pause _ sid => sid = version.scheduleId
    | .commitVersion _ _ _ => False

/-- Between two steps, a Schedule that is ENABLED is under planning, and no pause has cancelled a
Run that it still has to run. -/
structure Pausable (cfg : ScheduleConfig) (version : VersionRow) (zone : Zone) (clock : ℕ → Time)
    (db : ScheduleTables) (n : ℕ) : Prop where
  wellFormed : db.WellFormed n
  found : db.version version.id = some version
  current : ∃ s, db.schedule version.scheduleId = some s ∧ s.currentVersionId = some version.id
  planning : ∀ s, db.schedule version.scheduleId = some s → s.status = .enabled → ∃ start ≤ clock n,
      UnderPlanning cfg version zone (fun r ↦ ¬r.PauseCancelled) start (clock n) db n

theorem Pausable.mono (hclock : Monotone clock) (h : Pausable cfg version zone clock db n)
    (hn : n ≤ n') : Pausable cfg version zone clock db n' where
  wellFormed := h.wellFormed.mono hn
  found := h.found
  current := h.current
  planning s hs hen := by
    obtain ⟨start, hstart, hplan⟩ := h.planning s hs hen
    exact ⟨start, hstart.trans (hclock hn), hplan.mono (hclock hn) hn⟩

theorem Pausable.transitioned (hclock : Monotone clock) (h : Pausable cfg version zone clock db n)
    {target : ScheduleStatus} (hn : n ≤ n') (hk : k ≤ n') (hnow : now = clock k)
    (hahead : target = .enabled → NothingCancelledAhead cfg version zone db now)
    (htrans : Transitioned version.scheduleId target now db db' n') :
    Pausable cfg version zone clock db' n' := by
  obtain ⟨s, hs, hcur⟩ := h.current
  rcases htrans with ⟨rfl, -⟩ | ⟨next, htarget, hwf, rfl⟩ | ⟨mid, htarget, hwf, hsch, hver, rfl⟩
  · exact h.mono hclock hn
  · have hrow := schedule_setSchedule_self hs (enableCols now next)
    have hwf' : (db.apply (.setSchedule version.scheduleId (enableCols now next))).WellFormed n' :=
      hwf.setSchedule rfl
    refine ⟨hwf', h.found, ⟨_, hrow, hcur⟩, fun s' _ _ ↦
      ⟨now, hnow ▸ hclock hk, hwf', h.found, ?_, ?_⟩⟩
    · refine ⟨_, now, hrow, rfl, hcur, rfl, fun m u _ h₁ h₂ ↦ absurd h₂ (not_le_of_gt h₁)⟩
    · intro r hr hrsid m u hm hlate hkey hcancelled
      exact absurd (hahead htarget r hr hrsid hcancelled m u hm hkey) (not_le_of_gt hlate)
  · have hs' : mid.schedule version.scheduleId = some s := by
      rwa [ScheduleTables.schedule, hsch]
    have hfound : mid.version version.id = some version := by
      rw [ScheduleTables.version, hver]
      exact h.found
    have hrow := schedule_setSchedule_self hs' (stopCols target)
    refine ⟨hwf.setSchedule rfl, hfound, ⟨_, hrow, hcur⟩, fun s'' hs'' hen ↦ ?_⟩
    obtain rfl : s.set (stopCols target) = s'' := some.inj (hrow.symm.trans hs'')
    exact absurd hen htarget

theorem pending_not_pauseCancelled {r : RunRow} (h : r.status = .pending) : ¬r.PauseCancelled := by
  rintro ⟨hcancelled, -⟩
  rw [h] at hcancelled
  cases hcancelled

theorem Pausable.passed (hclock : Monotone clock) (hzone : cfg.zones version.timezone = some zone)
    (h : Pausable cfg version zone clock db n)
    (hrow : db.schedule schedule.scheduleId = some schedule) (hn : n ≤ n') (hfit :
    schedule.scheduleId = version.scheduleId → version.Fits cfg zone (schedule.lastPlannedUntil.getD
    (clock (n + 1))) (clock (n + 1) + seconds horizonS))
    (hpass : Passed cfg schedule (clock (n + 1)) (n + 1) horizonS db db' n') :
    Pausable cfg version zone clock db' n' := by
  obtain ⟨hwf, hversions, hrows⟩ := hpass.frame
  obtain ⟨s, hs, hcur⟩ := h.current
  obtain ⟨s', hs', hstatus, hcur'⟩ := hrows _ s hs
  refine ⟨hwf, (hversions _).trans h.found, ⟨s', hs', hcur'.trans hcur⟩, fun s'' hs'' hen ↦ ?_⟩
  obtain rfl : s' = s'' := some.inj (hs'.symm.trans hs'')
  obtain ⟨start, hstart, hplan⟩ := h.planning s hs (hstatus ▸ hen)
  refine ⟨start, hstart.trans (hclock hn), ?_⟩
  have hkept := hplan.passed hzone (fun r hr _ ↦ pending_not_pauseCancelled hr)
    (hclock (Nat.le_succ n)) hrow hfit hpass
  rcases hpass with ⟨-, rfl, -⟩ | ⟨-, -, -, -, -, -, -, -, hlate, -, -, -⟩
  · exact hplan.mono (hclock hn) hn
  · exact hkept.mono (hclock hlate) le_rfl

theorem Pausable.step (hclock : Monotone clock) (hzone : cfg.zones version.timezone = some zone)
    (h : Pausable cfg version zone clock db n)
    (hstep : PauseStep cfg version zone clock db n call inp) :
    scheduleDatabase.Returns inp (plannerBody cfg call)
      (fun _ db' n' ↦ Pausable cfg version zone clock db' n') db n := by
  obtain ⟨hinp, henabled, hallowed⟩ := hstep
  cases call with
  | plan _ horizonS =>
    refine (returns_plan h.wellFormed henabled.1 horizonS).le.mono ?_
    rintro - db' n' ⟨hpass, hle⟩
    rw [hinp (n + 1)] at hpass
    exact h.passed hclock hzone henabled.1 hle hallowed hpass
  | enable ctx =>
    obtain ⟨rfl, hahead⟩ := hallowed
    refine (returns_transition h.wellFormed ctx .enabled _ _ _).mono ?_
    rintro - db' n' ⟨htrans, hle⟩
    exact h.transitioned hclock (by omega) hle (hinp _) (fun _ ↦ hinp (n + 4) ▸ hahead) htrans
  | pause ctx sid =>
    have hsid : sid = version.scheduleId := hallowed
    subst hsid
    refine (returns_transition h.wellFormed ctx .paused _ _ _).mono ?_
    rintro - db' n' ⟨htrans, hle⟩
    have hpaused : ScheduleStatus.paused ≠ .enabled := by decide
    exact h.transitioned hclock (by omega) hle (hinp _) (fun htarget ↦ absurd htarget hpaused) htrans
  | resume ctx =>
    obtain ⟨rfl, hahead⟩ := hallowed
    refine returns_do (returns_loadSchedule fun s hs ↦ ?_)
    split_ifs
    · exact returns_raise
    · have hnext := h.mono hclock (Nat.le_succ n)
      refine (returns_transition hnext.wellFormed ctx .enabled _ _ _).mono ?_
      rintro - db' n' ⟨htrans, hle⟩
      exact hnext.transitioned hclock (by omega) hle (hinp _)
        (fun _ ↦ hinp (n + 1 + 4) ▸ hahead) htrans
  | commitVersion => exact hallowed.elim

namespace Sample

/-- A Schedule that is enabled, planned, paused and resumed, all before the occurrence. -/
def created : ScheduleTables × ℕ := ({ schedules := [draft], versions := [daily] }, 1)

def afterEnable : ScheduleTables × ℕ := transact secondsClock created (.enable (ctx "k1") "sch-1")

def rowOf (db : ScheduleTables × ℕ) : ScheduleRow := (db.1.schedule "sch-1").getD draft

def afterPass : ScheduleTables × ℕ :=
  transact secondsClock afterEnable (.plan (rowOf afterEnable) 900)

def afterPause : ScheduleTables × ℕ := transact secondsClock afterPass (.pause (ctx "k2") "sch-1")

def afterResume : ScheduleTables × ℕ := transact secondsClock afterPause (.resume (ctx "k3") "sch-1")

end Sample

open Sample

end AgentColab.Schedules
