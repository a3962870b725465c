import AgentColab.Schedules.Statements

/-!
# The occurrence planner

For every ENABLED Schedule the planner materializes the occurrences of the current version up to the
planning horizon. Past occurrences go through the missed-run policy, and a wall-clock minute that
does not exist is recorded as a note.

The lengths of windows are floats in the code; the quotient is only rounded up here.
-/

namespace AgentColab.Schedules

open AgentColab Transaction

/-- What the scheduler gets from its surroundings and never changes: the hash function and the
timezone database. -/
structure ScheduleConfig where
  sha256 : Digest
  zones : String → Option Zone

def ask (o : Op) : Body (Res o) := Prog.issue o

def orRaise {α : Type} : Except ExecError α → Body α
  | .ok a => pure a
  | .error e => throw e

def orContract {α : Type} : Except ScheduleContractError α → Body α
  | .ok a => pure a
  | .error e => throw (.contract e)

/-- `DEFAULT_HORIZON_S` -/
def defaultHorizonS : ℤ := 900

/-- `MAX_OCCURRENCES_PER_TICK` -/
def maxOccurrencesPerTick : ℤ := 500

structure PlanResult where
  scheduleId : String
  created : List ℕ := []
  missedCreated : List ℕ := []
  skipped : ℕ := 0
  gaps : ℕ := 0
  warning : Option String := none
  nextRunAt : Option Time := none

/-- How many occurrences the search is asked for. -/
def expectedCount (window : Time) (minIntervalMinutes : ℤ) : ℕ :=
  let per := seconds (max 1 minIntervalMinutes * 60)
  (max 1 (min maxOccurrencesPerTick (-(-window / per) + 2))).toNat

/-- `load_zone` -/
def loadZone (cfg : ScheduleConfig) (timezone : String) : Except ExecError Zone :=
  match cfg.zones timezone with
  | some zone => .ok zone
  | none => .error (.cron "TIMEZONE_INVALID" timezone)

def VersionRow.search (version : VersionRow) (cfg : ScheduleConfig) (zone : Zone)
    (afterUtc : Time) (includeGaps : Bool) : Search where
  cron := version.cronExpression
  zone := zone
  timezone := version.timezone
  scheduleId := version.scheduleId
  sha256 := cfg.sha256
  afterUtc := afterUtc
  includeGaps := includeGaps

/-- The number of occurrences asked for between two instants. -/
def VersionRow.count (version : VersionRow) (after until' : Time) : ℕ :=
  expectedCount (max 0 (until' - after)) version.minIntervalMinutes

/-- Executable occurrences and DST gaps in `(after, until']`. -/
def occurrences (cfg : ScheduleConfig) (version : VersionRow) (after until' : Time) :
    Except ExecError (List Occurrence) := do
  let zone ← loadZone cfg version.timezone
  -- a gap has no instant, and does not end the loop
  return (nextOccurrences (version.search cfg zone after true) (version.count after until')).takeWhile
    fun occ ↦ occ.utc.all (· ≤ until')

def withinValidity (version : VersionRow) (when' : Time) : Bool :=
  !(version.startsAt.any (when' < ·)) && !(version.endsAt.any (· < when'))

/-- `insert_run`: the new row, or `none` when a conflicting row exists. -/
def insertRun (row : ℕ → RunRow) : Body (Option RunRow) := do
  match ← ask (.insertRun row) with
  | none => return none
  | some rid => ask (.loadRun rid false)

def scheduledRun (schedule : ScheduleRow) (version : VersionRow) (key : String)
    (scheduledFor : Time) (localScheduledFor : Option ℤ) (note : Option String) (n : ℕ) :
    RunRow where
  runId := n
  workspaceId := schedule.workspaceId
  scheduleId := schedule.scheduleId
  scheduleVersionId := version.id
  runKind := .scheduled
  occurrenceKey := some key
  scheduledFor := scheduledFor
  localScheduledFor := localScheduledFor
  status := .pending
  idempotencyKey := scheduledIdempotencyKey schedule.scheduleId key
  plannerNote := note

/-- What becomes of one occurrence in a pass. -/
inductive Planned where
  | gap
  | outside
  | missed (m : MissedOccurrence)
  | created (runId : ℕ)
  | exists'

/-- The note of a wall-clock minute that does not exist. -/
def gapNote (schedule : ScheduleRow) (occ : Occurrence) (now : Time) : NoteRow where
  scheduleId := schedule.scheduleId
  occurrenceKey := occ.occurrenceKey
  reason := "DST_GAP"
  localTime := some (wallMinute occ.localMinute)
  detail := some "non-existent local time; occurrence skipped"
  notedAt := now

def planOccurrence (schedule : ScheduleRow) (version : VersionRow) (now : Time)
    (occ : Occurrence) : Body Planned :=
  match occ.utc with
  | none => do
    let _ ← ask (.addPlannerNote fun _ ↦ gapNote schedule occ now)
    return .gap
  | some utc =>
    if !withinValidity version utc then return .outside
    else if utc ≤ now then return .missed ⟨occ.occurrenceKey, utc⟩
    else do
      let run ← insertRun
        (scheduledRun schedule version occ.occurrenceKey utc (some occ.localMinute) none)
      match run with
      | some run => return .created run.runId
      | none => return .exists'

/-- The wall-clock minutes of the occurrences within the validity, by key. -/
def localOf (version : VersionRow) (occs : List Occurrence) (key : String) : Option ℤ :=
  ((occs.filter fun occ ↦ occ.utc.any (withinValidity version) && occ.occurrenceKey = key).map
    (·.localMinute)).getLast?

/-- The Run of a missed occurrence keeps the original instant. -/
def createMissed (schedule : ScheduleRow) (version : VersionRow) (occs : List Occurrence)
    (item : MissedOccurrence) : Body (Option RunRow) :=
  insertRun (scheduledRun schedule version item.occurrenceKey item.scheduledFor
    (localOf version occs item.occurrenceKey)
    (some ("MISSED_" ++ version.missedRunPolicy.value)))

/-- The note of a missed occurrence that the policy leaves out. -/
def skippedNote (schedule : ScheduleRow) (version : VersionRow) (warning : Option String)
    (now : Time) (item : MissedOccurrence) : NoteRow where
  scheduleId := schedule.scheduleId
  occurrenceKey := item.occurrenceKey
  reason := "MISSED_SKIPPED_" ++ version.missedRunPolicy.value
  scheduledFor := some item.scheduledFor
  detail := warning
  notedAt := now

/-- The note of a truncated backfill, under a key of its own. -/
def warningNote (schedule : ScheduleRow) (warning : String) (now : Time) (n : ℕ) : NoteRow where
  scheduleId := schedule.scheduleId
  occurrenceKey := "warn-" ++ toString n
  reason := "BACKFILL_TRUNCATED"
  detail := some warning
  notedAt := now

def noteWarning (schedule : ScheduleRow) (warning : Option String) (now : Time) : Body Unit :=
  match warning with
  | some warning => do
    let _ ← ask (.addPlannerNote (warningNote schedule warning now))
  | none => pure ()

/-- The first occurrence of a version after an instant. -/
def nextRunAt (cfg : ScheduleConfig) (version : VersionRow) (after : Time) :
    Except ExecError (Option Time) := do
  let zone ← loadZone cfg version.timezone
  return (nextOccurrences (version.search cfg zone after false) 1).head?.bind (·.utc)

/-- Materialize one Schedule's due and upcoming occurrences. -/
def planSchedule (cfg : ScheduleConfig) (schedule : ScheduleRow) (version : VersionRow)
    (horizonS : ℤ) : Body PlanResult := do
  let now ← ask .now
  let windowEnd := now + seconds horizonS
  let start := schedule.lastPlannedUntil.getD now
  let occs ← orRaise (occurrences cfg version start windowEnd)
  let planned ← Prog.collect occs (planOccurrence schedule version now)
  let missed := planned.filterMap fun p ↦ match p with
    | .missed m => some m
    | _ => none
  let plan ← orContract (planMissedRuns version.missedRunPolicy missed now
    version.backfillWindowSeconds version.backfillLimit)
  let missedCreated ← Prog.collect plan.toCreate (createMissed schedule version occs)
  Prog.forEach plan.skipped fun item ↦ do
    let _ ← ask (.addPlannerNote fun _ ↦ skippedNote schedule version plan.warning now item)
  noteWarning schedule plan.warning now
  let next ← orRaise (nextRunAt cfg version now)
  ask (.updateSchedule schedule.scheduleId
    { lastPlannedUntil := some (some windowEnd), nextRunAt := some next })
  return {
    scheduleId := schedule.scheduleId
    created := planned.filterMap fun p ↦ match p with
      | .created rid => some rid
      | _ => none
    missedCreated := missedCreated.filterMap fun run ↦ run.map (·.runId)
    skipped := plan.skipped.length
    gaps := planned.countP fun p ↦ match p with
      | .gap => true
      | _ => false
    warning := plan.warning
    nextRunAt := next }

def planCurrentVersion (cfg : ScheduleConfig) (horizonS : ℤ) (schedule : ScheduleRow) :
    Body (Option PlanResult) := do
  match schedule.currentVersionId with
  | none => return none
  | some vid =>
    match ← ask (.loadVersion vid) with
    | none => return none
    | some version => return some (← planSchedule cfg schedule version horizonS)

def planWorkspace (cfg : ScheduleConfig) (workspaceId : String) (horizonS : ℤ) :
    Body (List PlanResult) := do
  let schedules ← ask (.enabledSchedules workspaceId)
  let results ← Prog.collect schedules (planCurrentVersion cfg horizonS)
  return results.filterMap id

/-- The number of Runs created in this tick. -/
def materialize (cfg : ScheduleConfig) (workspaceId : String) (horizonS : ℤ) : Body ℕ := do
  let results ← planWorkspace cfg workspaceId horizonS
  return (results.map fun r ↦ r.created.length + r.missedCreated.length).sum

end AgentColab.Schedules
