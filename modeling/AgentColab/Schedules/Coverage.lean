import AgentColab.Schedules.Commands

/-!
# What a planner pass covers

A pass goes through the occurrences that the search returns for the window from the planning cursor
to the horizon, and moves the cursor to the end of the window. The search stops after a number of
occurrences that is capped, and at a distance in days. So an occurrence that comes too late in the
list is not recorded by this pass, and not looked for by the next one.
-/

namespace AgentColab.Schedules

open AgentColab Transaction Transaction.Database List Option

/-! ## Occurrences of a version -/

/-- The wall-clock minute `m` is an executable occurrence of the version, at the instant `u` and
within the validity. -/
structure VersionRow.OccursAt (version : VersionRow) (zone : Zone) (m : ℤ) (u : Time) : Prop where
  matching : version.cronExpression.matchesMinute m = true
  instant : (resolveLocal zone m).1 = some u
  valid : withinValidity version u = true

def VersionRow.keyOf (version : VersionRow) (cfg : ScheduleConfig) (m : ℤ) : String :=
  occurrenceKey cfg.sha256 version.scheduleId version.timezone m

/-- Few enough occurrences precede the minute `m` in the window, and its day is near enough. -/
def VersionRow.Reaches (version : VersionRow) (cfg : ScheduleConfig) (zone : Zone)
    (after until' : Time) (m : ℤ) : Prop :=
  (version.search cfg zone after true).rank m < version.count after until' ∧
    dayOf m ≤ dayOf (version.search cfg zone after true).startLocal + previewHorizonDays

/-- **The condition under which a pass covers its window**: every occurrence is within reach. -/
def VersionRow.Fits (version : VersionRow) (cfg : ScheduleConfig) (zone : Zone)
    (after until' : Time) : Prop :=
  ∀ m u, version.OccursAt zone m u → after < u → u ≤ until' →
    version.Reaches cfg zone after until' m

variable {zone : Zone} {m : ℤ} {u : Time} {db' db₀ : ScheduleTables}

theorem mem_occurrences {cfg : ScheduleConfig} {version : VersionRow} {after until' : Time}
    {occs : List Occurrence} (hzone : cfg.zones version.timezone = some zone)
    (hoccs : occurrences cfg version after until' = .ok occs) (hm : version.OccursAt zone m u)
    (hafter : after < u) (huntil : u ≤ until') (hreach : version.Reaches cfg zone after until' m) :
    (version.search cfg zone after true).occurrence m ∈ occs := by
  set q := version.search cfg zone after true with hq
  have hoccs' : occs = (nextOccurrences q (version.count after until')).takeWhile
      fun occ ↦ occ.utc.all (· ≤ until') := by
    rw [occurrences, loadZone, hzone] at hoccs
    exact (Except.ok.inj hoccs).symm
  have hup : q.upcoming m = true := q.upcoming_eq_true.2 ⟨hm.matching, u, hm.instant, hafter⟩
  have hmem : q.occurrence m ∈ nextOccurrences q (version.count after until') :=
    (mem_nextOccurrences hup).2 hreach
  have hsorted : (nextOccurrences q (version.count after until')).Pairwise
      fun a b ↦ a.localMinute < b.localMinute := by
    rw [nextOccurrences, q.scanDays_eq]
    exact (q.pairwise_entries _ _).sublist (Enumeration.cut_sublist _ _)
  rw [hoccs']
  refine Enumeration.mem_takeWhile hsorted hmem ?_ ?_
  · rw [q.utc_occurrence, show q.zone = zone from rfl, hm.instant]
    simpa using huntil
  · intro occ hocc hlt
    rw [nextOccurrences, q.scanDays_eq] at hocc
    obtain ⟨m', -, -, hentry⟩ := q.mem_entries.1 ((Enumeration.cut_sublist _ _).mem hocc)
    obtain rfl := q.localMinute_of_entry hentry
    rw [q.utc_occurrence]
    cases hu' : (resolveLocal q.zone m').1 with
    | none => rfl
    | some u' =>
      -- occurrences earlier on the wall clock are earlier in time
      have hle : u' < u := resolveLocal_lt hu' hm.instant hlt
      simpa using hle.le.trans huntil

theorem VersionRow.fits_fixed (version : VersionRow) (cfg : ScheduleConfig) (offset : Time)
    {after until' : ℤ} (hmin : version.minIntervalMinutes ≤ 1)
    (hwindow : until' - after ≤ 498 * 60000000) :
    version.Fits cfg (Zone.fixed offset) after until' := by
  intro m u hm hafter huntil
  have hu : u = m * 60000000 - offset := (resolveLocal_eq_some.1 hm.instant).2
  set q := version.search cfg (Zone.fixed offset) after true with hq
  have hstart : q.startLocal = (after + offset) / 60000000 + 1 := rfl
  have hrank : q.rank m ≤ (m - q.startLocal).toNat := by
    rw [← Int.card_Ico]
    exact Finset.card_filter_le _ _
  have hcount : version.count after until' =
      (max 1 (min 500 (-(-(max 0 (until' - after)) / 60000000) + 2))).toNat := by
    rw [VersionRow.count, expectedCount, max_eq_left hmin]
    rfl
  have hafter' : after < m * 60000000 - offset := hu ▸ hafter
  have huntil' : m * 60000000 - offset ≤ until' := hu ▸ huntil
  have hreach : q.rank m < version.count after until' ∧
      dayOf m ≤ dayOf q.startLocal + previewHorizonDays := by
    have hday : ((previewHorizonDays : ℕ) : ℤ) = 1830 := rfl
    rw [hcount, dayOf, dayOf, hday]
    rw [hstart] at hrank ⊢
    omega
  exact hreach

/-! ## Records -/

namespace ScheduleTables

/-- A Run of the Schedule carries the key. -/
def HasRun (db : ScheduleTables) (sid key : String) : Prop :=
  ∃ r ∈ db.runs, r.scheduleId = sid ∧ r.occurrenceKey = some key

/-- The planner has noted that the missed-run policy skips the occurrence with this key. -/
def HasSkip (db : ScheduleTables) (sid key : String) : Prop :=
  ∃ note ∈ db.notes, note.scheduleId = sid ∧ note.occurrenceKey = key ∧
    ∃ policy : MissedRunPolicy, note.reason = "MISSED_SKIPPED_" ++ policy.value

/-- Ids have been generated, an idempotency key made from an occurrence key belongs to that
occurrence, and the current version of a Schedule is its own. -/
structure WellFormed (db : ScheduleTables) (n : ℕ) : Prop where
  ids : ∀ r ∈ db.runs, r.runId < n
  keys : ∀ r ∈ db.runs, ∀ key, r.idempotencyKey = scheduledIdempotencyKey r.scheduleId key →
    r.occurrenceKey = some key
  versionIds : ∀ v ∈ db.versions, v.id < n
  currents : ∀ sid s vid, db.schedule sid = some s → s.currentVersionId = some vid → vid < n
  owns : ∀ sid s vid v, db.schedule sid = some s → s.currentVersionId = some vid →
    db.version vid = some v → v.scheduleId = sid

theorem WellFormed.mono {db : ScheduleTables} {n n' : ℕ} (h : db.WellFormed n) (hle : n ≤ n') :
    db.WellFormed n' where
  ids r hr := (h.ids r hr).trans_le hle
  keys := h.keys
  versionIds v hv := (h.versionIds v hv).trans_le hle
  currents sid s vid hs hvid := (h.currents sid s vid hs hvid).trans_le hle
  owns := h.owns

/-- `db'` has the rows of `db` and, beyond them, notes and new Runs of the version. -/
structure Extends (version : VersionRow) (db db' : ScheduleTables) : Prop where
  schedules : db'.schedules = db.schedules
  versions : db'.versions = db.versions
  runs : ∀ r ∈ db.runs, r ∈ db'.runs
  notes : ∀ x ∈ db.notes, x ∈ db'.notes
  fresh : ∀ r ∈ db'.runs, r ∈ db.runs ∨ r.status = .pending ∧ r.scheduleVersionId = version.id ∧
    r.scheduleId = version.scheduleId

variable {version : VersionRow} {db db' db'' : ScheduleTables} {sid key : String}

theorem Extends.refl (version : VersionRow) (db : ScheduleTables) : Extends version db db :=
  ⟨rfl, rfl, fun _ h ↦ h, fun _ h ↦ h, fun _ h ↦ .inl h⟩

theorem Extends.trans (h : Extends version db db') (h' : Extends version db' db'') :
    Extends version db db'' where
  schedules := h'.schedules.trans h.schedules
  versions := h'.versions.trans h.versions
  runs r hr := h'.runs r (h.runs r hr)
  notes x hx := h'.notes x (h.notes x hx)
  fresh r hr := (h'.fresh r hr).elim (h.fresh r) .inr

theorem Extends.schedule_eq (h : Extends version db db') (sid : String) :
    db'.schedule sid = db.schedule sid := by
  rw [ScheduleTables.schedule, h.schedules, ScheduleTables.schedule]

theorem Extends.version_eq (h : Extends version db db') (vid : ℕ) :
    db'.version vid = db.version vid := by
  rw [ScheduleTables.version, h.versions, ScheduleTables.version]

theorem HasRun.mono (h : db.HasRun sid key) (hruns : ∀ r ∈ db.runs, r ∈ db'.runs) :
    db'.HasRun sid key := by
  obtain ⟨r, hr, hkey⟩ := h
  exact ⟨r, hruns r hr, hkey⟩

theorem HasSkip.mono (h : db.HasSkip sid key) (hnotes : ∀ x ∈ db.notes, x ∈ db'.notes) :
    db'.HasSkip sid key := by
  obtain ⟨x, hx, hkey⟩ := h
  exact ⟨x, hnotes x hx, hkey⟩

end ScheduleTables

open ScheduleTables

/-! ## One insert -/

variable {cfg : ScheduleConfig} {schedule : ScheduleRow} {version : VersionRow}
  {inp : ℕ → ScheduleInput} {db : ScheduleTables} {n : ℕ} {key : String} {now : Time}

/-- What a body of the planner does to the tables, step by step. -/
structure Progress (version : VersionRow) (db₀ db : ScheduleTables) (n : ℕ) : Prop where
  wellFormed : db.WellFormed n
  extends' : Extends version db₀ db

theorem Progress.next (h : Progress version db₀ db n) : Progress version db₀ db (n + 1) :=
  ⟨h.wellFormed.mono (Nat.le_succ n), h.extends'⟩

theorem returns_insertRun (hwf : db.WellFormed n) (hsid : version.scheduleId = schedule.scheduleId)
    (scheduledFor : Time) (localScheduledFor : Option ℤ) (note : Option String) :
    scheduleDatabase.Returns inp
      (insertRun (scheduledRun schedule version key scheduledFor localScheduledFor note))
      (fun _ db' n' ↦ Progress version db db' n' ∧ db'.HasRun schedule.scheduleId key) db n := by
  set row := scheduledRun schedule version key scheduledFor localScheduledFor note with hrow
  refine returns_do (returns_issue.2 ?_)
  have hexec : scheduleDatabase.exec (inp n) n (fun _ ↦ false) db (.insertRun row) =
      execInsertRun n db row := rfl
  rw [hexec]
  by_cases hclash : db.runs.any (row n).conflicts = true
  · rw [execInsertRun, if_pos hclash]
    refine returns_ret.2 ⟨⟨hwf.mono (Nat.le_succ n), .refl _ _⟩, ?_⟩
    obtain ⟨r, hr, hconf⟩ := List.any_eq_true.1 hclash
    have hid : r.runId ≠ n := (hwf.ids r hr).ne
    simp only [RunRow.conflicts, hrow, scheduledRun, Bool.or_eq_true, Bool.and_eq_true,
      decide_eq_true_eq, isSome_some, true_and, isSome_none, false_and,
      Bool.false_eq_true, or_false] at hconf
    obtain hconf | ⟨hs, hidem | hocc⟩ := hconf
    · exact absurd hconf.symm hid
    · refine ⟨r, hr, hs.symm, hwf.keys r hr key ?_⟩
      rw [← hidem, hs]
    · exact ⟨r, hr, hs.symm, hocc.symm⟩
  · rw [execInsertRun, if_neg hclash]
    have hview : scheduleDatabase.view db [.insertRun (row n)] =
        { db with runs := db.runs ++ [row n] } := rfl
    rw [hview]
    refine returns_issue.2 ⟨⟨⟨?_, ?_, ?_, ?_, hwf.owns⟩, ?_⟩, row n,
      mem_append_right _ (by simp), rfl, rfl⟩
    · intro r hr
      rcases mem_append.1 hr with hr | hr
      · have := hwf.ids r hr
        omega
      · rw [mem_singleton.1 hr]
        change n < n + 1 + 1
        omega
    · intro r hr k hk
      rcases mem_append.1 hr with hr | hr
      · exact hwf.keys r hr k hk
      · rw [mem_singleton.1 hr] at hk ⊢
        exact congrArg some (scheduledIdempotencyKey_inj hk)
    · intro v hv
      have := hwf.versionIds v hv
      omega
    · intro sid s vid hs hvid
      have := hwf.currents sid s vid hs hvid
      omega
    · refine ⟨rfl, rfl, fun r hr ↦ mem_append_left _ hr, fun x hx ↦ hx, fun r hr ↦ ?_⟩
      rcases mem_append.1 hr with hr | hr
      · exact .inl hr
      · rw [mem_singleton.1 hr]
        exact .inr ⟨rfl, rfl, hsid.symm⟩

theorem returns_addPlannerNote (version : VersionRow) (hwf : db.WellFormed n) (row : ℕ → NoteRow) :
    scheduleDatabase.Returns inp (ask (.addPlannerNote row))
      (fun _ db' n' ↦ Progress version db db' n' ∧ ∃ note ∈ db'.notes,
        note.scheduleId = (row n).scheduleId ∧ note.occurrenceKey = (row n).occurrenceKey ∧
          note.reason = (row n).reason) db n := by
  refine returns_issue.2 ?_
  have hexec : scheduleDatabase.exec (inp n) n (fun _ ↦ false) db (.addPlannerNote row) =
      execAddPlannerNote db (row n) := rfl
  rw [hexec, execAddPlannerNote]
  split_ifs with hclash
  · obtain ⟨note, hnote, heq⟩ := List.any_eq_true.1 hclash
    simp only [Bool.and_eq_true, decide_eq_true_eq] at heq
    exact ⟨⟨hwf.mono (Nat.le_succ n), .refl _ _⟩, note, hnote, heq.1.1, heq.1.2, heq.2⟩
  · have hview : scheduleDatabase.view db [.insertNote (row n)] =
        { db with notes := db.notes ++ [row n] } := rfl
    rw [hview]
    have hwf' := hwf.mono (Nat.le_succ n)
    refine ⟨⟨⟨hwf'.ids, hwf'.keys, hwf'.versionIds, hwf'.currents, hwf'.owns⟩, ?_⟩, row n,
      mem_append_right _ (by simp), rfl, rfl, rfl⟩
    exact ⟨rfl, rfl, fun r hr ↦ hr, fun x hx ↦ mem_append_left _ hx, fun r hr ↦ .inl hr⟩

/-! ## One pass over one Schedule -/

/-- What the loop leaves of an occurrence within the validity: a Run, or an entry in the list of
missed occurrences if it is past. -/
def Handled (schedule : ScheduleRow) (version : VersionRow) (now : Time) (occ : Occurrence)
    (p : Planned) (db : ScheduleTables) : Prop :=
  ∀ u, occ.utc = some u → withinValidity version u = true →
    u ≤ now ∧ p = .missed ⟨occ.occurrenceKey, u⟩ ∨ db.HasRun schedule.scheduleId occ.occurrenceKey

theorem returns_planOccurrence (hwf : db.WellFormed n)
    (hsid : version.scheduleId = schedule.scheduleId) (occ : Occurrence) :
    scheduleDatabase.Returns inp (planOccurrence schedule version now occ)
      (fun p db' n' ↦ Progress version db db' n' ∧ Handled schedule version now occ p db') db n := by
  rw [planOccurrence]
  cases hutc : occ.utc with
  | none =>
    refine returns_do ((returns_addPlannerNote version hwf _).mono ?_)
    rintro - db' n' ⟨hprog, -⟩
    refine returns_ret.2 ⟨hprog, fun u hu ↦ ?_⟩
    rw [hutc] at hu
    exact absurd hu.symm (some_ne_none u)
  | some utc =>
    dsimp only
    split_ifs with hvalid hpast
    · refine returns_ret.2 ⟨⟨hwf, .refl _ _⟩, fun u hu hval ↦ ?_⟩
      obtain rfl : utc = u := some.inj (hutc.symm.trans hu)
      simp [hval] at hvalid
    · refine returns_ret.2 ⟨⟨hwf, .refl _ _⟩, fun u hu _ ↦ .inl ?_⟩
      obtain rfl : utc = u := some.inj (hutc.symm.trans hu)
      exact ⟨hpast, rfl⟩
    · refine returns_do ((returns_insertRun hwf hsid _ _ _).mono ?_)
      rintro run db' n' ⟨hprog, hrun⟩
      have hdone : ∀ p, Handled schedule version now occ p db' := fun p u _ _ ↦ .inr hrun
      cases run with
      | none => exact returns_ret.2 ⟨hprog, hdone _⟩
      | some => exact returns_ret.2 ⟨hprog, hdone _⟩

theorem Handled.mono {occ : Occurrence} {p : Planned} (h : Handled schedule version now occ p db)
    (hext : Extends version db db') : Handled schedule version now occ p db' :=
  fun u hu hval ↦ (h u hu hval).imp_right fun hrun ↦ hrun.mono hext.runs

theorem Progress.trans {n' : ℕ} (h : Progress version db₀ db n) (h' : Progress version db db' n') :
    Progress version db₀ db' n' :=
  ⟨h'.wellFormed, h.extends'.trans h'.extends'⟩

/-- The occurrence at `m` has a Run, or is not later than `now` and has a note. -/
def Recorded (cfg : ScheduleConfig) (version : VersionRow) (now : Time) (db : ScheduleTables)
    (m : ℤ) (u : Time) : Prop :=
  db.HasRun version.scheduleId (version.keyOf cfg m) ∨
    u ≤ now ∧ db.HasSkip version.scheduleId (version.keyOf cfg m)

theorem Recorded.mono {now' : Time} (h : Recorded cfg version now db m u) (hnow : now ≤ now')
    (hruns : ∀ r ∈ db.runs, r ∈ db'.runs) (hnotes : ∀ x ∈ db.notes, x ∈ db'.notes) :
    Recorded cfg version now' db' m u :=
  h.imp (fun hrun ↦ hrun.mono hruns) fun hskip ↦ ⟨hskip.1.trans hnow, hskip.2.mono hnotes⟩

def cursorCols (windowEnd : Time) (next : Option Time) : ScheduleCols :=
  { lastPlannedUntil := some (some windowEnd), nextRunAt := some next }

/-- **One pass** adds Runs of the version and notes, moves the cursor to the end of the window, and
has recorded every occurrence within reach. -/
theorem returns_planSchedule (hwf : db.WellFormed n)
    (hsid : version.scheduleId = schedule.scheduleId)
    (hzone : cfg.zones version.timezone = some zone) (horizonS : ℤ) :
    scheduleDatabase.Returns inp (planSchedule cfg schedule version horizonS)
      (fun _ db' n' ↦ ∃ mid next, Progress version db mid n' ∧
        db' = mid.apply (.setSchedule schedule.scheduleId
          (cursorCols ((inp n).now + seconds horizonS) next)) ∧ ∀ m u, version.OccursAt zone m u →
          schedule.lastPlannedUntil.getD (inp n).now < u → u ≤ (inp n).now + seconds horizonS →
          version.Reaches cfg zone (schedule.lastPlannedUntil.getD (inp n).now)
            ((inp n).now + seconds horizonS) m →
          Recorded cfg version (inp n).now mid m u) db n := by
  rw [planSchedule]
  refine returns_do (returns_issue.2 ?_)
  change scheduleDatabase.Returns inp _ _ db (n + 1)
  dsimp only [execStatement, read]
  set now := (inp n).now with hnow
  set start := schedule.lastPlannedUntil.getD now with hstart
  have hprog₀ : Progress version db db (n + 1) := ⟨hwf.mono (Nat.le_succ n), .refl _ _⟩
  cases hoccs : occurrences cfg version start (now + seconds horizonS) with
  | error => exact returns_do returns_raise
  | ok =>
    refine returns_do (returns_ret.2 ?_)
    -- the occurrences
    refine returns_do ((returns_collect (P := Handled schedule version now) hprog₀
      fun occ _ s k hs ↦ (returns_planOccurrence hs.wellFormed hsid occ).mono
        fun p s' k' h ↦ ⟨hs.trans h.1, h.2, fun y b hy ↦ hy.mono h.1.extends'⟩).mono ?_)
    rintro planned db₁ n₁ ⟨hprog₁, hhandled, -⟩
    generalize hmissed : List.filterMap _ planned = missed
    cases hplan : planMissedRuns version.missedRunPolicy missed now
        version.backfillWindowSeconds version.backfillLimit with
    | error e => exact returns_do returns_raise
    | ok plan =>
      refine returns_do (returns_ret.2 ?_)
      -- the missed occurrences that get a Run
      refine returns_do ((returns_collect
        (P := fun item _ (s : ScheduleTables) ↦ s.HasRun schedule.scheduleId item.occurrenceKey)
        (I := Progress version db₁) ⟨hprog₁.wellFormed, .refl _ _⟩
        fun item _ s k hs ↦ (returns_insertRun hs.wellFormed hsid _ _ _).mono
          fun run s' k' h ↦ ⟨hs.trans h.1, h.2, fun y b hy ↦ hy.mono h.1.extends'.runs⟩).mono ?_)
      rintro created db₂ n₂ ⟨hprog₂, hcreated, -⟩
      -- the missed occurrences that get a note
      refine returns_do ((returns_forEach (I := fun rest (s : ScheduleTables) k ↦ Progress version db₂ s k ∧
        ∀ item ∈ plan.skipped, item ∈ rest ∨ s.HasSkip schedule.scheduleId item.occurrenceKey)
        ⟨⟨hprog₂.wellFormed, .refl _ _⟩, fun item hitem ↦ .inl hitem⟩ ?_).mono ?_)
      · rintro item rest s k ⟨hs, hrest⟩
        refine returns_do ((returns_addPlannerNote version hs.wellFormed _).mono ?_)
        rintro - s' k' ⟨hs', hnote⟩
        refine returns_ret.2 ⟨hs.trans hs', fun item' hitem' ↦ ?_⟩
        rcases hrest item' hitem' with hmem | hskip
        · rcases mem_cons.1 hmem with rfl | hmem
          · obtain ⟨note, hin, hnsid, hkey, hreason⟩ := hnote
            exact .inr ⟨note, hin, hnsid, hkey, version.missedRunPolicy, hreason⟩
          · exact .inl hmem
        · exact .inr (hskip.mono hs'.extends'.notes)
      rintro - db₃ n₃ ⟨hprog₃, hskipped⟩
      have hall : ∀ m u, version.OccursAt zone m u → start < u → u ≤ now + seconds horizonS →
          version.Reaches cfg zone start (now + seconds horizonS) m →
          Recorded cfg version now db₃ m u := by
        intro m u hm hafter huntil hreach
        have hocc := mem_occurrences hzone hoccs hm hafter huntil hreach
        obtain ⟨p, hp, hhand⟩ := hhandled _ hocc
        rw [Recorded, hsid]
        rcases hhand u hm.instant hm.valid with ⟨hpast, rfl⟩ | hrun
        · have hmiss : (⟨version.keyOf cfg m, u⟩ : MissedOccurrence) ∈ missed :=
            hmissed ▸ mem_filterMap.2 ⟨_, hp, rfl⟩
          rcases (mem_planMissedRuns hplan).2 hmiss with hcreate | hskip
          · obtain ⟨-, -, hrun⟩ := hcreated _ hcreate
            exact .inl (hrun.mono hprog₃.extends'.runs)
          · rcases hskipped _ hskip with hnil | hnote
            · exact absurd hnil not_mem_nil
            · exact .inr ⟨hpast, hnote⟩
        · exact .inl ((hrun.mono hprog₂.extends'.runs).mono hprog₃.extends'.runs)
      -- the warning, the next occurrence and the cursor
      have hwarn : scheduleDatabase.Returns inp (noteWarning schedule plan.warning now)
          (fun _ s k ↦ Progress version db₃ s k) db₃ n₃ := by
        cases plan.warning with
        | none => exact returns_ret.2 ⟨hprog₃.wellFormed, .refl _ _⟩
        | some =>
          exact returns_do ((returns_addPlannerNote version hprog₃.wellFormed _).mono
            fun _ _ _ h ↦ returns_ret.2 h.1)
      refine returns_do (hwarn.mono ?_)
      rintro - db₄ n₄ hprog₄
      cases nextRunAt cfg version now with
      | error => exact returns_do returns_raise
      | ok next =>
        refine returns_do (returns_ret.2 (returns_do (returns_issue.2 (returns_ret.2 ?_))))
        refine ⟨db₄, next, ?_, rfl, fun m u hm hafter huntil hreach ↦ ?_⟩
        · exact (((hprog₁.trans hprog₂).trans hprog₃).trans hprog₄).next
        · exact (hall m u hm hafter huntil hreach).mono le_rfl hprog₄.extends'.runs
            hprog₄.extends'.notes

end AgentColab.Schedules
