import AgentColab.Schedules.PlannerHistory

/-!
# A new version of an ENABLED Schedule

Committing a version changes the current version and `next_run_at`, and neither the planning cursor
nor the Runs that are there. So the first occurrences of the new version are those after the cursor,
and where one has the key of a Run of the old version, the insert does nothing.
-/

namespace AgentColab.Schedules

open AgentColab Transaction Transaction.Database ScheduleTables List Option

variable {cfg : ScheduleConfig} {sid : String} {version : VersionRow} {zone : Zone}
  {clock : ℕ → Time} {inp : ℕ → ScheduleInput} {db db' : ScheduleTables} {n n' : ℕ}

/-! ## The commit -/

/-- What a committed `CommitScheduleVersion` has done. -/
inductive Committed (sid : String) (db db' : ScheduleTables) (n n' : ℕ) : Prop where
  | replayed (same : db' = db) (wellFormed : db.WellFormed n')
  | changed (version : VersionRow) (cols : ScheduleCols) (owner : version.scheduleId = sid)
      (fresh : n ≤ version.id) (late : version.id < n')
      (current : cols.currentVersionId = some (some version.id))
      (status : cols.status = none) (cursor : cols.lastPlannedUntil = none)
      (result : db' = (db.apply (.insertVersion version)).apply (.setSchedule sid cols))

theorem returns_commitVersion (hwf : db.WellFormed n) (ctx : CommandContext)
    (changes : VersionContent → VersionContent) :
    scheduleDatabase.Returns inp (commitVersion cfg ctx sid changes)
      (fun _ db' n' ↦ Committed sid db db' n n') db n := by
  rw [commitVersion]
  refine returns_do (returns_loadSchedule fun s hs ↦ returns_do (returns_currentVersion
    fun vid v hvid hv ↦ returns_do (returns_external fun _ ↦ returns_do (returns_external ?_))))
  rintro (- | replay)
  · by_cases hdisabled : s.status = .disabled
    · rw [if_pos hdisabled]
      exact returns_raise
    rw [if_neg hdisabled]
    refine returns_do (returns_external fun _ ↦ ?_)
    by_cases hsame : changes v.toVersionContent = v.toVersionContent
    · rw [if_pos hsame]
      exact returns_raise
    rw [if_neg hsame]
    refine returns_do (returns_issue.2 (returns_do (returns_external fun _ ↦
      returns_do (returns_issue.2 ?_))))
    -- whatever `next_run_at` becomes, the rest of the body is the same
    have hrest : ∀ next k, n + 8 ≤ k → Committed sid db
        ((db.apply (.insertVersion ⟨changes v.toVersionContent, n + 7, s.scheduleId, v.version + 1⟩)).apply
          (.setSchedule s.scheduleId
            { currentVersionId := some (some (n + 7)),
              name := some (changes v.toVersionContent).name, nextRunAt := next })) n k := by
      intro next k hk
      rw [scheduleId_of_schedule hs]
      exact .changed _ _ rfl (Nat.le_add_right n 7) (show n + 7 < k from hk) rfl rfl rfl rfl
    by_cases hen : s.status = .enabled
    · rw [if_pos hen]
      refine returns_do (returns_do (returns_orRaise fun next _ ↦ returns_ret.2 ?_))
      refine returns_do (returns_issue.2 (returns_do (returns_external fun _ ↦ returns_ret.2 ?_)))
      exact hrest _ _ (by omega)
    · rw [if_neg hen]
      refine returns_do (returns_ret.2 ?_)
      refine returns_do (returns_issue.2 (returns_do (returns_external fun _ ↦ returns_ret.2 ?_)))
      exact hrest _ _ (by omega)
  · exact returns_ret.2 (.replayed rfl (hwf.mono (by omega)))

theorem version_insertVersion {v : VersionRow} (hids : ∀ w ∈ db.versions, w.id < v.id) (vid : ℕ) :
    (db.apply (.insertVersion v)).version vid = if vid = v.id then some v else db.version vid := by
  rw [ScheduleTables.version, ScheduleTables.apply, List.find?_append]
  by_cases hvid : vid = v.id
  · subst hvid
    have hnone : db.versions.find? (·.id = v.id) = none := by simpa using fun w hw ↦ (hids w hw).ne
    rw [hnone]
    simp
  · rw [if_neg hvid, ScheduleTables.version]
    have hlast : [v].find? (·.id = vid) = none := by simp [Ne.symm hvid]
    rw [hlast, or_none]

theorem Committed.wellFormed (hwf : db.WellFormed n) (hn : n ≤ n')
    (h : Committed sid db db' n n') : db'.WellFormed n' := by
  rcases h with ⟨rfl, hwf'⟩ | ⟨v, cols, howner, hfresh, hlate, hcur, -, -, rfl⟩
  · exact hwf'
  have hids : ∀ w ∈ db.versions, w.id < v.id := fun w hw ↦ (hwf.versionIds w hw).trans_le hfresh
  -- a row of a Schedule afterwards: the new version is current, or the row is an old one
  have hrow : ∀ sid' s vid, ((db.apply (.insertVersion v)).apply (.setSchedule sid cols)).schedule
      sid' = some s → s.currentVersionId = some vid → vid = v.id ∧ sid' = sid ∨
        ∃ s', db.schedule sid' = some s' ∧ s'.currentVersionId = some vid := by
    intro sid' s vid hs hvid
    by_cases hsid : sid' = sid
    · subst hsid
      rw [schedule_setSchedule, map_eq_some_iff] at hs
      obtain ⟨s', hs', rfl⟩ := hs
      rw [if_pos (scheduleId_of_schedule hs'), ScheduleRow.set, hcur] at hvid
      exact .inl ⟨(some.inj hvid).symm, rfl⟩
    · rw [schedule_setSchedule_of_ne hsid] at hs
      exact .inr ⟨s, hs, hvid⟩
  refine ⟨fun r hr ↦ (hwf.ids r hr).trans_le hn, hwf.keys, ?_, ?_, ?_⟩
  · intro w hw
    rcases mem_append.1 hw with hw | hw
    · exact (hwf.versionIds w hw).trans_le hn
    · rwa [mem_singleton.1 hw]
  · intro sid' s vid hs hvid
    rcases hrow sid' s vid hs hvid with ⟨rfl, -⟩ | ⟨s', hs', hvid'⟩
    · exact hlate
    · exact (hwf.currents sid' s' vid hs' hvid').trans_le hn
  · intro sid' s vid w hs hvid hw
    have hw' : (db.apply (.insertVersion v)).version vid = some w := hw
    rw [version_insertVersion hids] at hw'
    rcases hrow sid' s vid hs hvid with ⟨rfl, rfl⟩ | ⟨s', hs', hvid'⟩
    · rw [if_pos rfl] at hw'
      rwa [← some.inj hw']
    · have hold := hwf.currents sid' s' vid hs' hvid'
      rw [if_neg (by omega)] at hw'
      exact hwf.owns sid' s' vid w hs' hvid' hw'

/-! ## The passes after it -/

/-- **The new version takes effect after the cursor.** If the new version has no occurrence between
the commit and the cursor as it stands, and no Run of the Schedule has the key of a later one, then
after every history of passes that can go through their windows, each executable occurrence of the
new version between the commit and the cursor has a Run of the new version or a note. -/
theorem commitVersion_takes_effect {s₀ : ScheduleRow} {until₀ : Time} {db₀ db₁ : ScheduleTables}
    {n₀ n₁ : ℕ} {ctx : CommandContext} {changes : VersionContent → VersionContent}
    (hclock : Monotone clock) (hzone : cfg.zones version.timezone = some zone)
    (hwf : db₀.WellFormed n₀) (hrow : db₀.schedule sid = some s₀) (henabled : s₀.status = .enabled)
    (hcursor : s₀.lastPlannedUntil = some until₀)
    (hcommit : scheduleDatabase.serial inp n₀ db₀ (plannerBody cfg (.commitVersion ctx sid changes)) =
      (.ok (), db₁, n₁))
    (hnew : version ∈ db₁.versions ∧ version ∉ db₀.versions)
    (hahead : ∀ m u, version.OccursAt zone m u → clock (n₀ + 5) < u → until₀ < u)
    (hfree : ∀ r ∈ db₀.runs, r.scheduleId = sid → ∀ m u, version.OccursAt zone m u →
      clock (n₀ + 5) < u → r.occurrenceKey ≠ some (version.keyOf cfg m))
    (hhist : scheduleDatabase.History (plannerBody cfg) (PassStep cfg version zone clock) db₁ n₁
      db n) : ∃ s until', db.schedule sid = some s ∧ s.lastPlannedUntil = some until' ∧
      ∀ m u, version.OccursAt zone m u → clock (n₀ + 5) < u → u ≤ until' →
        (∃ r ∈ db.runs, r.scheduleId = sid ∧ r.scheduleVersionId = version.id ∧
          r.occurrenceKey = some (version.keyOf cfg m)) ∨ db.HasSkip sid (version.keyOf cfg m) := by
  have hn : n₀ ≤ n₁ := le_of_serial hcommit
  have hdone := (returns_commitVersion hwf ctx changes).of_serial hcommit
  have hwf₁ := hdone.wellFormed hwf hn
  rcases hdone with ⟨rfl, -⟩ | ⟨v, cols, howner, hfresh, hlate, hcur, hstatus, hplanned, rfl⟩
  · exact absurd hnew.1 hnew.2
  obtain rfl : version = v := by
    rcases mem_append.1 hnew.1 with hold | hv
    · exact absurd hold hnew.2
    · exact mem_singleton.1 hv
  subst howner
  have h₁ : UnderPlanning cfg version zone (fun r ↦ r.scheduleVersionId = version.id)
      (clock (n₀ + 5)) (clock n₁) ((db₀.apply (.insertVersion version)).apply
        (.setSchedule version.scheduleId cols)) n₁ := by
    refine ⟨hwf₁, ?_, ⟨s₀.set cols, until₀, ?_, ?_, ?_, ?_, ?_⟩, ?_⟩
    · have hids : ∀ w ∈ db₀.versions, w.id < version.id :=
        fun w hw ↦ (hwf.versionIds w hw).trans_le hfresh
      exact (version_insertVersion hids version.id).trans (if_pos rfl)
    · have hrow' : (db₀.apply (.insertVersion version)).schedule version.scheduleId = some s₀ := hrow
      exact schedule_setSchedule_self hrow' cols
    · rw [ScheduleRow.set, hstatus]
      exact henabled
    · rw [ScheduleRow.set, hcur]
      rfl
    · rw [ScheduleRow.set, hplanned]
      exact hcursor
    · intro m u hm hafter huntil
      exact absurd huntil (not_le_of_gt (hahead m u hm hafter))
    · intro r hr hrsid m u hm hafter hkey
      exact absurd hkey (hfree r hr hrsid m u hm hafter)
  have h : UnderPlanning cfg version zone (fun r ↦ r.scheduleVersionId = version.id)
      (clock (n₀ + 5)) (clock n) db n := by
    refine History.invariant (I := fun (db : ScheduleTables) n ↦ UnderPlanning cfg version zone
      (fun r ↦ r.scheduleVersionId = version.id) (clock (n₀ + 5)) (clock n) db n) h₁ ?_ ?_ hhist
    · exact fun db n n' hle h ↦ h.mono (hclock hle) hle
    · exact fun db n call inp h hstep ↦ h.step hclock hzone (fun r _ hr ↦ hr) hstep
  obtain ⟨s, until', hs, -, -, hs', hcov⟩ := h.planned
  refine ⟨s, until', hs, hs', fun m u hm hafter huntil ↦ ?_⟩
  rcases hcov m u hm hafter huntil with ⟨r, hr, hrsid, hkey⟩ | ⟨-, hskip⟩
  · exact .inl ⟨r, hr, hrsid, h.runs r hr hrsid m u hm hafter hkey, hkey⟩
  · exact .inr hskip

namespace Sample

def earlier (content : VersionContent) : VersionContent :=
  { content with cronExpression := dailyAt 5 0 (by decide) (Nat.zero_lt_succ 23) }

def unplanned : ScheduleTables × ℕ := ({ schedules := [enabled], versions := [daily] }, 1)

def planned : ScheduleTables × ℕ := transact secondsClock unplanned (.plan enabled 900)

def change (db : ScheduleTables × ℕ) : ScheduleTables × ℕ :=
  transact secondsClock db (.commitVersion (ctx "k1") "sch-1" earlier)

def newVersion (db : ScheduleTables × ℕ) : VersionRow :=
  ((change db).1.versions.getLast?).getD daily

def replanned (db : ScheduleTables × ℕ) : ScheduleTables × ℕ :=
  transact secondsClock (change db) (.plan (rowOf (change db)) 900)

end Sample

open Sample

open Sample (change planned)

theorem newVersion_mem {db : ScheduleTables × ℕ}
    (hlast : (change db).1.versions.getLast?.isSome = true)
    (hids : ∀ v ∈ db.1.versions, v.id ≠ (newVersion db).id) :
    newVersion db ∈ (change db).1.versions ∧ newVersion db ∉ db.1.versions := by
  refine ⟨?_, fun h ↦ hids _ h rfl⟩
  obtain ⟨v, hv⟩ := isSome_iff_exists.1 hlast
  rw [newVersion, hv]
  exact mem_of_getLast? hv

set_option maxRecDepth 40000 in
theorem commitVersion_takes_effect_unplanned :
    let version := newVersion unplanned
    let db := (replanned unplanned).1
    ∃ s until', db.schedule "sch-1" = some s ∧ s.lastPlannedUntil = some until' ∧
      ∀ m u, version.OccursAt (Zone.fixed 0) m u → secondsClock 6 < u → u ≤ until' →
        (∃ r ∈ db.runs, r.scheduleId = "sch-1" ∧ r.scheduleVersionId = version.id ∧
          r.occurrenceKey = some (version.keyOf Sample.cfg m)) ∨
          db.HasSkip "sch-1" (version.keyOf Sample.cfg m) := by
  have hcommit : scheduleDatabase.serial (showing secondsClock) 1
      unplanned.1 (plannerBody Sample.cfg (.commitVersion (ctx "k1") "sch-1" earlier)) =
      (.ok (), (change unplanned).1, (change unplanned).2) :=
    serial_of_isOk (by decide)
  have hmin : (newVersion unplanned).minIntervalMinutes ≤ 1 := by decide
  have hwindow : secondsClock ((change unplanned).2 + 1) + seconds 900 -
      (rowOf (change unplanned)).lastPlannedUntil.getD
        (secondsClock ((change unplanned).2 + 1)) ≤ 498 * 60000000 := by
    decide
  have henabled : OnEnabled (change unplanned).1 (.plan (rowOf (change unplanned)) 900) :=
    ⟨by decide, by decide⟩
  have hpass : PassStep Sample.cfg (newVersion unplanned) (Zone.fixed 0)
      secondsClock (change unplanned).1 (change unplanned).2
      (.plan (rowOf (change unplanned)) 900)
      (showing secondsClock) :=
    ⟨fun _ ↦ rfl, henabled, _, _, rfl, fun _ ↦ VersionRow.fits_fixed _ _ 0 hmin hwindow⟩
  have hnew : newVersion unplanned ∈ (change unplanned).1.versions ∧
      newVersion unplanned ∉ unplanned.1.versions := newVersion_mem (by decide) (by decide)
  have hzone : Sample.cfg.zones (newVersion unplanned).timezone = some (Zone.fixed 0) := by
    have htz : (newVersion unplanned).timezone = "UTC" := by decide
    rw [htz]
    rfl
  have hhist : scheduleDatabase.History (plannerBody Sample.cfg)
      (PassStep Sample.cfg (newVersion unplanned) (Zone.fixed 0) secondsClock)
      (change unplanned).1 (change unplanned).2
      (replanned unplanned).1 (replanned unplanned).2 :=
    .step _ _ .refl hpass
  exact commitVersion_takes_effect monotone_secondsClock hzone
    (Sample.wellFormed enabled daily 1 rfl (by decide) rfl) rfl rfl rfl hcommit hnew
    (fun m u _ hu ↦ (by decide : (0 : ℤ) < secondsClock 6).trans hu)
    (fun r hr ↦ absurd hr not_mem_nil) hhist

set_option maxRecDepth 40000 in
/-- The change comes after a pass that has planned a quarter of an hour ahead, so no later pass
looks for the new occurrence at five past. -/
theorem commitVersion_takes_effect_lost :
    ∃ version db n, scheduleDatabase.serial (showing secondsClock) planned.2
        planned.1 (plannerBody Sample.cfg (.commitVersion (ctx "k1") "sch-1" earlier)) =
        (.ok (), (change planned).1, (change planned).2) ∧
      (version ∈ (change planned).1.versions ∧ version ∉ planned.1.versions) ∧
      scheduleDatabase.History (plannerBody Sample.cfg)
        (fun db _ call inp ↦ OnClock secondsClock inp ∧ OnEnabled db call)
        (change planned).1 (change planned).2 db n ∧
      ∃ s until', db.schedule "sch-1" = some s ∧ s.lastPlannedUntil = some until' ∧
        ∃ m u, version.OccursAt (Zone.fixed 0) m u ∧ secondsClock (planned.2 + 5) < u ∧ u ≤ until' ∧
          (¬∃ r ∈ db.runs, r.scheduleId = "sch-1" ∧ r.scheduleVersionId = version.id ∧
            r.occurrenceKey = some (version.keyOf Sample.cfg m)) ∧
          ¬db.HasSkip "sch-1" (version.keyOf Sample.cfg m) := by
  have hcommit : scheduleDatabase.serial (showing secondsClock) planned.2
      planned.1 (plannerBody Sample.cfg (.commitVersion (ctx "k1") "sch-1" earlier)) =
      (.ok (), (change planned).1, (change planned).2) :=
    serial_of_isOk (by decide)
  have hnew : newVersion planned ∈ (change planned).1.versions ∧
      newVersion planned ∉ planned.1.versions := newVersion_mem (by decide) (by decide)
  have henabled : OnEnabled (change planned).1 (.plan (rowOf (change planned)) 900) :=
    ⟨by decide, by decide⟩
  have hhist : scheduleDatabase.History (plannerBody Sample.cfg)
      (fun db _ call inp ↦ OnClock secondsClock inp ∧ OnEnabled db call)
      (change planned).1 (change planned).2
      (replanned planned).1 (replanned planned).2 :=
    .step _ _ .refl ⟨fun _ ↦ rfl, henabled⟩
  have hcursor : ((replanned planned).1.schedule "sch-1").bind (·.lastPlannedUntil) =
      some 1070000000 := by
    decide
  obtain ⟨s, hs, hcursor⟩ := bind_eq_some_iff.1 hcursor
  have hold : ∀ r ∈ (replanned planned).1.runs, r.scheduleVersionId ≠ (newVersion planned).id := by
    decide
  have hnotes : (replanned planned).1.notes = [] := by decide
  refine ⟨_, _, _, hcommit, hnew, hhist, s, 1070000000, hs, hcursor, 5, 300000000,
    ⟨by decide, by decide, by decide⟩, by decide, by decide, ?_, ?_⟩
  · rintro ⟨r, hr, -, hvid, -⟩
    exact hold r hr hvid
  · rintro ⟨x, hx, -⟩
    rw [hnotes] at hx
    exact absurd hx not_mem_nil

end AgentColab.Schedules
