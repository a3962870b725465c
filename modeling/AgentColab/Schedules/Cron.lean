import AgentColab.Enumeration.Cut
import AgentColab.Schedules.Occurrence
import Mathlib

/-!
# Cron expressions and their occurrences

A parsed five-field expression, the mapping of wall-clock minutes to instants, and the search for
the next occurrences.

Of a zone is assumed that, of a reading the clock does show, fold 0 names an instant not later than
any at which the clock shows that reading or a later one, and fold 1 an instant showing the same
reading.
-/

namespace AgentColab.Schedules

open AgentColab Enumeration List Option

/-! ## Zones -/

/-- **A time zone.** The wall clock is in microseconds since 1970-01-01T00:00 local time. -/
structure Zone where
  /-- `t.astimezone(zone).replace(tzinfo=None)` -/
  toLocal : Time → Time
  /-- `local.replace(tzinfo=zone, fold=fold).astimezone(UTC)`, with `true` for fold 1. -/
  toUtc : Bool → Time → Time
  /-- Both folds of a reading that exists show it. -/
  fold_one : ∀ x, toLocal (toUtc false x) = x → toLocal (toUtc true x) = x
  /-- Fold 0 is the first instant at which the clock has come as far as the reading. -/
  first : ∀ x t, toLocal (toUtc false x) = x → x ≤ toLocal t → toUtc false x ≤ t

/-- A zone whose wall clock is ahead of UTC by a fixed amount. -/
def Zone.fixed (offset : Time) : Zone where
  toLocal t := t + offset
  toUtc _ x := x - offset
  fold_one _ h := h
  first x t _ h := by
    rw [sub_le_iff_le_add]
    exact h

def startOf (m : ℤ) : Time := m * 60000000

/-- Why a wall-clock minute is special. -/
inductive LocalReason where
  | dstGap
  | dstFold
deriving DecidableEq

/-- The instant of a wall-clock minute: none in a gap, the first one of a minute shown twice. -/
def resolveLocal (zone : Zone) (m : ℤ) : Option Time × Option LocalReason :=
  let utc0 := zone.toUtc false (startOf m)
  if zone.toLocal utc0 ≠ startOf m then (none, some .dstGap)
  else
    let utc1 := zone.toUtc true (startOf m)
    if utc1 ≠ utc0 then (some (min utc0 utc1), some .dstFold) else (some utc0, none)

variable {zone : Zone} {m : ℤ} {u : Time}

/-- A minute has an instant exactly when the clock shows it, and then it is the first one. -/
theorem resolveLocal_eq_some : (resolveLocal zone m).1 = some u ↔
      zone.toLocal (zone.toUtc false (startOf m)) = startOf m ∧ u = zone.toUtc false (startOf m) := by
  by_cases hgap : zone.toLocal (zone.toUtc false (startOf m)) = startOf m
  · have hle : zone.toUtc false (startOf m) ≤ zone.toUtc true (startOf m) :=
      zone.first _ _ hgap (zone.fold_one _ hgap).ge
    have hutc : (resolveLocal zone m).1 = some (zone.toUtc false (startOf m)) := by
      by_cases h : zone.toUtc true (startOf m) = zone.toUtc false (startOf m)
      · simp [resolveLocal, hgap, h]
      · simp [resolveLocal, hgap, h, hle]
    rw [hutc]
    simp [hgap, eq_comm]
  · simp [resolveLocal, hgap]

theorem toLocal_of_resolveLocal (h : (resolveLocal zone m).1 = some u) :
    zone.toLocal u = startOf m := by
  obtain ⟨hshown, rfl⟩ := resolveLocal_eq_some.1 h
  exact hshown

theorem le_of_resolveLocal {t : Time} (h : (resolveLocal zone m).1 = some u)
    (ht : startOf m ≤ zone.toLocal t) : u ≤ t := by
  obtain ⟨hshown, rfl⟩ := resolveLocal_eq_some.1 h
  exact zone.first _ _ hshown ht

/-- **Occurrences come in the order of their minutes.** -/
theorem resolveLocal_lt {m' : ℤ} {u' : Time} (h : (resolveLocal zone m).1 = some u)
    (h' : (resolveLocal zone m').1 = some u') (hlt : m < m') : u < u' := by
  have hstart : startOf m < startOf m' := by
    rw [startOf, startOf]
    exact Int.mul_lt_mul_of_pos_right hlt (by decide)
  have hle : u ≤ u' := le_of_resolveLocal h ((toLocal_of_resolveLocal h').symm ▸ hstart.le)
  refine lt_of_le_of_ne hle ?_
  rintro rfl
  exact hstart.ne ((toLocal_of_resolveLocal h).symm.trans (toLocal_of_resolveLocal h'))

/-! ## Expressions -/

/-- **A parsed expression.** Each field is the list of its values in increasing order. -/
structure CronExpression where
  expression : String
  minutes : List ℕ
  hours : List ℕ
  daysOfMonth : List ℕ
  months : List ℕ
  daysOfWeek : List ℕ
  domRestricted : Bool
  dowRestricted : Bool
  minutes_lt : ∀ m ∈ minutes, m < 60
  hours_lt : ∀ h ∈ hours, h < 24
  minutes_sorted : minutes.Pairwise (· < ·)
  hours_sorted : hours.Pairwise (· < ·)
deriving DecidableEq

namespace CronExpression

variable (cron : CronExpression)

/-- Whether a day number is a matching day; Sunday is day of week 0. When both day fields are
restricted, either of them suffices. -/
def dayMatches (day : ℤ) : Bool :=
  let date := Calendar.Date.ofDays day
  let domOk := cron.daysOfMonth.contains date.day
  let dowOk := cron.daysOfWeek.contains ((day + 4) % 7).toNat
  cron.months.contains date.month &&
    match cron.domRestricted, cron.dowRestricted with
    | true, true => domOk || dowOk
    | true, false => domOk
    | false, true => dowOk
    | false, false => true

def matchesMinute (m : ℤ) : Bool :=
  cron.minutes.contains (timeOfDay m % 60) && cron.hours.contains (timeOfDay m / 60) &&
    cron.dayMatches (dayOf m)

/-- `sorted(h * 60 + m for h in self.hours for m in self.minutes)` -/
def timesOfDay : List ℕ :=
  (cron.hours.flatMap fun h ↦ cron.minutes.map fun m ↦ h * 60 + m).insertionSort (· ≤ ·)

variable {tod : ℕ}

theorem mem_timesOfDay :
    tod ∈ cron.timesOfDay ↔ tod % 60 ∈ cron.minutes ∧ tod / 60 ∈ cron.hours := by
  rw [timesOfDay, (perm_insertionSort _ _).mem_iff, mem_flatMap]
  constructor
  · rintro ⟨h, hh, htod⟩
    obtain ⟨m, hm, rfl⟩ := List.mem_map.1 htod
    have hlt := cron.minutes_lt m hm
    rw [show (h * 60 + m) % 60 = m by omega, show (h * 60 + m) / 60 = h by omega]
    exact ⟨hm, hh⟩
  · rintro ⟨hm, hh⟩
    exact ⟨tod / 60, hh, List.mem_map.2 ⟨tod % 60, hm, by omega⟩⟩

theorem lt_of_mem_timesOfDay (h : tod ∈ cron.timesOfDay) : tod < 1440 := by
  have hh := cron.hours_lt _ (cron.mem_timesOfDay.1 h).2
  omega

theorem nodup_timesOfDay : cron.timesOfDay.Nodup := by
  rw [timesOfDay, (perm_insertionSort _ _).nodup_iff, nodup_flatMap]
  constructor
  · intro h _
    refine List.Nodup.map ?_ (cron.minutes_sorted.imp ne_of_lt)
    intro a b hab
    have hab' : h * 60 + a = h * 60 + b := hab
    omega
  · refine (cron.hours_sorted).imp ?_
    intro h h' hlt x hx hx'
    obtain ⟨m, hm, rfl⟩ := List.mem_map.1 hx
    obtain ⟨m', hm', heq⟩ := List.mem_map.1 hx'
    have hm60 := cron.minutes_lt m hm
    have hm60' := cron.minutes_lt m' hm'
    omega

theorem pairwise_timesOfDay : cron.timesOfDay.Pairwise (· < ·) :=
  ((pairwise_insertionSort _ _).and cron.nodup_timesOfDay).imp fun h ↦ lt_of_le_of_ne h.1 h.2

/-- A minute matches when its day does and its time is one of the times of the day. -/
theorem matchesMinute_eq_true : cron.matchesMinute m = true ↔
    timeOfDay m ∈ cron.timesOfDay ∧ cron.dayMatches (dayOf m) = true := by
  rw [mem_timesOfDay, matchesMinute]
  simp [and_assoc]

end CronExpression

/-! ## The search -/

structure Occurrence where
  /-- The wall-clock minute in the timezone of the Schedule. -/
  localMinute : ℤ
  /-- `none` for a DST gap. -/
  utc : Option Time
  occurrenceKey : String
  reason : Option LocalReason
deriving DecidableEq

/-- `Occurrence.executable` -/
def Occurrence.executable (occ : Occurrence) : Bool := occ.utc.isSome

/-- `PREVIEW_HORIZON_DAYS` -/
def previewHorizonDays : ℕ := 366 * 5

/-- What one search is about: the expression, the zone under its name, and the start. -/
structure Search where
  cron : CronExpression
  zone : Zone
  timezone : String
  scheduleId : String
  sha256 : Digest
  afterUtc : Time
  includeGaps : Bool

namespace Search

variable (q : Search)

/-- The first wall-clock minute after the start. -/
def startLocal : ℤ := q.zone.toLocal q.afterUtc / 60000000 + 1

def occurrence (m : ℤ) : Occurrence :=
  let (utc, reason) := resolveLocal q.zone m
  ⟨m, utc, occurrenceKey q.sha256 q.scheduleId q.timezone m, reason⟩

/-- The `for` loop over the times of one day, with the number of executable occurrences still
wanted. -/
def scanTimes (day : ℤ) : List ℕ → ℕ → List Occurrence × ℕ
  | [], left => ([], left)
  | tod :: times, left =>
    let m := day * 1440 + tod
    if m < q.startLocal then scanTimes day times left
    else match (resolveLocal q.zone m).1 with
      | none =>
        let (out, left') := scanTimes day times left
        (if q.includeGaps then q.occurrence m :: out else out, left')
      | some utc =>
        if utc ≤ q.afterUtc then scanTimes day times left
        else if left ≤ 1 then ([q.occurrence m], 0)
        else
          let (out, left') := scanTimes day times (left - 1)
          (q.occurrence m :: out, left')

/-- The `while` loop over the days. -/
def scanDays : ℕ → ℤ → ℕ → List Occurrence
  | 0, _, _ => []
  | days + 1, day, left =>
    if left = 0 then []
    else if q.cron.dayMatches day then
      let (out, left') := q.scanTimes day q.cron.timesOfDay left
      out ++ scanDays days (day + 1) left'
    else scanDays days (day + 1) left

end Search

/-- The next `count` executable occurrences strictly after the start, with the gaps among them. -/
def nextOccurrences (q : Search) (count : ℕ) : List Occurrence :=
  q.scanDays (previewHorizonDays + 1) (dayOf q.startLocal) count

namespace Search

variable (q : Search)

/-! ## What is found -/

def entry (m : ℤ) : Option Occurrence :=
  if m < q.startLocal then none
  else match (resolveLocal q.zone m).1 with
    | none => if q.includeGaps then some (q.occurrence m) else none
    | some utc => if utc ≤ q.afterUtc then none else some (q.occurrence m)

/-- Everything that a search without a limit would find on one day. -/
def dayEntries (day : ℤ) : List Occurrence :=
  if q.cron.dayMatches day then
    q.cron.timesOfDay.filterMap fun tod : ℕ ↦ q.entry (day * 1440 + tod)
  else []

/-- Everything that a search without a limit would find in a number of days. -/
def entries : ℕ → ℤ → List Occurrence
  | 0, _ => []
  | days + 1, day => q.dayEntries day ++ entries days (day + 1)

@[simp] theorem localMinute_occurrence (m : ℤ) : (q.occurrence m).localMinute = m := rfl

@[simp] theorem utc_occurrence (m : ℤ) : (q.occurrence m).utc = (resolveLocal q.zone m).1 := rfl

theorem executable_occurrence (m : ℤ) :
    (q.occurrence m).executable = (resolveLocal q.zone m).1.isSome := rfl

theorem scanTimes_eq (day : ℤ) (times : List ℕ) {left : ℕ} (hleft : 0 < left) :
    q.scanTimes day times left =
      (cut Occurrence.executable left (times.filterMap fun tod : ℕ ↦ q.entry (day * 1440 + tod)),
        left - (times.filterMap fun tod : ℕ ↦ q.entry (day * 1440 + tod)).countP
          Occurrence.executable) := by
  induction times generalizing left with
  | nil => simp [scanTimes]
  | cons tod _ ih =>
    obtain ⟨n, rfl⟩ : ∃ n, left = n + 1 := ⟨left - 1, by omega⟩
    rw [scanTimes, filterMap_cons]
    by_cases hstart : day * 1440 + tod < q.startLocal
    · rw [if_pos hstart, ih hleft, entry, if_pos hstart]
    · rw [if_neg hstart, entry, if_neg hstart]
      have hexec := q.executable_occurrence (day * 1440 + tod)
      cases hu : (resolveLocal q.zone (day * 1440 + tod)).1 with
      | none =>
        rw [hu] at hexec
        by_cases hgaps : q.includeGaps = true
        · simp only [hgaps, ↓reduceIte]
          rw [ih hleft, cut_cons_of_neg hexec, countP_cons_of_neg (by simp [hexec])]
        · simp only [hgaps, Bool.false_eq_true, ↓reduceIte]
          rw [ih hleft]
      | some utc =>
        rw [hu] at hexec
        by_cases hafter : utc ≤ q.afterUtc
        · simp only [hafter, ↓reduceIte]
          rw [ih hleft]
        · simp only [hafter, ↓reduceIte]
          rw [cut_cons_of_pos hexec, countP_cons_of_pos hexec]
          by_cases hlast : n = 0
          · simp [hlast]
          · rw [if_neg (by omega), Nat.add_sub_cancel, ih (by omega), Nat.add_sub_add_right]

theorem scanDays_eq (days : ℕ) (day : ℤ) (left : ℕ) :
    q.scanDays days day left = cut Occurrence.executable left (q.entries days day) := by
  induction days generalizing day left with
  | zero => rw [scanDays, entries, cut_nil]
  | succ _ ih =>
    rw [scanDays, entries, cut_append]
    by_cases hleft : left = 0
    · simp [hleft]
    · rw [if_neg hleft, dayEntries]
      by_cases hday : q.cron.dayMatches day = true
      · rw [if_pos hday, if_pos hday, q.scanTimes_eq day _ (Nat.pos_of_ne_zero hleft)]
        exact congrArg _ (ih _ _)
      · rw [if_neg hday, if_neg hday, ih]
        simp

variable {day m : ℤ} {occ : Occurrence}

theorem localMinute_of_entry (h : q.entry m = some occ) : occ = q.occurrence m := by
  rw [entry] at h
  by_cases hstart : m < q.startLocal
  · rw [if_pos hstart] at h
    exact absurd h (some_ne_none _).symm
  · rw [if_neg hstart] at h
    cases hu : (resolveLocal q.zone m).1 with
    | none =>
      simp only [hu, ite_none_right_eq_some, some.injEq] at h
      exact h.2.symm
    | some =>
      simp only [hu, ite_none_left_eq_some, some.injEq] at h
      exact h.2.symm

theorem mem_dayEntries : occ ∈ q.dayEntries day ↔
    ∃ m, q.cron.matchesMinute m = true ∧ dayOf m = day ∧ q.entry m = some occ := by
  rw [dayEntries]
  constructor
  · intro h
    split_ifs at h with hday
    · obtain ⟨tod, htod, hentry⟩ := mem_filterMap.1 h
      have hlt := q.cron.lt_of_mem_timesOfDay htod
      have hd : dayOf (day * 1440 + tod) = day := by
        rw [dayOf]
        omega
      have ht : timeOfDay (day * 1440 + tod) = tod := by
        rw [timeOfDay]
        omega
      refine ⟨_, q.cron.matchesMinute_eq_true.2 ?_, hd, hentry⟩
      rw [hd, ht]
      exact ⟨htod, hday⟩
    · exact absurd h not_mem_nil
  · rintro ⟨m, hm, rfl, hentry⟩
    obtain ⟨htod, hday⟩ := q.cron.matchesMinute_eq_true.1 hm
    rw [if_pos hday]
    refine mem_filterMap.2 ⟨timeOfDay m, htod, ?_⟩
    have hm' : dayOf m * 1440 + timeOfDay m = m := by
      rw [dayOf, timeOfDay]
      omega
    rw [hm', hentry]

theorem mem_entries {days : ℕ} : occ ∈ q.entries days day ↔
    ∃ m, q.cron.matchesMinute m = true ∧ (day ≤ dayOf m ∧ dayOf m < day + days) ∧
      q.entry m = some occ := by
  induction days generalizing day with
  | zero =>
    rw [entries]
    constructor
    · intro h
      exact absurd h not_mem_nil
    · rintro ⟨m, -, ⟨hle, hlt⟩, -⟩
      omega
  | succ _ ih =>
    rw [entries, mem_append, mem_dayEntries, ih]
    constructor
    · rintro (⟨m, hm, hd, he⟩ | ⟨m, hm, hd, he⟩)
      · exact ⟨m, hm, by omega, he⟩
      · exact ⟨m, hm, by omega, he⟩
    · rintro ⟨m, hm, hd, he⟩
      by_cases hfirst : dayOf m = day
      · exact .inl ⟨m, hm, hfirst, he⟩
      · exact .inr ⟨m, hm, by omega, he⟩

theorem pairwise_entries (days : ℕ) (day : ℤ) :
    (q.entries days day).Pairwise fun a b ↦ a.localMinute < b.localMinute := by
  induction days generalizing day with
  | zero => exact List.Pairwise.nil
  | succ _ ih =>
    rw [entries, pairwise_append]
    refine ⟨?_, ih _, ?_⟩
    · rw [dayEntries]
      split_ifs
      · rw [pairwise_filterMap]
        refine q.cron.pairwise_timesOfDay.imp ?_
        intro a b hab x hx y hy
        rw [q.localMinute_of_entry hx, q.localMinute_of_entry hy, localMinute_occurrence,
          localMinute_occurrence]
        omega
      · exact List.Pairwise.nil
    · intro a ha b hb
      obtain ⟨m, -, hm, hea⟩ := q.mem_dayEntries.1 ha
      obtain ⟨m', -, hm', heb⟩ := q.mem_entries.1 hb
      rw [q.localMinute_of_entry hea, q.localMinute_of_entry heb, localMinute_occurrence,
        localMinute_occurrence]
      rw [dayOf] at hm hm'
      omega

/-- Whether a minute is an executable occurrence after the start. -/
def upcoming (m : ℤ) : Bool :=
  q.cron.matchesMinute m && match (resolveLocal q.zone m).1 with
    | none => false
    | some utc => q.afterUtc < utc

/-- The number of executable occurrences between the start and a minute. -/
noncomputable def rank (m : ℤ) : ℕ :=
  ((Finset.Ico q.startLocal m).filter fun m' ↦ q.upcoming m' = true).card

theorem upcoming_eq_true : q.upcoming m = true ↔ q.cron.matchesMinute m = true ∧
    ∃ utc, (resolveLocal q.zone m).1 = some utc ∧ q.afterUtc < utc := by
  rw [upcoming]
  cases (resolveLocal q.zone m).1 <;> simp

/-- What comes after the start in time also comes after it on the wall clock. -/
theorem startLocal_le (h : q.upcoming m = true) : q.startLocal ≤ m := by
  obtain ⟨-, utc, hutc, hafter⟩ := q.upcoming_eq_true.1 h
  by_contra hlt
  refine absurd (le_of_resolveLocal hutc ?_) (not_le.2 hafter)
  rw [startLocal] at hlt
  rw [startOf]
  exact (Int.le_ediv_iff_mul_le (by decide)).1 (by omega)

theorem entry_eq_some (hoc : occ.executable = true) :
    q.cron.matchesMinute m = true ∧ q.entry m = some occ ↔
      q.upcoming m = true ∧ occ = q.occurrence m := by
  constructor
  · rintro ⟨hm, he⟩
    obtain rfl := q.localMinute_of_entry he
    refine ⟨?_, rfl⟩
    rw [executable_occurrence] at hoc
    obtain ⟨utc, hutc⟩ := isSome_iff_exists.1 hoc
    simp only [entry, hutc, ite_none_left_eq_some] at he
    exact q.upcoming_eq_true.2 ⟨hm, utc, hutc, not_le.1 he.2.1⟩
  · rintro ⟨hup, rfl⟩
    obtain ⟨hm, utc, hutc, hafter⟩ := q.upcoming_eq_true.1 hup
    refine ⟨hm, ?_⟩
    rw [entry, if_neg (not_lt.2 (q.startLocal_le hup)), hutc]
    simp [hafter]

/-- The last day that the search looks at. -/
def horizon : ℤ := dayOf q.startLocal + previewHorizonDays

def all : List Occurrence := q.entries (previewHorizonDays + 1) (dayOf q.startLocal)

theorem nextOccurrences_eq (count : ℕ) :
    nextOccurrences q count = cut Occurrence.executable count q.all :=
  q.scanDays_eq _ _ _

theorem sorted_all : (q.all.map Occurrence.localMinute).Pairwise (· < ·) :=
  pairwise_map.2 (q.pairwise_entries _ _)

theorem isSome_of_upcoming (hm : q.upcoming m = true) : (q.occurrence m).executable = true := by
  obtain ⟨-, utc, hutc, -⟩ := q.upcoming_eq_true.1 hm
  rw [q.executable_occurrence, hutc, isSome_some]

theorem mem_all : q.occurrence m ∈ q.all ↔ q.cron.matchesMinute m = true ∧
    q.entry m = some (q.occurrence m) ∧ dayOf q.startLocal ≤ dayOf m ∧ dayOf m ≤ q.horizon := by
  rw [all, q.mem_entries, horizon]
  constructor
  · rintro ⟨m', hm', hd, he⟩
    have hmm : m = m' := congrArg Occurrence.localMinute (q.localMinute_of_entry he)
    subst hmm
    exact ⟨hm', he, hd.1, by omega⟩
  · rintro ⟨hm, he, hle, hlt⟩
    exact ⟨m, hm, ⟨hle, by omega⟩, he⟩

theorem occurrence_of_mem_all (h : occ ∈ q.all) :
    occ = q.occurrence occ.localMinute ∧ q.cron.matchesMinute occ.localMinute = true := by
  obtain ⟨m, hm, -, he⟩ := q.mem_entries.1 h
  obtain rfl := q.localMinute_of_entry he
  exact ⟨rfl, hm⟩

theorem dayOf_startLocal_le (h : q.startLocal ≤ m) : dayOf q.startLocal ≤ dayOf m := by
  rw [dayOf, dayOf]
  omega

theorem occurrence_mem_all (hm : q.upcoming m = true) :
    q.occurrence m ∈ q.all ↔ dayOf m ≤ q.horizon := by
  rw [q.mem_all]
  constructor
  · exact fun h ↦ h.2.2.2
  · intro hd
    obtain ⟨hmatch, he⟩ := (q.entry_eq_some (q.isSome_of_upcoming hm)).2 ⟨hm, rfl⟩
    exact ⟨hmatch, he, q.dayOf_startLocal_le (q.startLocal_le hm), hd⟩

theorem rank_eq (hm : dayOf m ≤ q.horizon) :
    ((q.all.filter Occurrence.executable).filter fun occ ↦ occ.localMinute < m).length =
      q.rank m := by
  have hsorted : ((q.all.filter Occurrence.executable).map Occurrence.localMinute).Pairwise
      (· < ·) := pairwise_map.2 ((q.pairwise_entries _ _).filter _)
  refine length_filter_lt hsorted fun j ↦ ?_
  rw [Finset.mem_filter, Finset.mem_Ico, List.mem_map]
  constructor
  · rintro ⟨⟨hle, hlt⟩, hup⟩
    have hday : dayOf j ≤ q.horizon := by
      rw [dayOf] at hm ⊢
      omega
    exact ⟨hlt, q.occurrence j,
      mem_filter.2 ⟨(q.occurrence_mem_all hup).2 hday, q.isSome_of_upcoming hup⟩, rfl⟩
  · rintro ⟨hlt, occ, hocc, rfl⟩
    obtain ⟨hin, hoc⟩ := mem_filter.1 hocc
    obtain ⟨m', hm', -, he⟩ := q.mem_entries.1 hin
    obtain ⟨hup, rfl⟩ := (q.entry_eq_some hoc).1 ⟨hm', he⟩
    exact ⟨⟨q.startLocal_le hup, hlt⟩, hup⟩

end Search

/-- **The search finds the first occurrences**: an executable one after the start is found if and
only if fewer than `count` precede it and its day is within the horizon. -/
theorem mem_nextOccurrences {q : Search} {count : ℕ} (hm : q.upcoming m = true) :
    q.occurrence m ∈ nextOccurrences q count ↔
      q.rank m < count ∧ dayOf m ≤ dayOf q.startLocal + previewHorizonDays := by
  rw [q.nextOccurrences_eq, mem_cut_iff q.sorted_all, q.occurrence_mem_all hm,
    q.localMinute_occurrence, and_comm]
  refine and_congr_left fun hday ↦ ?_
  rw [q.rank_eq hday]

end AgentColab.Schedules
