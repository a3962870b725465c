import AgentColab.Schedules.Window

/-!
# The least interval between occurrences

`minIntervalMinutes` takes the least difference of two times of the day, and walks the days of the
window for the time from the last occurrence of a matching day to the first of the next one. Each
pair of matching days has a pair in the window that is no further apart, so the result is the least
interval of all.
-/

namespace AgentColab.Schedules

open AgentColab Calendar List Option

/-- What `min_interval_minutes` raises: `IndexError`, or `CronError`. -/
inductive IntervalError where
  | index
  | cron (code detail : String)

namespace CronExpression

variable (cron : CronExpression)

/-- `b - a for a, b in pairwise(times)` -/
def differences (times : List ℕ) : List ℤ := List.zipWith (fun a b ↦ (b : ℤ) - a) times times.tail

/-- The `while` loop over the days: the last matching day, and the least interval so far. -/
def scanIntervals (first last : ℕ) : ℕ → ℤ → Option ℤ → ℤ → Option ℤ × ℤ
  | 0, _, previous, best => (previous, best)
  | days + 1, day, previous, best =>
    if cron.dayMatches day then
      match previous with
      | none => scanIntervals first last days (day + 1) (some day) best
      | some before =>
        let best := min best ((day - before) * 1440 - last + first)
        if best ≤ 1 then (some before, best)
        else scanIntervals first last days (day + 1) (some day) best
    else scanIntervals first last days (day + 1) previous best

/-- **`min_interval_minutes`** -/
def minIntervalMinutes (repr : String → String) : Except IntervalError ℤ :=
  let times := cron.timesOfDay
  let best := (differences times).min?.getD (10 ^ 9)
  match times.head?, times.getLast? with
  | some first, some last =>
    let days := (windowEnd - windowStart + 1).toNat
    match cron.scanIntervals first last days windowStart none best with
    | (none, _) =>
      .error (.cron "CRON_UNREACHABLE" (repr cron.expression ++ " never matches a date"))
    | (some _, best) => .ok best
  | _, _ => .error .index

/-- The distances in minutes between matching minutes. -/
def intervals : Set ℤ :=
  {d | ∃ a b, cron.matchesMinute a = true ∧ cron.matchesMinute b = true ∧ a < b ∧ d = b - a}

/-! ## Times of the day -/

variable {cron}

variable {times : List ℕ} {d x : ℤ} {tod : ℕ}

theorem mem_differences (hsorted : times.Pairwise (· < ·)) (h : d ∈ differences times) :
    ∃ a ∈ times, ∃ b ∈ times, a < b ∧ d = b - a := by
  induction times with
  | nil => exact absurd h not_mem_nil
  | cons a times ih =>
    cases times with
    | nil => exact absurd h not_mem_nil
    | cons b =>
      rcases mem_cons.1 h with rfl | h
      · exact ⟨a, mem_cons_self, b, mem_cons_of_mem _ mem_cons_self,
          rel_of_pairwise_cons hsorted mem_cons_self, rfl⟩
      · obtain ⟨a', ha, b', hb, hlt⟩ := ih hsorted.of_cons h
        exact ⟨a', mem_cons_of_mem _ ha, b', mem_cons_of_mem _ hb, hlt⟩

theorem exists_difference (hsorted : times.Pairwise (· < ·)) {a b : ℕ} (ha : a ∈ times)
    (hb : b ∈ times) (hlt : a < b) : ∃ d ∈ differences times, d ≤ (b : ℤ) - a := by
  induction times with
  | nil => exact absurd ha not_mem_nil
  | cons t times ih =>
    cases times with
    | nil =>
      rw [mem_singleton] at ha hb
      omega
    | cons u times =>
      have hu := rel_of_pairwise_cons hsorted (mem_cons_self (a := u) (l := times))
      rcases mem_cons.1 ha with rfl | hafter
      · refine ⟨u - a, mem_cons_self, ?_⟩
        have hle : u ≤ b := by
          rcases mem_cons.1 hb with rfl | hb
          · omega
          · rcases mem_cons.1 hb with rfl | hb
            · exact le_rfl
            · exact (rel_of_pairwise_cons hsorted.of_cons hb).le
        omega
      · have hta := rel_of_pairwise_cons hsorted hafter
        obtain hbefore := (mem_cons.1 hb).resolve_left (by omega)
        obtain ⟨d, hd, hle⟩ := ih hsorted.of_cons hafter hbefore
        exact ⟨d, mem_cons_of_mem _ hd, hle⟩

/-! ## The loop -/

/-- The interval from the last occurrence of a day to the first of a later one. -/
def overnight (first last : ℕ) (x z : ℤ) : ℤ := (z - x) * 1440 - last + first

/-- **What the loop has found**: the matching days before `day`, the last of them, and an interval
that is no longer than those between them. -/
structure Scanned (cron : CronExpression) (first last : ℕ) (start day : ℤ) (previous : Option ℤ)
    (best : ℤ) : Prop where
  previous_matches : ∀ p, previous = some p → cron.dayMatches p = true ∧ p < day
  none_after : ∀ x, start ≤ x → x < day → cron.dayMatches x = true → ∃ p, previous = some p ∧ x ≤ p
  least : ∀ x z, start ≤ x → x < z → z < day → cron.dayMatches x = true →
    cron.dayMatches z = true → best ≤ overnight first last x z

variable {first last : ℕ} {start day : ℤ} {previous : Option ℤ} {best : ℤ}

theorem Scanned.skip (h : Scanned cron first last start day previous best)
    (hday : cron.dayMatches day ≠ true) :
    Scanned cron first last start (day + 1) previous best where
  previous_matches p hp := ⟨(h.previous_matches p hp).1, by
    have hlt := (h.previous_matches p hp).2
    omega⟩
  none_after x hstart hx hmatch := by
    refine h.none_after x hstart (lt_of_le_of_ne (by omega) ?_) hmatch
    rintro rfl
    exact hday hmatch
  least x z hstart hxz hz hx hmatch := by
    refine h.least x z hstart hxz (lt_of_le_of_ne (by omega) ?_) hx hmatch
    rintro rfl
    exact hday hmatch

theorem Scanned.found (h : Scanned cron first last start day previous best)
    (hday : cron.dayMatches day = true) {best' : ℤ} (hle : best' ≤ best)
    (hnew : ∀ p, previous = some p → best' ≤ overnight first last p day) :
    Scanned cron first last start (day + 1) (some day) best' where
  previous_matches p hp := by
    cases hp
    exact ⟨hday, by omega⟩
  none_after x _ hx _ := ⟨day, rfl, by omega⟩
  least x z hstart hxz hz hx hmatch := by
    rcases (Int.le_of_lt_add_one hz).eq_or_lt with rfl | hz
    · obtain ⟨p, hp, hxp⟩ := h.none_after x hstart hxz hx
      refine (hnew p hp).trans ?_
      simp only [overnight]
      omega
    · exact hle.trans (h.least x z hstart hxz hz hx hmatch)

theorem scanned_scanIntervals (hlast : last < 1440) (days : ℕ)
    (h : Scanned cron first last start day previous best) :
    (∀ x, start ≤ x → x < day + days → cron.dayMatches x = true →
      (cron.scanIntervals first last days day previous best).1 ≠ none) ∧
    (cron.scanIntervals first last days day previous best).2 ≤ best ∧
    (∀ x z, start ≤ x → x < z → z < day + days → cron.dayMatches x = true →
      cron.dayMatches z = true →
      (cron.scanIntervals first last days day previous best).2 ≤ overnight first last x z) ∧
    ((cron.scanIntervals first last days day previous best).2 = best ∨
      ∃ x z, x < z ∧ cron.dayMatches x = true ∧ cron.dayMatches z = true ∧
        (cron.scanIntervals first last days day previous best).2 = overnight first last x z) := by
  induction days generalizing day previous best with
  | zero =>
    simp only [scanIntervals, Nat.cast_zero, add_zero]
    refine ⟨fun x hstart hx hmatch ↦ ?_, le_rfl, h.least, .inl trivial⟩
    obtain ⟨p, rfl, -⟩ := h.none_after x hstart hx hmatch
    exact some_ne_none p
  | succ days ih =>
    have hdays : day + ((days + 1 : ℕ) : ℤ) = day + 1 + (days : ℕ) := by omega
    rw [hdays, scanIntervals.eq_def]
    dsimp only
    by_cases hday : cron.dayMatches day = true
    · rw [if_pos hday]
      cases previous with
      | none => exact ih (h.found hday le_rfl nofun)
      | some before =>
        obtain ⟨hbefore, hlt⟩ := h.previous_matches before rfl
        have hmin : min best (overnight first last before day) ≤ best := min_le_left _ _
        dsimp only
        rw [← overnight]
        split_ifs with hone
        · -- No interval is shorter than a minute.
          refine ⟨fun _ _ _ _ ↦ some_ne_none before, hmin, ?_, ?_⟩
          · intro x z _ hxz _ _ _
            refine hone.trans ?_
            simp only [overnight]
            omega
          · rcases min_choice best (overnight first last before day) with hbest | hnew
            · exact .inl hbest
            · exact .inr ⟨before, day, hlt, hbefore, hday, hnew⟩
        · have hfound := h.found hday hmin fun p hp ↦ by
            cases hp
            exact min_le_right _ _
          obtain ⟨hsome, hle, hleast, hattained⟩ := ih hfound
          refine ⟨hsome, hle.trans hmin, hleast, ?_⟩
          rcases hattained with heq | hattained
          · rw [heq]
            rcases min_choice best (overnight first last before day) with hbest | hnew
            · exact .inl hbest
            · exact .inr ⟨before, day, hlt, hbefore, hday, hnew⟩
          · exact .inr hattained
    · rw [if_neg hday]
      exact ih (h.skip hday)

/-! ## The least interval -/

theorem matchesMinute_of_day (htod : tod ∈ cron.timesOfDay) (hx : cron.dayMatches x = true) :
    cron.matchesMinute (x * 1440 + tod) = true := by
  have hlt := cron.lt_of_mem_timesOfDay htod
  have htime : timeOfDay (x * 1440 + tod) = tod := by
    rw [timeOfDay]
    omega
  have hday : dayOf (x * 1440 + tod) = x := by
    rw [dayOf]
    omega
  rw [matchesMinute_eq_true, htime, hday]
  exact ⟨htod, hx⟩

theorem dayMatches_again (x : ℤ) : cron.dayMatches (x + 146097) = cron.dayMatches x := by
  obtain ⟨y, d, rfl, hd⟩ := exists_inYear x
  have hagain : ∀ y, marchFirst (y + 400) = marchFirst y + 146097 := fun y ↦ by
    simp only [marchFirst]
    omega
  have hd' : InYear (y + 400) d := by
    have hnext := hagain (y + 1)
    rw [InYear, hagain, show y + 400 + 1 = y + 1 + 400 by omega]
    rw [InYear] at hd
    omega
  have hfirst : marchFirst (y + 400) % 7 = marchFirst y % 7 := by
    rw [hagain]
    omega
  rw [dayMatches_congr hd hd' hfirst.symm, hagain]
  congr 1
  omega

theorem getD_min?_le {ds : List ℤ} {c : ℤ} (hd : d ∈ ds) : ds.min?.getD c ≤ d := by
  cases hmin : ds.min? with
  | none =>
    rw [List.min?_eq_none_iff] at hmin
    exact absurd (hmin ▸ hd) not_mem_nil
  | some => exact (List.min?_eq_some_iff.1 hmin).2 d hd

theorem exists_ends (htod : tod ∈ cron.timesOfDay) :
    ∃ first last, cron.timesOfDay.head? = some first ∧ cron.timesOfDay.getLast? = some last ∧
      first ∈ cron.timesOfDay ∧ last ∈ cron.timesOfDay ∧
      ∀ t ∈ cron.timesOfDay, first ≤ t ∧ t ≤ last := by
  have hsorted := cron.pairwise_timesOfDay
  generalize cron.timesOfDay = times at htod hsorted
  obtain ⟨first, rest, rfl⟩ := exists_cons_of_ne_nil (ne_nil_of_mem htod)
  have hne := cons_ne_nil first rest
  refine ⟨first, _, rfl, List.getLast?_eq_some_getLast hne, mem_cons_self,
    getLast_mem hne, fun t ht ↦ ⟨?_, ?_⟩⟩
  · rcases mem_cons.1 ht with rfl | ht
    · exact le_rfl
    · exact (rel_of_pairwise_cons hsorted ht).le
  · have hsplit := dropLast_append_getLast hne
    rw [← hsplit] at hsorted ht
    rcases mem_append.1 ht with ht | ht
    · exact ((pairwise_append.1 hsorted).2.2 t ht _ mem_cons_self).le
    · exact (mem_singleton.1 ht).le

theorem difference_mem_intervals (hx : cron.dayMatches x = true)
    (hd : d ∈ differences cron.timesOfDay) : d ∈ cron.intervals := by
  obtain ⟨a, ha, b, hb, hlt, rfl⟩ := mem_differences cron.pairwise_timesOfDay hd
  exact ⟨_, _, matchesMinute_of_day ha hx, matchesMinute_of_day hb hx, by omega, by omega⟩

theorem overnight_mem_intervals {z : ℤ} (hfirst : first ∈ cron.timesOfDay)
    (hlast : last ∈ cron.timesOfDay) (hlt : x < z) (hx : cron.dayMatches x = true)
    (hz : cron.dayMatches z = true) : overnight first last x z ∈ cron.intervals := by
  have hbound := cron.lt_of_mem_timesOfDay hlast
  refine ⟨_, _, matchesMinute_of_day hlast hx, matchesMinute_of_day hfirst hz, by omega, ?_⟩
  simp only [overnight]
  omega

theorem le_of_mem_intervals {least : ℤ} (hends : ∀ t ∈ cron.timesOfDay, first ≤ t ∧ t ≤ last)
    (hwithin : ∀ d ∈ differences cron.timesOfDay, least ≤ d) (hwindow : ∀ x z, windowStart ≤ x → x <
    z → z ≤ windowEnd → cron.dayMatches x = true → cron.dayMatches z = true → least ≤ overnight
    first last x z) (hd : d ∈ cron.intervals) : least ≤ d := by
  obtain ⟨a, b, ha, hb, hlt, rfl⟩ := hd
  obtain ⟨hta, hxa⟩ := cron.matchesMinute_eq_true.1 ha
  obtain ⟨htb, hxb⟩ := cron.matchesMinute_eq_true.1 hb
  have hdiva : a = dayOf a * 1440 + timeOfDay a := by
    rw [dayOf, timeOfDay]
    omega
  have hdivb : b = dayOf b * 1440 + timeOfDay b := by
    rw [dayOf, timeOfDay]
    omega
  have hlta := cron.lt_of_mem_timesOfDay hta
  have hltb := cron.lt_of_mem_timesOfDay htb
  rcases lt_or_ge (dayOf a) (dayOf b) with hdays | hdays
  · obtain ⟨x, z, hstart, hxz, hend, hgap, hx, hz⟩ := hasPair hdays hxa hxb
    have hleast := hwindow x z hstart hxz hend hx hz
    have hfirst := (hends _ htb).1
    have hlast := (hends _ hta).2
    simp only [overnight] at hleast
    omega
  · have hsame : dayOf a = dayOf b := by omega
    obtain ⟨d, hd, hle⟩ := exists_difference cron.pairwise_timesOfDay hta htb (by omega)
    have hleast := hwithin d hd
    omega

/-- **`min_interval_minutes` is the least distance between two matching minutes.** A matching minute
recurs, so there are two as soon as there is one. -/
theorem minIntervalMinutes_isLeast (cron : CronExpression) (repr : String → String) {m : ℤ}
    (hm : cron.matchesMinute m = true) :
    ∃ b, cron.minIntervalMinutes repr = .ok b ∧ IsLeast cron.intervals b := by
  obtain ⟨htod, hday⟩ := cron.matchesMinute_eq_true.1 hm
  obtain ⟨first, last, hhead, hlast?, hfirst, hlast, hends⟩ := exists_ends htod
  have hempty : Scanned cron first last windowStart windowStart none
      ((differences cron.timesOfDay).min?.getD (10 ^ 9)) :=
    ⟨nofun, fun x hle hlt ↦ absurd hlt (by omega), fun x z hle hlt hlt' ↦ by omega⟩
  obtain ⟨hsome, hle, hleast, hattained⟩ := scanned_scanIntervals (cron.lt_of_mem_timesOfDay hlast)
    (windowEnd - windowStart + 1).toNat hempty
  have hend : windowStart + ((windowEnd - windowStart + 1).toNat : ℤ) = windowEnd + 1 := by decide
  rw [hend] at hsome hleast
  -- The day recurs after 400 years, so there is a pair of matching days in the window.
  obtain ⟨x, z, hstart, hxz, hzend, hgap, hx, hz⟩ :=
    hasPair (by omega : dayOf m < dayOf m + 146097) hday (by rwa [dayMatches_again])
  have hpair := hleast x z hstart hxz (by omega) hx hz
  have hreached := hsome x hstart (by omega) hx
  rw [minIntervalMinutes, hhead, hlast?]
  dsimp only
  generalize cron.scanIntervals first last (windowEnd - windowStart + 1).toNat windowStart none
    ((differences cron.timesOfDay).min?.getD (10 ^ 9)) = r at *
  obtain ⟨previous, least⟩ := r
  cases previous with
  | none => exact absurd rfl hreached
  | some =>
    refine ⟨least, rfl, ?_, ?_⟩
    · rcases hattained with heq | ⟨x, z, hxz, hx, hz, heq⟩
      · cases hmin : (differences cron.timesOfDay).min? with
        | none =>
          have hbound := cron.lt_of_mem_timesOfDay hfirst
          rw [hmin] at heq
          simp only [getD_none, overnight] at heq hpair
          omega
        | some =>
          rw [hmin] at heq
          dsimp only [getD_some] at heq
          rw [heq]
          exact difference_mem_intervals hday (List.min?_mem hmin)
      · dsimp only at heq
        rw [heq]
        exact overnight_mem_intervals hfirst hlast hxz hx hz
    · intro d hd
      refine le_of_mem_intervals hends (fun d hd ↦ hle.trans (getD_min?_le hd)) ?_ hd
      exact fun x z hstart hxz hzend hx hz ↦ hleast x z hstart hxz (by omega) hx hz

end CronExpression

namespace Sample

/-- `0 0 29 2 *` -/
def leapDays : CronExpression where
  expression := "0 0 29 2 *"
  minutes := [0]
  hours := [0]
  daysOfMonth := [29]
  months := [2]
  daysOfWeek := [0, 1, 2, 3, 4, 5, 6]
  domRestricted := true
  dowRestricted := false
  minutes_lt := by decide
  hours_lt := by decide
  minutes_sorted := by decide
  hours_sorted := by decide

end Sample

/-- Leap days have a least distance, though most years have none. -/
theorem CronExpression.minIntervalMinutes_isLeast_leapDays :
    Sample.leapDays.matchesMinute (19782 * 1440) = true ∧
      ∃ b, Sample.leapDays.minIntervalMinutes id = .ok b ∧ IsLeast Sample.leapDays.intervals b :=
  ⟨by decide, Sample.leapDays.minIntervalMinutes_isLeast id (m := 19782 * 1440) (by decide)⟩

end AgentColab.Schedules
