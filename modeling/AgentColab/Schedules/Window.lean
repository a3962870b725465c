import AgentColab.Domain.MarchYear
import AgentColab.Schedules.Cron

/-!
# Matching days within the window

The window is 2024 to 2051. Whether a day matches depends on its number in a year that begins in
March and on the weekday of that first of March; the window has all of these.
-/

namespace AgentColab.Schedules

open AgentColab Calendar

/-- `dt.date(2024, 1, 1)` -/
def windowStart : ℤ := Date.toDays ⟨2024, 1, 1⟩

/-- `dt.date(2051, 12, 31)` -/
def windowEnd : ℤ := Date.toDays ⟨2051, 12, 31⟩

namespace CronExpression

variable {cron : CronExpression} {y y' : ℤ} {d d' : ℕ}

/-! ## Matching days -/

/-- The date of the day is one of those of the expression. -/
def onDate (cron : CronExpression) (day : ℤ) : Bool :=
  cron.months.contains (Date.ofDays day).month && cron.daysOfMonth.contains (Date.ofDays day).day

theorem onDate_congr (h : InYear y d) (h' : InYear y' d) :
    cron.onDate (marchFirst y + d) = cron.onDate (marchFirst y' + d) := by
  obtain ⟨hmonth, hday⟩ := ofDays_marchFirst h
  obtain ⟨hmonth', hday'⟩ := ofDays_marchFirst h'
  rw [onDate, onDate, hmonth, hday, hmonth', hday']

theorem dayMatches_congr (h : InYear y d) (h' : InYear y' d)
    (hfirst : marchFirst y % 7 = marchFirst y' % 7) :
    cron.dayMatches (marchFirst y + d) = cron.dayMatches (marchFirst y' + d) := by
  obtain ⟨hmonth, hday⟩ := ofDays_marchFirst h
  obtain ⟨hmonth', hday'⟩ := ofDays_marchFirst h'
  have hweekday : (marchFirst y + d + 4) % 7 = (marchFirst y' + d + 4) % 7 := by omega
  rw [dayMatches, dayMatches, hmonth, hday, hmonth', hday', hweekday]

variable {x z : ℤ}

/-- A day matches for its date, or it matches as all the days of its month with its weekday do. -/
theorem dayMatches_cases (h : cron.dayMatches x = true) :
    cron.domRestricted = true ∧ cron.onDate x = true ∨
      ∀ z, (Date.ofDays z).month = (Date.ofDays x).month → z % 7 = x % 7 →
        cron.dayMatches z = true := by
  rw [dayMatches, Bool.and_eq_true] at h
  obtain ⟨hmonth, hday⟩ := h
  have hweekday : ∀ z, z % 7 = x % 7 → (z + 4) % 7 = (x + 4) % 7 := fun z hz ↦ by omega
  cases hdom : cron.domRestricted <;> cases hdow : cron.dowRestricted <;>
    simp only [hdom, hdow, Bool.or_eq_true] at hday
  · refine .inr fun z hz hz' ↦ ?_
    rw [dayMatches, hz, hmonth, hdom, hdow, Bool.and_self]
  · refine .inr fun z hz hz' ↦ ?_
    rw [dayMatches, hz, hmonth, hdom, hdow, Bool.true_and, hweekday z hz']
    exact hday
  · exact .inl ⟨rfl, by rw [onDate, hmonth, hday, Bool.and_self]⟩
  · rcases hday with hday | hday
    · exact .inl ⟨rfl, by rw [onDate, hmonth, hday, Bool.and_self]⟩
    · refine .inr fun z hz hz' ↦ ?_
      rw [dayMatches, hz, hmonth, hdom, hdow, Bool.true_and, hweekday z hz']
      exact Bool.or_eq_true_iff.2 (.inr hday)

theorem dayMatches_of_onDate (hdom : cron.domRestricted = true) (h : cron.onDate x = true) :
    cron.dayMatches x = true := by
  rw [onDate, Bool.and_eq_true] at h
  rw [dayMatches, h.1, hdom]
  cases cron.dowRestricted
  · exact h.2
  · exact Bool.or_eq_true_iff.2 (.inl h.2)

/-! ## Pairs of days -/

/-- Two matching days of the window that are at most so far apart. -/
def HasPair (cron : CronExpression) (gap : ℤ) : Prop :=
  ∃ x z, windowStart ≤ x ∧ x < z ∧ z ≤ windowEnd ∧ z - x ≤ gap ∧
    cron.dayMatches x = true ∧ cron.dayMatches z = true

theorem inYear_of_le (h : d ≤ 364) : InYear y d := by
  have hlength := marchFirst_add_one y
  rw [InYear]
  omega

theorem exists_year (y : ℤ) : ∃ y' : ℤ, 2024 ≤ y' ∧ y' ≤ 2050 ∧
    marchFirst y' % 7 = marchFirst y % 7 := by
  have hyears : ∀ r < 7, ∃ k < 27, marchFirst (2024 + (k : ℕ)) % 7 = (r : ℕ) := by decide
  obtain ⟨k, hk, hfirst⟩ := hyears (marchFirst y % 7).toNat (by omega)
  exact ⟨2024 + k, by omega, by omega, by omega⟩

theorem exists_alike (y : ℤ) : ∃ y' : ℤ, 2023 ≤ y' ∧ y' ≤ 2050 ∧
    marchFirst y' % 7 = marchFirst y % 7 ∧
    marchFirst (y' + 1) - marchFirst y' = marchFirst (y + 1) - marchFirst y := by
  have hyears : ∀ r < 7, ∀ len ∈ [(365 : ℤ), 366], ∃ k < 28,
      marchFirst (2023 + (k : ℕ)) % 7 = (r : ℕ) ∧
        marchFirst (2023 + (k : ℕ) + 1) - marchFirst (2023 + (k : ℕ)) = len := by decide
  obtain ⟨k, hk, hfirst, hlength⟩ := hyears (marchFirst y % 7).toNat (by omega)
    (marchFirst (y + 1) - marchFirst y) (by
      have hlength := marchFirst_add_one y
      simp only [List.mem_cons, List.not_mem_nil, or_false]
      omega)
  exact ⟨2023 + k, by omega, by omega, by omega, hlength⟩

theorem marchFirst_mono (h : y ≤ y') : marchFirst y + 365 * (y' - y) ≤ marchFirst y' := by
  induction y', h using Int.leInduction with
  | base => omega
  | succ z =>
    have hlength := marchFirst_add_one z
    omega

theorem marchFirst_window :
    marchFirst 2023 + 306 = windowStart ∧ marchFirst 2051 + 305 = windowEnd :=
  ⟨by decide, by decide⟩

theorem hasPair_of_near {g : ℤ} (hpos : 0 < g) (hg : g < 7) (hx : cron.dayMatches x = true)
    (hz : cron.dayMatches (x + g) = true) : HasPair cron g := by
  obtain ⟨y, d, rfl, hd⟩ := exists_inYear x
  obtain ⟨hstart, hend⟩ := marchFirst_window
  obtain ⟨g, rfl⟩ := Int.eq_ofNat_of_zero_le hpos.le
  rw [show marchFirst y + d + (g : ℤ) = marchFirst y + (d + g : ℕ) by omega] at hz
  by_cases hsmall : d + g ≤ 364
  · -- Both days are in the year, even if it is a common one.
    obtain ⟨y', hlow, hhigh, hfirst⟩ := exists_year y
    rw [dayMatches_congr hd (inYear_of_le (by omega)) hfirst.symm] at hx
    rw [dayMatches_congr (inYear_of_le hsmall) (inYear_of_le hsmall) hfirst.symm] at hz
    have hafter := marchFirst_mono hlow
    have hbefore := marchFirst_mono hhigh
    have hyears : marchFirst 2050 + 365 ≤ marchFirst 2051 := by decide
    have hyears' : marchFirst 2023 + 365 ≤ marchFirst 2024 := by decide
    exact ⟨_, _, by omega, by omega, by omega, by omega, hx, hz⟩
  · obtain ⟨y', hlow, hhigh, hfirst, hlength⟩ := exists_alike y
    have hd' : InYear y' d := by
      rw [InYear] at hd ⊢
      omega
    rw [dayMatches_congr hd hd' hfirst.symm] at hx
    have hafter := marchFirst_mono hlow
    have hbefore := marchFirst_mono hhigh
    have hyears : marchFirst 2050 + 365 = marchFirst 2051 := by decide
    refine ⟨_, marchFirst y' + (d + g : ℕ), ?_, ?_, ?_, ?_, hx, ?_⟩
    · omega
    · omega
    · have hlast := marchFirst_add_one y'
      rw [InYear] at hd'
      rcases hhigh.eq_or_lt with rfl | hlt
      · omega
      · have hnext := marchFirst_mono (Int.add_one_le_of_lt hlt)
        omega
    · omega
    · by_cases hsame : InYear y (d + g)
      · have hsame' : InYear y' (d + g) := by
          rw [InYear] at hsame ⊢
          omega
        rwa [dayMatches_congr hsame hsame' hfirst.symm] at hz
      · -- The second day is in the next year.
        obtain ⟨e, he⟩ : ∃ e : ℕ, marchFirst y + (d + g : ℕ) = marchFirst (y + 1) + e := by
          rw [InYear] at hsame
          exact ⟨(marchFirst y + (d + g : ℕ) - marchFirst (y + 1)).toNat, by omega⟩
        have hsmall : e ≤ 364 := by
          rw [InYear] at hd
          omega
        have hnext : marchFirst (y' + 1) % 7 = marchFirst (y + 1) % 7 := by omega
        rw [he, dayMatches_congr (inYear_of_le hsmall) (inYear_of_le hsmall) hnext.symm] at hz
        rwa [show marchFirst y' + (d + g : ℕ) = marchFirst (y' + 1) + e by omega]

theorem marchMonth_fortnight {j : ℕ} (hd : d ≤ 365) (hj : j < 14) :
    d + 1 - marchDay d + j ≤ 364 ∧ marchMonth (d + 1 - marchDay d + j) = marchMonth d := by
  have hmonth : (5 * (d + 1 - marchDay d + j) + 2) / 153 = (5 * d + 2) / 153 := by
    rw [marchDay]
    omega
  refine ⟨?_, ?_⟩
  · rw [marchDay]
    omega
  · rw [marchMonth, marchMonth, hmonth]

theorem hasPair_of_weekly (h : ∀ z, (Date.ofDays z).month = (Date.ofDays x).month → z % 7 = x % 7
    → cron.dayMatches z = true) : HasPair cron 7 := by
  obtain ⟨y, d, rfl, hd⟩ := exists_inYear x
  rw [(ofDays_marchFirst hd).1] at h
  have hlast : d ≤ 365 := by
    have hlength := marchFirst_add_one y
    rw [InYear] at hd
    omega
  generalize hfirst : d + 1 - marchDay d = first
  have hmatch : ∀ j < 14, (marchFirst 2024 + (first + j : ℕ)) % 7 = (marchFirst y + d) % 7 →
      cron.dayMatches (marchFirst 2024 + (first + j : ℕ)) = true := by
    intro j hj hweekday
    obtain ⟨hyear, hmonth⟩ := marchMonth_fortnight hlast hj
    rw [hfirst] at hyear hmonth
    refine h _ ?_ hweekday
    rw [(ofDays_marchFirst (inYear_of_le hyear)).1, hmonth]
  have hfew : first ≤ 351 := by
    have hyear := (marchMonth_fortnight hlast (by omega : 13 < 14)).1
    omega
  have hstart : marchFirst 2024 = windowStart + 60 := by decide
  have hend : marchFirst 2024 + 10167 = windowEnd + 1 := by decide
  obtain ⟨j, hj, hweekday⟩ : ∃ j < 7,
      (marchFirst 2024 + (first + j : ℕ)) % 7 = (marchFirst y + d) % 7 :=
    ⟨((marchFirst y + d - marchFirst 2024 - first) % 7).toNat, by omega, by omega⟩
  exact ⟨_, _, by omega, by omega, by omega, by omega, hmatch j (by omega) hweekday,
    hmatch (j + 7) (by omega) (by omega)⟩

theorem hasPair_of_dates (hdom : cron.domRestricted = true) (y₁ y₂ : ℤ) {gap : ℤ} {d₁ d₂ : ℕ}
    (hlow : 2024 ≤ y₁) (hhigh : y₂ ≤ 2050) (h₂ : InYear y₂ d₂)
    (hlt : marchFirst y₁ + d₁ < marchFirst y₂ + d₂)
    (hle : marchFirst y₂ + d₂ - (marchFirst y₁ + d₁) ≤ gap)
    (hx : cron.onDate (marchFirst y₁ + d₁) = true) (hz : cron.onDate (marchFirst y₂ + d₂) = true) :
    HasPair cron gap := by
  have hafter := marchFirst_mono hlow
  have hbefore := marchFirst_mono (Int.add_le_add_right hhigh 1)
  have hstart : marchFirst 2024 = windowStart + 60 := by decide
  have hend : marchFirst (2050 + 1) + 305 = windowEnd := by decide
  rw [InYear] at h₂
  exact ⟨_, _, by omega, hlt, by omega, hle, dayMatches_of_onDate hdom hx,
    dayMatches_of_onDate hdom hz⟩

theorem hasPair_of_onDate (hdom : cron.domRestricted = true) (hlt : x < z)
    (hx : cron.onDate x = true) (hz : cron.onDate z = true) : HasPair cron (z - x) := by
  obtain ⟨y₁, d₁, rfl, h₁⟩ := exists_inYear x
  obtain ⟨y₂, d₂, rfl, h₂⟩ := exists_inYear z
  have hlength₁ := marchFirst_add_one y₁
  have hlength₂ := marchFirst_add_one y₂
  have hyears : marchFirst 2025 = marchFirst 2024 + 365 := by decide
  have hleap : marchFirst 2028 = marchFirst 2027 + 366 := by decide
  have hleap' : marchFirst 2031 = marchFirst 2027 + 1461 := by decide
  have hlast : marchFirst 2027 + (365 : ℕ) < marchFirst (2027 + 1) := by decide
  have hlast' : marchFirst 2031 + (365 : ℕ) < marchFirst (2031 + 1) := by decide
  have hx' : ∀ {y}, InYear y d₁ → cron.onDate (marchFirst y + d₁) = true := fun h ↦
    onDate_congr h₁ h ▸ hx
  have hz' : ∀ {y}, InYear y d₂ → cron.onDate (marchFirst y + d₂) = true := fun h ↦
    onDate_congr h₂ h ▸ hz
  rw [InYear] at h₁ h₂
  have hle : y₁ ≤ y₂ := by
    by_contra hafter
    have hmono := marchFirst_mono (Int.add_one_le_of_lt (not_le.1 hafter))
    omega
  rcases hle.eq_or_lt with rfl | hafter
  · -- The same year: a common one, or a leap year for its last day.
    by_cases hsmall : d₂ ≤ 364
    · exact hasPair_of_dates hdom 2024 2024 (by decide) (by decide) (inYear_of_le hsmall)
        (by omega) (by omega) (hx' (inYear_of_le (by omega))) (hz' (inYear_of_le hsmall))
    · obtain rfl : d₂ = 365 := by omega
      exact hasPair_of_dates hdom 2027 2027 (by decide) (by decide) hlast (by omega) (by omega)
        (hx' (inYear_of_le (by omega))) (hz' hlast)
  have hnext := marchFirst_mono (Int.add_one_le_of_lt hafter)
  by_cases hfirst : d₁ ≤ 364
  · by_cases hfar : d₁ ≤ d₂
    · -- The first date again, a year later.
      exact hasPair_of_dates hdom 2024 2025 (by decide) (by decide) (inYear_of_le hfirst)
        (by omega) (by omega) (hx' (inYear_of_le hfirst)) (hx' (inYear_of_le hfirst))
    · exact hasPair_of_dates hdom 2024 2025 (by decide) (by decide) (inYear_of_le (by omega))
        (by omega) (by omega) (hx' (inYear_of_le hfirst)) (hz' (inYear_of_le (by omega)))
  obtain rfl : d₁ = 365 := by omega
  by_cases hsecond : d₂ ≤ 364
  · exact hasPair_of_dates hdom 2027 2028 (by decide) (by decide) (inYear_of_le hsecond)
      (by omega) (by omega) (hx' hlast) (hz' (inYear_of_le hsecond))
  · -- Two leap days.
    obtain rfl : d₂ = 365 := by omega
    have hquad₁ := marchFirst_four (y := y₁) (by omega)
    have hquad₂ := marchFirst_four (y := y₂) (by omega)
    have hfour := marchFirst_mono (by omega : y₁ + 4 ≤ y₂)
    have hfour' := marchFirst_mono (by omega : y₁ + 1 ≤ y₁ + 4)
    exact hasPair_of_dates hdom 2027 2031 (by decide) (by decide) hlast' (by omega) (by omega)
      (hx' hlast) (hz' hlast')

/-- **Matching days have a pair in the window that is no further apart.** -/
theorem hasPair (hlt : x < z) (hx : cron.dayMatches x = true) (hz : cron.dayMatches z = true) :
    HasPair cron (z - x) := by
  by_cases hnear : z - x < 7
  · exact hasPair_of_near (by omega) hnear hx (by rwa [add_sub_cancel])
  have hweek : HasPair cron 7 → HasPair cron (z - x) := by
    rintro ⟨a, b, hstart, hab, hend, hgap, ha, hb⟩
    exact ⟨a, b, hstart, hab, hend, by omega, ha, hb⟩
  rcases dayMatches_cases hx with ⟨hdom, hx⟩ | hx
  · rcases dayMatches_cases hz with ⟨-, hz⟩ | hz
    · exact hasPair_of_onDate hdom hlt hx hz
    · exact hweek (hasPair_of_weekly hz)
  · exact hweek (hasPair_of_weekly hx)

end CronExpression

end AgentColab.Schedules
