import AgentColab.Domain.Calendar
import Mathlib.Order.SuccPred.Basic
import Mathlib.Algebra.Order.Group.Int
import Mathlib.Data.Int.LeastGreatest

/-!
# Years that begin in March

Such a year has 365 or 366 days, the leap day is the last of them, and month and day depend on the
number of the day in the year alone.
-/

namespace Calendar

def marchFirst (y : ℤ) : ℤ := 365 * y + y / 4 - y / 100 + y / 400 - 719468

def marchMonth (d : ℕ) : ℕ :=
  let mp := (5 * d + 2) / 153
  if mp < 10 then mp + 3 else mp - 9

def marchDay (d : ℕ) : ℕ := d - (153 * ((5 * d + 2) / 153) + 2) / 5 + 1

def InYear (y : ℤ) (d : ℕ) : Prop := marchFirst y + d < marchFirst (y + 1)

theorem marchFirst_add_one (y : ℤ) : marchFirst (y + 1) = marchFirst y + 365 ∨
    marchFirst (y + 1) = marchFirst y + 366 := by
  simp only [marchFirst]
  omega

theorem marchFirst_four {y : ℤ} (h : marchFirst (y + 1) = marchFirst y + 366) : y % 4 = 3 := by
  simp only [marchFirst] at h
  omega

theorem exists_inYear (n : ℤ) : ∃ y d, n = marchFirst y + (d : ℕ) ∧ InYear y d := by
  obtain ⟨y, hle, hgreatest⟩ := Int.exists_greatest_of_bdd (P := fun y ↦ marchFirst y ≤ n)
    ⟨max 0 (n + 719468), fun y hy ↦ by simp only [marchFirst] at hy; omega⟩
    ⟨min 0 n, by simp only [marchFirst]; omega⟩
  have hlt : n < marchFirst (y + 1) := by
    by_contra hle'
    have hy := hgreatest (y + 1) (not_lt.1 hle')
    omega
  refine ⟨y, (n - marchFirst y).toNat, ?_, ?_⟩
  · omega
  · rw [InYear]
    omega

variable {d y : ℕ}

theorem yearOfEra_eq {a b c r doe : ℕ} (hy : y < 400) (hquad : y = 4 * a + r) (hr : r < 4)
    (hcentury : y = 100 * c + b) (hb : b < 100) (hd : d ≤ 365)
    (hleap : d = 365 → r = 3 ∧ (b ≠ 99 ∨ y = 399)) (hdoe : doe = 365 * y + a - c + d) :
    (doe - doe / 1460 + doe / 36524 - doe / 146096) / 365 = y := by
  have hera : doe / 146096 = if y = 399 ∧ d = 365 then 1 else 0 := by split_ifs <;> omega
  have hcenturies : doe / 36524 = c + doe / 146096 := by
    rw [hera]
    split_ifs <;> omega
  have hquads : doe / 1460 = a + if 1460 ≤ 365 * r + a - c + d then 1 else 0 := by
    split_ifs <;> omega
  rw [hcenturies, hquads]
  split_ifs <;> omega

theorem marchFirst_era (e : ℤ) (hy : y < 400) : marchFirst (400 * e + y) =
    146097 * e + (365 * y + y / 4 - y / 100 : ℕ) - 719468 := by
  simp only [marchFirst]
  omega

theorem leap_of_inYear {e : ℤ} (hy : y < 400) (h : InYear (400 * e + y) d) :
    d ≤ 365 ∧ (d = 365 → y % 4 = 3 ∧ (y % 100 ≠ 99 ∨ y = 399)) := by
  simp only [InYear, marchFirst] at h
  omega

/-- **Month and day depend on the number of the day in its year.** -/
theorem ofDays_marchFirst {y : ℤ} (h : InYear y d) :
    (Date.ofDays (marchFirst y + d)).month = marchMonth d ∧
      (Date.ofDays (marchFirst y + d)).day = marchDay d := by
  obtain ⟨e, yoe, hyoe, rfl⟩ : ∃ (e : ℤ) (yoe : ℕ), yoe < 400 ∧ y = 400 * e + yoe :=
    ⟨y / 400, (y % 400).toNat, by omega, by omega⟩
  obtain ⟨hd, hleap⟩ := leap_of_inYear hyoe h
  have hdoe : 365 * yoe + yoe / 4 - yoe / 100 + d < 146097 := by omega
  have hz : marchFirst (400 * e + yoe) + d + 719468 =
      146097 * e + (365 * yoe + yoe / 4 - yoe / 100 + d : ℕ) := by
    rw [marchFirst_era e hyoe]
    omega
  have hyear := yearOfEra_eq hyoe (Nat.div_add_mod yoe 4).symm (by omega)
    (Nat.div_add_mod yoe 100).symm (by omega) hd hleap rfl
  have hrest : (146097 * e + (365 * yoe + yoe / 4 - yoe / 100 + d : ℕ)) % 146097 =
      (365 * yoe + yoe / 4 - yoe / 100 + d : ℕ) := by omega
  have hday : 365 * yoe + yoe / 4 - yoe / 100 + d - (365 * yoe + yoe / 4 - yoe / 100) = d := by
    omega
  simp only [Date.ofDays, hz, hrest, Int.toNat_natCast, hyear, hday, marchMonth, marchDay, and_self]

end Calendar
