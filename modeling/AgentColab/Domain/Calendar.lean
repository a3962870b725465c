import Mathlib.Data.Nat.Notation
import Mathlib.Data.Int.Notation

/-!
# The proleptic Gregorian calendar

Day numbers are counted from 1970-01-01. The conversion goes by eras of 400 years whose first day
is a first of March, so that the leap day is the last day of a year of the era.
-/

namespace Calendar

structure Date where
  year : ℤ
  month : ℕ
  day : ℕ
deriving DecidableEq, Repr

def Date.ofDays (n : ℤ) : Date :=
  let z := n + 719468
  let era := z / 146097
  let doe := (z % 146097).toNat
  let yoe := (doe - doe / 1460 + doe / 36524 - doe / 146096) / 365
  let doy := doe - (365 * yoe + yoe / 4 - yoe / 100)
  let mp := (5 * doy + 2) / 153
  let month := if mp < 10 then mp + 3 else mp - 9
  ⟨yoe + era * 400 + (if month ≤ 2 then 1 else 0), month, doy - (153 * mp + 2) / 5 + 1⟩

def Date.toDays (d : Date) : ℤ :=
  let y := if d.month ≤ 2 then d.year - 1 else d.year
  let era := y / 400
  let yoe := (y % 400).toNat
  let mp := if 2 < d.month then d.month - 3 else d.month + 9
  let doy := (153 * mp + 2) / 5 + d.day - 1
  let doe := yoe * 365 + yoe / 4 - yoe / 100 + doy
  era * 146097 + doe - 719468

example : Date.ofDays 0 = ⟨1970, 1, 1⟩ := by decide
example : Date.ofDays 20757 = ⟨2026, 10, 31⟩ := by decide
example : Date.toDays ⟨2024, 2, 29⟩ = 19782 := by decide

end Calendar
