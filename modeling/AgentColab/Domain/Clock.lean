import AgentColab.Domain.Calendar

/-!
# Clock readings and their text

A clock reading is an aware UTC datetime with the resolution of a microsecond. An Event stores times
in milliseconds only.
-/

namespace AgentColab

/-- A UTC datetime: microseconds since 1970-01-01T00:00:00Z. -/
abbrev Time := ℤ

namespace Time

/-- The number of whole milliseconds before a reading. -/
def millisecond (t : Time) : ℤ := t / 1000

end Time

/-- `n` in decimal, padded with zeros to at least `width` digits. -/
def zeroPad (width n : ℕ) : List Char :=
  let s := Nat.toDigits 10 n
  List.replicate (width - s.length) '0' ++ s

/-- The text of a millisecond, as `strftime("%Y-%m-%dT%H:%M:%S.")` and three digits write it. -/
def isoformatMillisecond (ms : ℤ) : String :=
  let date := Calendar.Date.ofDays (ms / 86400000)
  let rest := (ms % 86400000).toNat
  String.ofList <|
    zeroPad 4 date.year.toNat ++ ['-'] ++ zeroPad 2 date.month ++ ['-'] ++ zeroPad 2 date.day ++
      ['T'] ++ zeroPad 2 (rest / 3600000) ++ [':'] ++ zeroPad 2 (rest / 60000 % 60) ++ [':'] ++
      zeroPad 2 (rest / 1000 % 60) ++ ['.'] ++ zeroPad 3 (rest % 1000) ++ ['Z']

/-- RFC 3339 with millisecond precision and a `Z` suffix. -/
def isoformatUtc (value : Time) : String := isoformatMillisecond value.millisecond

theorem isoformatUtc_congr {t t' : Time} (h : t.millisecond = t'.millisecond) :
    isoformatUtc t = isoformatUtc t' := by
  rw [isoformatUtc, isoformatUtc, h]

example : isoformatUtc 1790000000123456 = "2026-09-21T14:13:20.123Z" := by decide

end AgentColab
