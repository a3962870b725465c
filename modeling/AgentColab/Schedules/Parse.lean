import AgentColab.Domain.Text
import AgentColab.Schedules.Cron
import Mathlib.Order.Interval.Finset.Nat

/-!
# The parser of cron expressions

`parse` cuts the text into tokens, and each token into the items of a comma list. A number is
whatever `^\d+$` matches, the decimal digits of every script; `int` refuses more than 4300 digits
with an exception that is not the parser's own. `repr` is a parameter.
-/

namespace AgentColab.Schedules

open AgentColab List

/-! ## Numbers -/

def decimalValue (c : Char) : ℕ :=
  ((decimalZeros.find? fun first ↦ first ≤ c.toNat && c.toNat < first + 10).map
    (c.toNat - ·)).getD 0

/-- The number that decimal digits stand for. -/
def numeralValue (t : List Char) : ℕ := t.foldl (fun n c ↦ 10 * n + decimalValue c) 0

/-- `_NUMBER.match`: decimal digits, perhaps before a line break. -/
def isNumber (t : List Char) : Bool :=
  let digits := if t.getLast? = some '\n' then t.dropLast else t
  !digits.isEmpty && digits.all isDecimal

/-- The exceptions that the parser can raise: `CronError`, and the `ValueError` of `int`. -/
inductive ParseError where
  | cron (code detail : String)
  | value

/-- The number of digits that `int` reads at most. -/
def maxDigits : ℕ := 4300

/-- `int` of a text that `_NUMBER` matches. -/
def readInt (t : List Char) : Except ParseError ℕ :=
  let digits := stripChars isSpace t
  if maxDigits < digits.length then .error .value else .ok (numeralValue digits)

/-! ## Fields -/

/-- A line of `FIELDS`. -/
structure Field where
  name : String
  low : ℕ
  high : ℕ

namespace Field

def minute : Field := ⟨"minute", 0, 59⟩
def hour : Field := ⟨"hour", 0, 23⟩
def dayOfMonth : Field := ⟨"day_of_month", 1, 31⟩
def month : Field := ⟨"month", 1, 12⟩
def dayOfWeek : Field := ⟨"day_of_week", 0, 6⟩

end Field

/-- **An item of a field**: the arguments of `range`, within the bounds of the field. -/
@[ext]
structure Item (f : Field) where
  start : ℕ
  stop : ℕ
  step : ℕ
  low_le : f.low ≤ start
  le_high : stop ≤ f.high

variable {f : Field}

/-- `range(start, stop + 1, step)` -/
def Item.range (i : Item f) : List ℕ :=
  if i.start ≤ i.stop then List.range' i.start ((i.stop - i.start) / i.step + 1) i.step else []

@[ext]
structure Values (f : Field) where
  values : Finset ℕ
  bounded : ∀ v ∈ values, f.low ≤ v ∧ v ≤ f.high

namespace Values

/-- `frozenset(range(low, high + 1))` -/
def all : Values f := ⟨Finset.Icc f.low f.high, fun _ hv ↦ Finset.mem_Icc.1 hv⟩

def empty : Values f := ⟨∅, fun _ hv ↦ absurd hv (Finset.notMem_empty _)⟩

variable {v : ℕ} {vs : Values f}

theorem bounded_range {i : Item f} (hv : v ∈ i.range) : i.start ≤ v ∧ v ≤ i.stop := by
  rw [Item.range] at hv
  split_ifs at hv with hle
  · obtain ⟨k, hk, rfl⟩ := mem_range'.1 hv
    have hmul : i.step * k ≤ i.stop - i.start :=
      (Nat.mul_le_mul_left _ (Nat.le_of_lt_succ hk)).trans (Nat.mul_div_le _ _)
    omega
  · exact absurd hv not_mem_nil

/-- `values.update(range(start, stop + 1, step))` -/
def update (vs : Values f) (i : Item f) : Values f where
  values := vs.values ∪ i.range.toFinset
  bounded := by
    intro v hv
    rcases Finset.mem_union.1 hv with hv | hv
    · exact vs.bounded v hv
    · have hrange := bounded_range (List.mem_toFinset.1 hv)
      exact ⟨i.low_le.trans hrange.1, hrange.2.trans i.le_high⟩

/-- The values in increasing order. -/
def toList (vs : Values f) : List ℕ := (List.range (f.high + 1)).filter (· ∈ vs.values)

theorem mem_toList : v ∈ vs.toList ↔ v ∈ vs.values := by
  rw [toList, mem_filter, mem_range, decide_eq_true_iff]
  exact ⟨And.right, fun hv ↦ ⟨Nat.lt_succ_of_le (vs.bounded v hv).2, hv⟩⟩

theorem lt_of_mem_toList (hv : v ∈ vs.toList) : v < f.high + 1 := mem_range.1 (mem_of_mem_filter hv)

theorem pairwise_toList (vs : Values f) : vs.toList.Pairwise (· < ·) := pairwise_lt_range.filter _

end Values

section Parser

variable (repr : List Char → String)

/-- The text before the first `sep`, and the text after it. -/
def partition (sep : Char) (t : List Char) : List Char × List Char :=
  (t.takeWhile (· ≠ sep), (t.dropWhile (· ≠ sep)).tail)

def readStep (f : Field) (part : List Char) : Except ParseError (List Char × ℕ) :=
  if '/' ∈ part then
    let (base, stepText) := partition '/' part
    let invalid := ParseError.cron "CRON_STEP_INVALID" (f.name ++ ": step " ++ repr stepText)
    if !isNumber stepText then .error invalid
    else do
      let step ← readInt stepText
      if step < 1 then .error invalid
      else if base ≠ ['*'] ∧ '-' ∉ base then
        .error (.cron "CRON_STEP_INVALID" (f.name ++ ": step requires * or a range"))
      else return (base, step)
  else .ok (part, 1)

def readBase (f : Field) (part base : List Char) : Except ParseError (ℕ × ℕ) :=
  let invalid := ParseError.cron "CRON_TOKEN_INVALID" (f.name ++ ": " ++ repr part)
  if base = ['*'] then .ok (f.low, f.high)
  else if '-' ∈ base then
    let (a, b) := partition '-' base
    if !(isNumber a && isNumber b) then .error invalid
    else do
      let start ← readInt a
      let stop ← readInt b
      if stop < start then
        .error (.cron "CRON_RANGE_INVALID" s!"{f.name}: {start}-{stop} reversed")
      else return (start, stop)
  else if !isNumber base then .error invalid
  else do
    let start ← readInt base
    return (start, start)

def checkBound (f : Field) (value : ℕ) : Except ParseError Unit :=
  if f.name = "day_of_week" ∧ value = 7 then
    .error (.cron "CRON_DOW7_REJECTED" "day-of-week 7 is not allowed; use 0")
  else if value < f.low ∨ f.high < value then
    .error (.cron "CRON_RANGE_INVALID" s!"{f.name}: {value} outside {f.low}-{f.high}")
  else .ok ()

theorem checkBound_eq_ok {value : ℕ} (h : checkBound f value = .ok ()) :
    f.low ≤ value ∧ value ≤ f.high := by
  rw [checkBound] at h
  split_ifs at h
  omega

/-- The item is within the bounds after both checks. -/
def checkItem (f : Field) (start stop step : ℕ) : Except ParseError (Item f) :=
  match hstart : checkBound f start with
  | .error e => .error e
  | .ok () =>
    match hstop : checkBound f stop with
    | .error e => .error e
    | .ok () => .ok ⟨start, stop, step, (checkBound_eq_ok hstart).1, (checkBound_eq_ok hstop).2⟩

def parseItem (f : Field) (text part : List Char) : Except ParseError (Item f) :=
  if part = [] then
    .error (.cron "CRON_TOKEN_INVALID" (f.name ++ ": empty list item in " ++ repr text))
  else do
    let (base, step) ← readStep repr f part
    let (start, stop) ← readBase repr f part base
    checkItem f start stop step

/-- `_EXTENDED` -/
def extended : List Char := ['?', 'L', 'W', '#']

/-- `_parse_field`: the values, and whether the field is restricted. -/
def parseField (f : Field) (text : List Char) : Except ParseError (Values f × Bool) :=
  if text = [] then .error (.cron "CRON_TOKEN_INVALID" (f.name ++ ": empty field"))
  else if text.any (· ∈ extended) then
    .error (.cron "CRON_EXTENDED_TOKEN_REJECTED" (f.name ++ ": " ++ repr text))
  else if text.any Char.isAlpha then
    .error (.cron "CRON_NAME_REJECTED" (f.name ++ ": " ++ repr text))
  else if text = ['*'] then .ok (Values.all, false)
  else do
    let values ← (text.splitOn ',').foldlM
      (fun values part ↦ do return values.update (← parseItem repr f text part)) Values.empty
    return (values, true)

/-- `str.split()` -/
def tokens (text : List Char) : List (List Char) := (text.splitOnP isSpace).filter (· ≠ [])

def ofFields (tokens : List (List Char)) (minutes : Values .minute) (hours : Values .hour)
    (daysOfMonth : Values .dayOfMonth × Bool) (months : Values .month)
    (daysOfWeek : Values .dayOfWeek × Bool) : CronExpression where
  expression := " ".intercalate (tokens.map String.ofList)
  minutes := minutes.toList
  hours := hours.toList
  daysOfMonth := daysOfMonth.1.toList
  months := months.toList
  daysOfWeek := daysOfWeek.1.toList
  domRestricted := daysOfMonth.2
  dowRestricted := daysOfWeek.2
  minutes_lt := fun _ hv ↦ Values.lt_of_mem_toList hv
  hours_lt := fun _ hv ↦ Values.lt_of_mem_toList hv
  minutes_sorted := minutes.pairwise_toList
  hours_sorted := hours.pairwise_toList

/-- **`parse`** -/
def parse (expression : String) : Except ParseError CronExpression :=
  let text := stripChars isSpace expression.toList
  if text.head? = some '@' then .error (.cron "CRON_ALIAS_REJECTED" (String.ofList text))
  else match tokens text with
    | [minute, hour, dayOfMonth, month, dayOfWeek] => do
      let minutes ← parseField repr .minute minute
      let hours ← parseField repr .hour hour
      let daysOfMonth ← parseField repr .dayOfMonth dayOfMonth
      let months ← parseField repr .month month
      let daysOfWeek ← parseField repr .dayOfWeek dayOfWeek
      return ofFields [minute, hour, dayOfMonth, month, dayOfWeek] minutes.1 hours.1 daysOfMonth
        months.1 daysOfWeek
    | found =>
      if found.length = 6 then
        .error (.cron "CRON_SECONDS_REJECTED" "six fields given; seconds are not supported")
      else .error (.cron "CRON_FIELD_COUNT" s!"expected 5 fields, got {found.length}")

end Parser

end AgentColab.Schedules
