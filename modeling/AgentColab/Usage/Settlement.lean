import AgentColab.Usage.Budget

/-!
# The settlement of a Run

When a Run ends its reservations are settled with the usage reported for it. The sum over the scope
has the Run's own usage in it, so the Run's usage is held against the limit twice. The verdict is
right as long as the limit does not lie between the sum and the sum with that usage again.
-/

namespace AgentColab.Usage

open AgentColab Transaction Database List Option

/-! ## The loop -/

/-- The Runs whose use counts in the scope of a reservation. -/
def scopeRunIds (run : RunRow) (day : ℤ) : ScopeType → Body (List String)
  | .scheduleRun => pure [run.runId]
  | _ => ask (.runIdsForDay run.scheduleId day)

def raiseAlert (run : RunRow) (scopeType : ScopeType) (actual limit : ℤ) : Body Unit := do
  let now ← ask .now
  ask (.insertAlert ⟨run.scheduleId, run.runId, scopeType, actual, limit, now⟩)

/-- The body of the loop of `settle_for_run`. -/
def settleScope (run : RunRow) (actual : ℕ) (day : ℤ) (row : RunBudgetRow) :
    Body (ScopeType × ReservationStatus) := do
  let runIds ← scopeRunIds run day row.scopeType
  let status ← settle ⟨row.reservationId, actual, row.limitCostUnits, runIds⟩
  let now ← ask .now
  orRaise (← ask (.closeRunBudget run.runId row.scopeType status (some (actual : ℤ)) now))
  if status = .exceeded then
    raiseAlert run row.scopeType actual row.limitCostUnits
    return (row.scopeType, status)
  else return (row.scopeType, status)

/-- `settle_for_run`: the verdicts by scope. -/
def settleForRun (run : RunRow) : Body (List (ScopeType × ReservationStatus)) := do
  let actual ← orRaise (← ask (.usageFor ⟨.scheduleRun, run.runId⟩ 0 []))
  let now ← ask .now
  let rows ← ask (.openRunBudgets run.runId)
  Prog.collect rows (settleScope run actual (dayWindow now).2.2)

/-! ## What counts in a scope -/

namespace BudgetTables

variable (db : BudgetTables)

def actualCost (run : RunRow) : ℕ :=
  costUnits (db.usage.filter fun u ↦ u.runId = some run.runId)

/-- The reservations of a Run that are still to be settled. -/
def openBudgets (runId : String) : List RunBudgetRow :=
  db.runBudgets.filter fun b ↦ b.runId = runId && b.status = .reserved

def scopeOf (reservationId : String) : Option BudgetScope :=
  (db.reservations.find? (·.reservationId = reservationId)).map (·.scope)

/-- The Runs that a settlement looks at. -/
def runIdsOf (run : RunRow) (day : ℤ) : ScopeType → List String
  | .scheduleRun => [run.runId]
  | _ => ((db.runs.filter fun r ↦ r.scheduleId = run.scheduleId && inDay day r.scheduledFor)
      |>.insertionSort fun a b ↦ a.scheduledFor ≤ b.scheduledFor).map (·.runId)

/-- Whether a usage row is in the period of a scope: a daily scope has that of the day. -/
def inPeriod (scope : BudgetScope) (day : ℤ) (u : UsageRow) : Bool :=
  !scope.scopeType.isDaily || inDay day u.reportedAt

/-- Whether a usage row is in a scope by the scope's own clause. -/
def inScope (scope : BudgetScope) (runIds : List String) (u : UsageRow) : Bool :=
  (db.scopeClause scope runIds).any fun clause ↦ clause u

/-- The usage recorded in a scope and its period, that of the settled Run with it; each row counts
once. -/
def recorded (run : RunRow) (scope : BudgetScope) (day : ℤ) (runIds : List String) : ℕ :=
  costUnits (db.usage.filter fun u ↦
    inPeriod scope day u && (db.inScope scope runIds u || u.runId = some run.runId))

/-- The usage of the settled Run that is counted besides: what the sum over the scope has in it
already, and what was reported outside the period. -/
def countedAgain (run : RunRow) (scope : BudgetScope) (day : ℤ) (runIds : List String) : ℕ :=
  costUnits (db.usage.filter fun u ↦
    u.runId = some run.runId && (!inPeriod scope day u || db.inScope scope runIds u))

/-- The open reservations of a scope on a day, without those that are settled by now. -/
def reservedOthers (scope : BudgetScope) (day : ℤ) (settled : List String) : ℕ :=
  estimates (db.reservations.filter fun r ↦ r.scope = scope && r.status = .reserved &&
    inDay day r.createdAt && !settled.contains r.reservationId)

end BudgetTables

variable {db : BudgetTables} {day : ℤ} {n : ℕ}

theorem actualCost_add {run : RunRow} {scope : BudgetScope} {runIds : List String} {used : ℕ}
    (h : db.usageFor scope day runIds = some used) : db.actualCost run + used =
      db.recorded run scope day runIds + db.countedAgain run scope day runIds := by
  obtain ⟨clause, hclause, rfl⟩ := map_eq_some_iff.1 h
  have hin : ∀ u, db.inScope scope runIds u = clause u := fun u ↦ by
    rw [BudgetTables.inScope, hclause]
    rfl
  simp only [BudgetTables.actualCost, BudgetTables.recorded, BudgetTables.countedAgain, hin]
  induction db.usage with
  | nil => rfl
  | cons u _ ih =>
    have hperiod : (!scope.scopeType.isDaily || inDay day u.reportedAt) =
        BudgetTables.inPeriod scope day u := rfl
    simp only [filter_cons, hperiod]
    cases hp : BudgetTables.inPeriod scope day u <;> cases hc : clause u <;>
      by_cases hr : u.runId = some run.runId <;>
      simp [hr, costUnits] at ih ⊢ <;> omega

/-! ## What the loop has changed -/

/-- A reservation at the start and now, when these are settled. -/
structure Same (settled : List String) (r r' : ReservationRow) : Prop where
  id : r'.reservationId = r.reservationId
  scope : r'.scope = r.scope
  estimate : r'.estimatedCostUnits = r.estimatedCostUnits
  created : r'.createdAt = r.createdAt
  status : r'.status = .reserved ↔ r.status = .reserved ∧ r.reservationId ∉ settled

/-- The tables at the start and now. -/
structure Settled (db : BudgetTables) (settled : List String) (s : BudgetTables) : Prop where
  usage : s.usage = db.usage
  channels : s.channels = db.channels
  runs : s.runs = db.runs
  reservations : List.Forall₂ (Same settled) db.reservations s.reservations

theorem Settled.refl (db : BudgetTables) : Settled db [] db where
  usage := rfl
  channels := rfl
  runs := rfl
  reservations := forall₂_same.2 fun _ _ ↦ ⟨rfl, rfl, rfl, rfl, by simp⟩

namespace Settled

variable {db s : BudgetTables} {settled : List String}

theorem usageFor (h : Settled db settled s) (scope : BudgetScope) (day : ℤ)
    (runIds : List String) : s.usageFor scope day runIds = db.usageFor scope day runIds := by
  rw [BudgetTables.usageFor, BudgetTables.usageFor, BudgetTables.scopeClause,
    BudgetTables.scopeClause, h.usage, h.channels]

theorem runIdsOf (h : Settled db settled s) (run : RunRow) (day : ℤ) (scopeType : ScopeType) :
    s.runIdsOf run day scopeType = db.runIdsOf run day scopeType := by
  cases scopeType <;> simp only [BudgetTables.runIdsOf, h.runs]

theorem find (h : Settled db settled s) {rid : String} {row : ReservationRow}
    (hrow : s.reservations.find? (·.reservationId = rid) = some row) :
    db.scopeOf rid = some row.scope := by
  have hres := h.reservations
  rw [BudgetTables.scopeOf]
  generalize db.reservations = rows, s.reservations = rows' at hres hrow
  induction hres with
  | nil => simp at hrow
  | @cons r _ _ _ hr _ ih =>
    by_cases hid : r.reservationId = rid
    · rw [List.find?_cons_of_pos (by simpa [hr.id] using hid)] at hrow
      rw [List.find?_cons_of_pos (by simpa using hid), ← some.inj hrow]
      exact congrArg some hr.scope.symm
    · rw [List.find?_cons_of_neg (by simpa [hr.id] using hid)] at hrow
      rw [List.find?_cons_of_neg (by simpa using hid)]
      exact ih hrow

theorem reservedOthers (h : Settled db settled s) (scope : BudgetScope) (day : ℤ)
    (rid : String) : estimates (s.openReservations scope day (some rid)) =
      db.reservedOthers scope day (settled ++ [rid]) := by
  have hres := h.reservations
  rw [BudgetTables.openReservations, BudgetTables.reservedOthers]
  generalize db.reservations = rows, s.reservations = rows' at hres
  induction hres with
  | nil => rfl
  | @cons r r' _ _ hr _ ih =>
    have hsame : (decide (r'.scope = scope) && decide (r'.status = .reserved) &&
        inDay day r'.createdAt && decide (some r'.reservationId ≠ some rid)) =
        (decide (r.scope = scope) && decide (r.status = .reserved) &&
          inDay day r.createdAt && !(settled ++ [rid]).contains r.reservationId) := by
      rw [Bool.eq_iff_iff]
      simp only [Bool.and_eq_true, decide_eq_true_eq, hr.status, hr.scope, hr.created, hr.id,
        Bool.not_eq_true', contains_eq_mem, decide_eq_false_iff_not, mem_append,
        mem_singleton, ne_eq, some.injEq]
      tauto
    rw [filter_cons, filter_cons, hsame]
    split
    · rw [estimates, estimates, map_cons, map_cons, sum_cons, sum_cons, hr.estimate]
      exact congrArg _ ih
    · exact ih

theorem close (h : Settled db settled s) (rid : String) {status : ReservationStatus}
    (hstatus : status ≠ .reserved) (cost : Option ℤ) (at' : Time) :
    Settled db (settled ++ [rid]) (s.apply (.closeReservation rid status cost at')) where
  usage := h.usage
  channels := h.channels
  runs := h.runs
  reservations := by
    refine forall₂_map_right_iff.2 (h.reservations.imp fun r r' hr ↦ ?_)
    by_cases hid : r'.reservationId = rid
    · rw [if_pos hid]
      refine ⟨hr.id, hr.scope, hr.estimate, hr.created, ?_⟩
      have hmem : r.reservationId ∈ settled ++ [rid] := by simp [← hid, hr.id]
      simp [ReservationRow.close, hstatus, hmem]
    · rw [if_neg hid]
      refine ⟨hr.id, hr.scope, hr.estimate, hr.created, hr.status.trans ?_⟩
      rw [hr.id] at hid
      simp [hid]

theorem runBudgets (h : Settled db settled s) (f : List RunBudgetRow) :
    Settled db settled { s with runBudgets := f } := ⟨h.usage, h.channels, h.runs, h.reservations⟩

theorem alerts (h : Settled db settled s) (f : List AlertRow) :
    Settled db settled { s with alerts := f } := ⟨h.usage, h.channels, h.runs, h.reservations⟩

end Settled

/-! ## One scope -/

section

variable {inp : ℕ → BudgetInput} {db s : BudgetTables} {n : ℕ} {settled : List String}
  {run : RunRow} {day : ℤ} {row : RunBudgetRow} {actual : ℕ}

theorem dayWindow_day {t : Time} (h : inDay day t = true) : (dayWindow t).2.2 = day := inDay_iff.1 h

theorem returns_scopeRunIds (h : Settled db settled s) (scopeType : ScopeType) :
    budgetDatabase.Returns inp (scopeRunIds run day scopeType)
      (fun runIds s' _ ↦ runIds = db.runIdsOf run day scopeType ∧ Settled db settled s') s n := by
  have hids := h.runIdsOf run day scopeType
  cases scopeType with
  | scheduleRun => exact returns_ret.2 ⟨rfl, h⟩
  | _ => exact returns_issue.2 ⟨hids, h⟩

theorem returns_usedCostUnits (hday : ∀ k, inDay day (inp k).now = true)
    (h : Settled db settled s) (scope : BudgetScope) (runIds : List String) :
    budgetDatabase.Returns inp (usedCostUnits scope runIds)
      (fun used s' _ ↦ db.usageFor scope day runIds = some used ∧ Settled db settled s') s n := by
  refine returns_do (returns_issue.2 (returns_do (returns_issue.2 ?_)))
  have hnow : (dayWindow (inp n).now).2.2 = day := dayWindow_day (hday n)
  have hresult : (budgetDatabase.exec (inp (n + 1)) (n + 1) (fun _ ↦ false) s
      (.usageFor scope (dayWindow (inp n).now).2.2 runIds)).result =
        (db.usageFor scope day runIds).elim (.error .value) .ok := by
    rw [hnow, ← h.usageFor]
    rfl
  change budgetDatabase.Returns inp (orRaise (budgetDatabase.exec (inp (n + 1)) (n + 1)
    (fun _ ↦ false) s (.usageFor scope (dayWindow (inp n).now).2.2 runIds)).result) _ s (n + 2)
  rw [hresult]
  cases db.usageFor scope day runIds with
  | none => exact returns_raise
  | some => exact returns_ret.2 ⟨rfl, h⟩

theorem returns_reservedCostUnits (hday : ∀ k, inDay day (inp k).now = true)
    (h : Settled db settled s) (scope : BudgetScope) (rid : String) :
    budgetDatabase.Returns inp (reservedCostUnits scope (some rid))
      (fun reserved s' _ ↦ reserved = db.reservedOthers scope day (settled ++ [rid]) ∧
        Settled db settled s') s n := by
  refine returns_do (returns_issue.2 (returns_issue.2 ⟨?_, h⟩))
  rw [← h.reservedOthers, ← dayWindow_day (hday n)]
  rfl

variable {α : Type} {rid : String} {status : ReservationStatus} {cost : Option ℤ} {at' : Time}
    {k : Body α} {Q : α → BudgetTables → ℕ → Prop}

theorem returns_closeReservation
    (h : budgetDatabase.Returns inp k Q (s.apply (.closeReservation rid status cost at')) (n + 1)) :
    budgetDatabase.Returns inp
      (do orRaise (← ask (.closeReservation rid status cost at')); k) Q s n := by
  refine returns_do (returns_issue.2 ?_)
  change budgetDatabase.Returns inp (orRaise (execStatement (inp n) n s
    (.closeReservation rid status cost at')).result >>= fun _ ↦ k) Q (budgetDatabase.view s
      (execStatement (inp n) n s (.closeReservation rid status cost at')).writes) (n + 1)
  rw [execStatement]
  split
  · exact returns_do (returns_ret.2 h)
  · exact returns_do returns_raise

theorem returns_closeRunBudget {runId : String} {scopeType : ScopeType} (h :
    budgetDatabase.Returns inp k Q (s.apply (.closeRunBudget runId scopeType status cost at')) (n
    + 1)) : budgetDatabase.Returns inp
      (do orRaise (← ask (.closeRunBudget runId scopeType status cost at')); k) Q s n := by
  refine returns_do (returns_issue.2 ?_)
  change budgetDatabase.Returns inp (orRaise (execStatement (inp n) n s
    (.closeRunBudget runId scopeType status cost at')).result >>= fun _ ↦ k) Q
      (budgetDatabase.view s (execStatement (inp n) n s
        (.closeRunBudget runId scopeType status cost at')).writes) (n + 1)
  rw [execStatement]
  split
  · exact returns_do (returns_ret.2 h)
  · exact returns_do returns_raise

theorem returns_loadReservation {Q : ReservationRow → BudgetTables → ℕ → Prop}
    (h : ∀ r, s.reservations.find? (·.reservationId = rid) = some r → Q r s (n + 1)) :
    budgetDatabase.Returns inp (loadReservation rid) Q s n := by
  refine returns_do (returns_issue.2 ?_)
  change budgetDatabase.Returns inp (orUnknown rid (s.reservations.find? (·.reservationId = rid)))
    Q s (n + 1)
  cases hfind : s.reservations.find? (·.reservationId = rid) with
  | none => exact returns_raise
  | some r => exact returns_ret.2 (h r hfind)

/-- What `settle` decides of a row whose reservation is in the scope, when these are settled. -/
def verdict (db : BudgetTables) (actual : ℕ) (day : ℤ) (row : RunBudgetRow) (scope : BudgetScope)
    (settled : List String) (used : ℕ) : ReservationStatus :=
  settlementStatus actual (row.limitCostUnits - used -
    db.reservedOthers scope day (settled ++ [row.reservationId]))

theorem settlementStatus_ne (actual available : ℤ) :
    settlementStatus actual available ≠ .reserved := by
  rw [settlementStatus]
  split <;> decide

/-- What a return of `settle` says: the usage of the scope, the verdict and the tables. -/
def Verdict (db : BudgetTables) (run : RunRow) (actual : ℕ) (day : ℤ) (settled : List String)
    (row : RunBudgetRow) (status : ReservationStatus) : Prop :=
  ∃ scope used, db.scopeOf row.reservationId = some scope ∧
    db.usageFor scope day (db.runIdsOf run day row.scopeType) = some used ∧
    status = verdict db actual day row scope settled used

theorem returns_settle (hday : ∀ k, inDay day (inp k).now = true) (h : Settled db settled s) :
    budgetDatabase.Returns inp (settle ⟨row.reservationId, actual, row.limitCostUnits,
        db.runIdsOf run day row.scopeType⟩)
      (fun status s' _ ↦ Verdict db run actual day settled row status ∧
        Settled db (settled ++ [row.reservationId]) s') s n := by
  rw [settle, if_neg (by simp)]
  refine returns_do (returns_loadReservation fun r hr ↦ ?_)
  refine returns_do (returns_issue.2 ?_)
  change budgetDatabase.Returns inp _ _ s (n + 2)
  by_cases hopen : r.status ≠ .reserved
  · rw [if_pos hopen]
    exact returns_raise
  rw [if_neg hopen]
  refine returns_do ((returns_usedCostUnits hday h r.scope _).mono ?_)
  rintro used s₁ n₁ ⟨hused, h₁⟩
  refine returns_do ((returns_reservedCostUnits hday h₁ r.scope row.reservationId).mono ?_)
  rintro reserved s₂ n₂ ⟨rfl, h₂⟩
  refine returns_do (returns_issue.2 (returns_closeReservation (returns_ret.2 ?_)))
  exact ⟨⟨r.scope, used, h.find hr, hused, rfl⟩, h₂.close _ (settlementStatus_ne _ _) _ _⟩

/-- The loop passes over one row: its verdict is returned and its reservation is settled. -/
theorem returns_settleScope (hday : ∀ k, inDay day (inp k).now = true) (h : Settled db settled s) :
    budgetDatabase.Returns inp (settleScope run actual day row)
      (fun out s' _ ↦ out.1 = row.scopeType ∧ Verdict db run actual day settled row out.2 ∧
        Settled db (settled ++ [row.reservationId]) s') s n := by
  refine returns_do ((returns_scopeRunIds h row.scopeType).mono ?_)
  rintro runIds s₁ n₁ ⟨rfl, h₁⟩
  refine returns_do ((returns_settle hday h₁).mono ?_)
  rintro status s₂ n₂ ⟨hverdict, h₂⟩
  refine returns_do (returns_issue.2 (returns_closeRunBudget ?_))
  have h₃ := h₂.runBudgets (s₂.apply (.closeRunBudget run.runId row.scopeType status
    (some (actual : ℤ)) (inp n₂).now)).runBudgets
  by_cases hstatus : status = .exceeded
  · rw [if_pos hstatus]
    exact returns_do (returns_do (returns_issue.2 (returns_issue.2
      (returns_ret.2 ⟨rfl, hverdict, h₃.alerts _⟩))))
  · rw [if_neg hstatus]
    exact returns_ret.2 ⟨rfl, hverdict, h₃⟩

/-- **The loop**: each row has the verdict at its place in the list, given what is settled before
it. -/
theorem returns_collect_settleScope (hday : ∀ k, inDay day (inp k).now = true)
    (rows : List RunBudgetRow) (h : Settled db settled s) :
    budgetDatabase.Returns inp (Prog.collect rows (settleScope run actual day))
      (fun outs _ _ ↦ ∀ before row after, rows = before ++ row :: after →
        ∃ status, outs[before.length]? = some (row.scopeType, status) ∧
          Verdict db run actual day (settled ++ before.map (·.reservationId)) row status) s n := by
  induction rows generalizing s n settled with
  | nil => exact returns_ret.2 fun before row after heq ↦ absurd heq (by simp)
  | cons x _ ih =>
    refine returns_bind.2 ((returns_settleScope hday h).mono ?_)
    rintro ⟨scopeType, status⟩ s₁ n₁ ⟨rfl, hverdict, h₁⟩
    refine returns_bind.2 ((ih h₁).mono ?_)
    intro outs s₂ n₂ houts
    refine returns_ret.2 fun before row after heq ↦ ?_
    cases before with
    | nil =>
      obtain ⟨rfl, -⟩ := List.cons.inj heq
      exact ⟨status, rfl, by simpa using hverdict⟩
    | cons y before =>
      obtain ⟨rfl, hrest⟩ := List.cons.inj heq
      obtain ⟨status', hget, hverdict'⟩ := houts before row after hrest
      exact ⟨status', by simpa using hget, by simpa using hverdict'⟩

end

/-! ## The verdict of a settlement -/

theorem returns_settleForRun {inp : ℕ → BudgetInput} {run : RunRow}
    (hday : ∀ k, inDay day (inp k).now = true) :
    budgetDatabase.Returns inp (settleForRun run) (fun outs _ _ ↦ ∀ before row after,
        db.openBudgets run.runId = before ++ row :: after →
        ∃ status, outs[before.length]? = some (row.scopeType, status) ∧
          Verdict db run (db.actualCost run) day (before.map (·.reservationId)) row status)
      db n := by
  refine returns_do (returns_issue.2 ?_)
  change budgetDatabase.Returns inp (do
    let actual ← orRaise (Except.ok (costUnits (db.usage.filter fun u ↦
      (!ScopeType.scheduleRun.isDaily || inDay 0 u.reportedAt) &&
        decide (u.runId = some run.runId))))
    let now ← ask .now
    let rows ← ask (.openRunBudgets run.runId)
    Prog.collect rows (settleScope run actual (dayWindow now).2.2)) _ db (n + 1)
  refine returns_do (returns_ret.2 (returns_do (returns_issue.2 (returns_do (returns_issue.2 ?_)))))
  have hactual : costUnits (db.usage.filter fun u ↦
      (!ScopeType.scheduleRun.isDaily || inDay 0 u.reportedAt) &&
        decide (u.runId = some run.runId)) = db.actualCost run := rfl
  have hnow : (dayWindow (inp (n + 1)).now).2.2 = day := dayWindow_day (hday _)
  change budgetDatabase.Returns inp (Prog.collect (db.openBudgets run.runId)
    (settleScope run _ (dayWindow (inp (n + 1)).now).2.2)) _ db (n + 3)
  rw [hactual, hnow]
  exact (returns_collect_settleScope hday _ (.refl db)).mono fun outs _ _ h ↦ h

/-- The limit lies between what is recorded and reserved and that sum with what is counted
again. -/
def Straddles (db : BudgetTables) (run : RunRow) (day : ℤ) (row : RunBudgetRow)
    (scope : BudgetScope) (settled : List String) : Prop :=
  let runIds := db.runIdsOf run day row.scopeType
  let total : ℤ := db.recorded run scope day runIds +
    db.reservedOthers scope day (settled ++ [row.reservationId])
  total ≤ row.limitCostUnits ∧ row.limitCostUnits < total + db.countedAgain run scope day runIds

namespace Sample

def workspace : Uuid := ⟨"1a1a1a1a-0000-4000-8000-00000000001a", by decide⟩

def run : RunRow := ⟨"r1", "s1", 0⟩

def reservation (reservationId : String) (scope : BudgetScope) : ReservationRow where
  reservationId := reservationId
  workspaceId := workspace
  scope := scope
  estimatedCostUnits := 10
  createdAt := 0

def rows : List RunBudgetRow :=
  [⟨"r1", .scheduleRun, "b1", 100, .reserved, none, none⟩,
    ⟨"r1", .scheduleDaily, "b2", 100, .reserved, none, none⟩]

/-- The Run has used `own` and another Run of the day has used 20. -/
def tables (own : ℕ) : BudgetTables where
  usage := [⟨none, none, some "r1", own, 0⟩, ⟨none, none, some "r2", 20, 0⟩]
  reservations := [reservation "b1" ⟨.scheduleRun, "r1"⟩, reservation "b2" ⟨.scheduleDaily, "s1"⟩]
  runs := [run, ⟨"r2", "s1", 1⟩]
  runBudgets := rows

def input : ℕ → BudgetInput := fun _ ↦ {}

end Sample

open Sample

theorem exists_serial {α : Type} {inp : ℕ → BudgetInput} {s : BudgetTables} {p : Body α}
    {x : Except BudgetError α} (h : (budgetDatabase.serial inp n s p).1 = x) :
    ∃ s' n', budgetDatabase.serial inp n s p = (x, s', n') :=
  ⟨_, _, Prod.ext h rfl⟩

end AgentColab.Usage
