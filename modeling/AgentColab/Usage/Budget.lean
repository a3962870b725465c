import AgentColab.Transaction.Invariant
import AgentColab.Usage.Records

/-!
# Budget reservation and settlement

An estimate is reserved in the transaction of the side effect, under the lock of its scope. When
the sum of what is used, what is reserved and the estimate is over the limit nothing is reserved
and a `BUDGET_EXCEEDED` Event says so. After the result the reservation is settled with the actual
cost, or released if the side effect never happened.
-/

namespace AgentColab.Usage

open AgentColab Transaction

abbrev Body (α : Type) := Prog Res BudgetError α

def ask (o : Op) : Body (Res o) := Prog.issue o

def orRaise {α : Type} : Except BudgetError α → Body α
  | .ok a => pure a
  | .error e => throw e

/-- `Reservation` -/
structure Reservation where
  reservationId : String
  scope : BudgetScope
  estimatedCostUnits : ℤ
  eventId : ℕ

structure ReservationOutcome where
  reserved : Bool
  reservation : Option Reservation
  eventId : ℕ
  limitCostUnits : ℤ
  requestedCostUnits : ℤ
  usedCostUnits : ℤ
  reservedCostUnits : ℤ

/-- The arguments of `try_reserve`. -/
structure TryReserve where
  workspaceId : String
  actorAccountId : String
  scope : BudgetScope
  limitCostUnits : ℤ
  estimate : ℤ
  workItemId : Option String := none
  correlationId : String := ""
  idempotencyKey : Option String := none
  runIds : List String := []

/-- `would_exceed` -/
def wouldExceed (used reserved estimate limit : ℤ) : Bool := limit < used + reserved + estimate

/-- `settlement_status` -/
def settlementStatus (actual available : ℤ) : ReservationStatus :=
  if available < actual then .exceeded else .settled

def usedCostUnits (scope : BudgetScope) (runIds : List String) : Body ℕ := do
  let now ← ask .now
  orRaise (← ask (.usageFor scope (dayWindow now).2.2 runIds))

def reservedCostUnits (scope : BudgetScope) (exclude : Option String) : Body ℕ := do
  let now ← ask .now
  ask (.reserved scope (dayWindow now).2.2 exclude)

/-- A text that is there and not empty. -/
def truthy (s : Option String) : Option String := s.filter (· ≠ "")

def eventKey (r : TryReserve) : Body String :=
  match truthy r.idempotencyKey with
  | some key => pure key
  | none =>
    match truthy r.workItemId with
    | some workItemId => pure (workItemId ++ ":" ++ toString r.estimate)
    | none => do
      let hex ← ask .uuidHex
      return hex ++ ":" ++ toString r.estimate

/-- The request for an Event on the stream of the scope. -/
def TryReserve.event (r : TryReserve) (idempotencyScope key : String) (payload : Payload) :
    AppendRequest where
  workspaceId := r.workspaceId
  aggregateId := r.scope.aggregateId
  actorAccountId := r.actorAccountId
  correlationId := r.correlationId
  idempotencyScope := idempotencyScope
  idempotencyKey := key
  payload := payload

def TryReserve.exceeded (r : TryReserve) (used reserved : ℤ) (key : String) : AppendRequest :=
  r.event "budget:exceeded" key
    (.exceeded r.scope r.limitCostUnits r.estimate used reserved r.workItemId)

/-- What is left of `try_reserve` when the estimate does not fit. -/
def refuse (r : TryReserve) (used reserved : ℤ) (key : String) : Body ReservationOutcome := do
  let eventId ← orRaise (← ask (.append (r.exceeded used reserved key)))
  return ⟨false, none, eventId, r.limitCostUnits, r.estimate, used, reserved⟩

/-- What is left of `try_reserve` when it fits. -/
def grant (r : TryReserve) (used reserved : ℤ) : Body ReservationOutcome := do
  let hex ← ask .uuidHex
  let reservationId := "bres-" ++ String.ofList (hex.toList.take 20)
  match parseUuid r.workspaceId with
  | none => throw .value
  | some workspaceId =>
    let now ← ask .now
    orRaise (← ask (.insertReservation {
      reservationId := reservationId
      workspaceId := workspaceId
      scope := r.scope
      workItemId := r.workItemId
      estimatedCostUnits := r.estimate.toNat
      createdAt := now }))
    let eventId ← orRaise (← ask (.append (r.event "budget:reserve" reservationId
      (.reserved reservationId r.scope r.estimate r.workItemId))))
    return ⟨true, some ⟨reservationId, r.scope, r.estimate, eventId⟩, eventId, r.limitCostUnits,
      r.estimate, used, reserved⟩

def invalidValue : BudgetError :=
  .command "BUDGET_VALUE_INVALID" "cost_units must be non-negative" 400

/-- `try_reserve` -/
def tryReserve (r : TryReserve) : Body ReservationOutcome :=
  if r.estimate < 0 ∨ r.limitCostUnits < 0 then throw invalidValue
  else do
    ask (.lockScope r.scope)
    let used ← usedCostUnits r.scope r.runIds
    let reserved ← reservedCostUnits r.scope none
    let key ← eventKey r
    if wouldExceed used reserved r.estimate r.limitCostUnits then refuse r used reserved key
    else grant r used reserved

def ReservationStatus.value : ReservationStatus → String
  | reserved => "reserved"
  | settled => "settled"
  | exceeded => "exceeded"
  | released => "released"

def orUnknown (reservationId : String) : Option ReservationRow → Body ReservationRow
  | some row => pure row
  | none => throw (.command "BUDGET_RESERVATION_UNKNOWN" reservationId 404)

/-- `_load_reservation` -/
def loadReservation (reservationId : String) : Body ReservationRow := do
  orUnknown reservationId (← ask (.loadReservation reservationId))

def notOpen (row : ReservationRow) : BudgetError :=
  .command "BUDGET_RESERVATION_NOT_OPEN" (row.reservationId ++ " is " ++ row.status.value) 409

/-- The arguments of `settle`. -/
structure Settle where
  reservationId : String
  actualCostUnits : ℤ
  limitCostUnits : ℤ
  runIds : List String := []

/-- What is left of `settle` when the reservation is loaded. -/
def settleRow (a : Settle) (row : ReservationRow) : Body ReservationStatus := do
  ask (.lockScope row.scope)
  if row.status ≠ .reserved then throw (notOpen row)
  else
    let usedOthers ← usedCostUnits row.scope a.runIds
    let reservedOthers ← reservedCostUnits row.scope (some a.reservationId)
    let status := settlementStatus a.actualCostUnits
      (a.limitCostUnits - usedOthers - reservedOthers)
    let now ← ask .now
    orRaise (← ask (.closeReservation a.reservationId status (some a.actualCostUnits) now))
    return status

/-- `settle` -/
def settle (a : Settle) : Body ReservationStatus :=
  if a.actualCostUnits < 0 then throw invalidValue
  else do
    let row ← loadReservation a.reservationId
    settleRow a row

/-- `release` -/
def release (reservationId : String) : Body Unit := do
  let row ← loadReservation reservationId
  if row.status ≠ .reserved then throw (notOpen row)
  else
    let now ← ask .now
    orRaise (← ask (.closeReservation reservationId .released none now))

/-! ## The system -/

inductive BudgetCall where
  | tryReserve (r : TryReserve)
  | settle (a : Settle)
  | release (reservationId : String)

inductive BudgetResult where
  | outcome (o : ReservationOutcome)
  | status (s : ReservationStatus)
  | done

def BudgetCall.body : BudgetCall → Body BudgetResult
  | tryReserve r => do return .outcome (← Usage.tryReserve r)
  | settle a => do return .status (← Usage.settle a)
  | release rid => do
    Usage.release rid
    return .done

/-- Sessions that make any calls in any order and commit or roll back as they like. -/
def budgetSystem : System where
  Op := Op
  Res := Res
  Err := BudgetError
  Ret := BudgetResult
  db := budgetDatabase
  Entry := BudgetCall
  body := BudgetCall.body
  Aux := Unit
  mayCall _ _ _ := true
  mayCommit _ := true
  onCall aux _ := aux
  onCommit aux _ := aux

end AgentColab.Usage
