import AgentColab.Domain.Clock
import Mathlib.Order.Basic

/-!
# The limits of a brainstorm session

Turns for each Agent, consecutive turns of one contributor, turns in all, a budget and a time. A
contribution that would breach one of them is rejected.
-/

namespace AgentColab.Brainstorm

/-- `Limits`; the budget and the time are unlimited when they are zero. -/
structure Limits where
  turnsPerAgent : ℕ
  maxConsecutive : ℕ
  totalTurns : ℕ
  budgetCostUnits : ℕ
  timeLimitMinutes : ℕ
  turnsPerAgent_pos : 0 < turnsPerAgent
  maxConsecutive_pos : 0 < maxConsecutive
  totalTurns_pos : 0 < totalTurns
deriving DecidableEq

/-- `DEFAULTS` -/
def defaults : List (String × ℤ) :=
  [("turns_per_agent", 5), ("max_consecutive", 1), ("total_turns", 40), ("budget_cost_units", 0),
    ("time_limit_minutes", 0)]

/-- `LIMIT_KEYS` -/
def limitKeys : List String := defaults.map Prod.fst

def Limits.asDict (l : Limits) : List (String × Option ℤ) :=
  [("turns_per_agent", some l.turnsPerAgent), ("max_consecutive", some l.maxConsecutive),
    ("total_turns", some l.totalTurns), ("budget_cost_units", some l.budgetCostUnits),
    ("time_limit_minutes", some l.timeLimitMinutes)]

/-- The value of a key, `none` where it is not an integer. -/
def valueOf (raw : List (String × Option ℤ)) (key : String) : Option ℤ :=
  match raw.lookup key with
  | some value => value
  | none => defaults.lookup key

/-- `parse` -/
def parse (raw : List (String × Option ℤ)) : Except String Limits :=
  if raw.any (·.1 ∉ limitKeys) then .error "BRAINSTORM_LIMITS_INVALID"
  else
    match valueOf raw "turns_per_agent", valueOf raw "max_consecutive", valueOf raw "total_turns",
      valueOf raw "budget_cost_units", valueOf raw "time_limit_minutes" with
    | some turns, some consecutive, some total, some budget, some minutes =>
      if h : 0 < turns ∧ 0 < consecutive ∧ 0 < total ∧ 0 ≤ budget ∧ 0 ≤ minutes then
        .ok
          { turnsPerAgent := turns.toNat, maxConsecutive := consecutive.toNat,
            totalTurns := total.toNat, budgetCostUnits := budget.toNat,
            timeLimitMinutes := minutes.toNat, turnsPerAgent_pos := by omega,
            maxConsecutive_pos := by omega, totalTurns_pos := by omega }
      else .error "BRAINSTORM_LIMITS_INVALID"
    | _, _, _, _, _ => .error "BRAINSTORM_LIMITS_INVALID"

/-- `BreachCode` -/
inductive Breach where
  | maxConsecutiveExceeded
  | turnsPerAgentExceeded
  | totalTurnsExceeded
  | budgetExceeded
  | timeLimitExceeded

def Breach.code : Breach → String
  | maxConsecutiveExceeded => "MAX_CONSECUTIVE_EXCEEDED"
  | turnsPerAgentExceeded => "TURNS_PER_AGENT_EXCEEDED"
  | totalTurnsExceeded => "TOTAL_TURNS_EXCEEDED"
  | budgetExceeded => "BUDGET_EXCEEDED"
  | timeLimitExceeded => "TIME_LIMIT_EXCEEDED"

/-- `TurnState`: what the engine knows when a contribution arrives. -/
structure TurnState where
  totalTurns : ℕ
  contributorTurns : ℕ
  consecutiveTurns : ℕ
  isLastContributor : Bool
  spentCostUnits : ℕ
  startedAt : Time
  now : Time

/-- The consecutive turns of the contributor, with this one. -/
def TurnState.consecutive (s : TurnState) : ℕ :=
  if s.isLastContributor then s.consecutiveTurns + 1 else 1

/-- `check`: the first limit that the contribution would breach. -/
def check (limits : Limits) (s : TurnState) (isAgent : Bool) : Option Breach :=
  if limits.maxConsecutive < s.consecutive then some .maxConsecutiveExceeded
  else if isAgent = true ∧ limits.turnsPerAgent < s.contributorTurns + 1 then
    some .turnsPerAgentExceeded
  else if limits.totalTurns < s.totalTurns + 1 then some .totalTurnsExceeded
  else if limits.budgetCostUnits ≠ 0 ∧ limits.budgetCostUnits < s.spentCostUnits then
    some .budgetExceeded
  else if limits.timeLimitMinutes ≠ 0 ∧
      (limits.timeLimitMinutes : ℤ) * 60000000 < s.now - s.startedAt then some .timeLimitExceeded
  else none

theorem check_none {limits : Limits} {s : TurnState} {isAgent : Bool}
    (h : check limits s isAgent = none) : s.consecutive ≤ limits.maxConsecutive ∧
      (isAgent = true → s.contributorTurns + 1 ≤ limits.turnsPerAgent) ∧
      s.totalTurns + 1 ≤ limits.totalTurns := by
  unfold check at h
  split_ifs at h with hconsecutive hagent htotal
  refine ⟨Nat.not_lt.1 hconsecutive, fun hrole ↦ ?_, Nat.not_lt.1 htotal⟩
  exact Nat.not_lt.1 fun hlt ↦ hagent ⟨hrole, hlt⟩

end AgentColab.Brainstorm
