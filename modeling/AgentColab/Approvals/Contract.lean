import AgentColab.Domain.Clock
import Mathlib.Tactic.FinCases

/-!
# Approval states and subjects

The states of an Approval and the transitions between them. A consumption leads to `CONSUMED` when
the last allowed use is taken.

Ids of Approvals and Events are numbers that have not been used before.
-/

namespace AgentColab.Approvals

open AgentColab

structure ApprovalError where
  code : String
  detail : String
  status : ℕ := 409

inductive ApprovalStatus where
  | pending
  | approved
  | partiallyConsumed
  | consumed
  | rejected
  | cancelled
  | expired
  | revoked
deriving DecidableEq

def ApprovalStatus.value : ApprovalStatus → String
  | pending => "PENDING"
  | approved => "APPROVED"
  | partiallyConsumed => "PARTIALLY_CONSUMED"
  | consumed => "CONSUMED"
  | rejected => "REJECTED"
  | cancelled => "CANCELLED"
  | expired => "EXPIRED"
  | revoked => "REVOKED"

/-- `TERMINAL` -/
def ApprovalStatus.terminal : List ApprovalStatus :=
  [.consumed, .rejected, .cancelled, .expired, .revoked]

/-- `CONSUMABLE` -/
def ApprovalStatus.consumable : List ApprovalStatus := [.approved, .partiallyConsumed]

inductive EventType where
  | requested
  | granted
  | rejected
  | cancelled
  | expired
  | revoked
  | consumed
  | escalated
deriving DecidableEq

def EventType.value : EventType → String
  | requested => "APPROVAL_REQUESTED"
  | granted => "APPROVAL_GRANTED"
  | rejected => "APPROVAL_REJECTED"
  | cancelled => "APPROVAL_CANCELLED"
  | expired => "APPROVAL_EXPIRED"
  | revoked => "APPROVAL_REVOKED"
  | consumed => "APPROVAL_CONSUMED"
  | escalated => "APPROVAL_ESCALATED"

/-- `TRANSITIONS` -/
def transitions : ApprovalStatus → EventType → Option ApprovalStatus
  | .pending, .granted => some .approved
  | .pending, .rejected => some .rejected
  | .pending, .cancelled => some .cancelled
  | .pending, .expired => some .expired
  | .pending, .revoked => some .revoked
  | .approved, .consumed => some .partiallyConsumed
  | .approved, .cancelled => some .cancelled
  | .approved, .expired => some .expired
  | .approved, .revoked => some .revoked
  | .partiallyConsumed, .consumed => some .partiallyConsumed
  | .partiallyConsumed, .cancelled => some .cancelled
  | .partiallyConsumed, .expired => some .expired
  | .partiallyConsumed, .revoked => some .revoked
  | _, _ => none

def nextStatus (current : ApprovalStatus) (etype : EventType) :
    Except ApprovalError ApprovalStatus :=
  if current ∈ ApprovalStatus.terminal then
    .error ⟨"APPROVAL_TERMINAL", current.value ++ " is terminal", 409⟩
  else match transitions current etype with
    | some target => .ok target
    | none =>
      .error ⟨"APPROVAL_TRANSITION_INVALID", current.value ++ " + " ++ etype.value, 409⟩

variable {current : ApprovalStatus} {etype : EventType}

theorem nextStatus_eq_ok {target : ApprovalStatus} (h : nextStatus current etype = .ok target) :
    current ∉ ApprovalStatus.terminal ∧ transitions current etype = some target := by
  rw [nextStatus] at h
  split_ifs at h with hterm
  refine ⟨hterm, ?_⟩
  cases hlegal : transitions current etype with
  | none => simp [hlegal] at h
  | some => simpa [hlegal] using h

/-- The status that an Event of this type leads to, whatever it leads from. -/
def EventType.target : EventType → Option ApprovalStatus
  | granted => some .approved
  | rejected => some .rejected
  | cancelled => some .cancelled
  | expired => some .expired
  | revoked => some .revoked
  | _ => none

theorem target_of_transitions {target : ApprovalStatus}
    (h : transitions current etype = some target) (hc : etype ≠ .consumed) :
    etype.target = some target := by
  rw [transitions.eq_def] at h
  split at h <;> simp_all [EventType.target]

/-- `CONSUMED` once the last allowed use is taken. -/
def statusAfterConsumption (usedCount : ℕ) (maxUses : Option ℤ) : ApprovalStatus :=
  match maxUses with
  | some m => if (usedCount : ℤ) ≥ m then .consumed else .partiallyConsumed
  | none => .partiallyConsumed

theorem statusAfterConsumption_eq (usedCount : ℕ) (maxUses : Option ℤ) :
    statusAfterConsumption usedCount maxUses =
      if maxUses.any fun m ↦ (usedCount : ℤ) ≥ m then .consumed else .partiallyConsumed := by
  cases maxUses <;> simp [statusAfterConsumption]

/-- `default_expiry`: a day. -/
def defaultExpiry (validFrom : Time) : Time := validFrom + 24 * 3600 * 1000000

/-! ## Subjects and grants -/

inductive SubjectType where
  | task
  | schedule
  | run
  | action
deriving DecidableEq

structure Subject where
  subjectType : SubjectType
  subjectId : String
deriving DecidableEq

/-- In the order of `RISK_ORDER`. -/
inductive Risk where
  | low
  | medium
  | high
  | critical
deriving DecidableEq

def Risk.index : Risk → ℕ
  | low => 0
  | medium => 1
  | high => 2
  | critical => 3

/-- A row of `approval_grants`. -/
structure Grant where
  approvalId : ℕ
  workspaceUuid : String
  subject : Subject
  action : String
  risk : Risk
  status : ApprovalStatus := .pending
  requestedBy : String
  implementingAgentAccount : Option String := none
  channelUuid : Option String := none
  validFrom : Time
  expiresAt : Time
  maxUses : Option ℤ := none
  quorumRequired : ℕ
  aggregateSeq : ℕ := 0
  requiresHumanApproval : Bool := false
  /-- `resource_scope->>'idempotency_key'` -/
  idempotencyKey : String

/-- `usable_at` -/
def Grant.usableAt (g : Grant) (now : Time) : Bool :=
  g.status ∈ ApprovalStatus.consumable && g.validFrom ≤ now && now < g.expiresAt

structure PolicyCatalog where
  riskFor : String → Risk
  quorum : Risk → ℕ
  /-- `human_only_from` -/
  humanOnlyFrom : Risk
  escalationRole : String

def PolicyCatalog.humanOnly (catalog : PolicyCatalog) (risk : Risk) : Bool :=
  risk.index ≥ catalog.humanOnlyFrom.index

/-! ## Principals -/

/-- `alias_graph`: an account and the account that it is an alias of. Of several entries for an
account the first counts. -/
abbrev AliasGraph := List (String × String)

/-- The `while` loop of `effective_principal`, with the accounts it has seen. -/
def followAliases (graph : AliasGraph) : ℕ → String → List String → String
  | 0, current, _ => current
  | n + 1, current, seen =>
    match graph.lookup current with
    | none => current
    | some next =>
      -- a cycle: pick a deterministic representative
      if current ∈ seen then seen.foldl (fun a b ↦ if b < a then b else a) current
      else followAliases graph n next (seen ++ [current])

/-- Follow alias edges to the root. Every round but the last adds an account of the graph. -/
def effectivePrincipal (account : String) (graph : AliasGraph) : String :=
  followAliases graph (graph.length + 2) account []

/-- `_same_principal` -/
def samePrincipal (a : String) (b : Option String) (graph : AliasGraph) : Bool :=
  match b with
  | none => false
  | some b => effectivePrincipal a graph = effectivePrincipal b graph

end AgentColab.Approvals
