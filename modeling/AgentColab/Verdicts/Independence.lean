import AgentColab.Approvals.Contract

/-!
# Independence of implementer and verifier

Two Accounts are the same party if following the aliases leads to the same effective principal.
-/

namespace AgentColab.Verdicts

open Approvals (AliasGraph effectivePrincipal)

structure Identity where
  accountId : String
  credentialFingerprint : String
  agentId : Option String := none

structure VerdictError where
  code : String
  detail : String
  status : ℕ := 409

/-- A truthy text of the other. -/
def sameAgent (a b : Option String) : Option String :=
  match a, b with
  | some x, some y => if x ≠ "" ∧ x = y then some x else none
  | _, _ => none

/-- `check_independence`. The two optional checks at its end are not asked for by a command. -/
def checkIndependence (implementer verifier : Identity) (graph : AliasGraph) :
    Except VerdictError Unit :=
  if implementer.accountId = verifier.accountId then
    .error { code := "VERIFIER_SAME_ACCOUNT", detail := implementer.accountId }
  else match sameAgent implementer.agentId verifier.agentId with
    | some agentId => .error { code := "VERIFIER_SAME_AGENT", detail := agentId }
    | none =>
      if implementer.credentialFingerprint = verifier.credentialFingerprint then
        .error { code := "VERIFIER_SAME_CREDENTIAL", detail := "shared fingerprint" }
      else if effectivePrincipal implementer.accountId graph =
          effectivePrincipal verifier.accountId graph then
        .error { code := "VERIFIER_ALIAS_OF_IMPLEMENTER", detail := verifier.accountId }
      else .ok ()

/-- The parties of a run, as they are pinned in its row. -/
structure Parties where
  implementer : Identity
  verifier : Identity

/-- `check_submitter` -/
def checkSubmitter (parties : Parties) (submitterAccountId submitterFingerprint : String)
    (graph : AliasGraph) : Except VerdictError Unit :=
  if submitterAccountId = parties.implementer.accountId ∨
      effectivePrincipal submitterAccountId graph =
        effectivePrincipal parties.implementer.accountId graph ∨
      submitterFingerprint = parties.implementer.credentialFingerprint then
    .error { code := "SELF_VERIFICATION_FORBIDDEN"
             detail := "the implementer cannot verify its own scope" }
  else if submitterAccountId ≠ parties.verifier.accountId then
    .error { code := "VERIFIER_MISMATCH", detail := "only the assigned verifier may submit" }
  else .ok ()

/-- **The submitter is the verifier and nobody else.** -/
theorem checkSubmitter_eq_ok {parties : Parties} {account fingerprint : String}
    {graph : AliasGraph} : checkSubmitter parties account fingerprint graph = .ok () ↔
      account = parties.verifier.accountId ∧ effectivePrincipal account graph ≠
          effectivePrincipal parties.implementer.accountId graph ∧
        fingerprint ≠ parties.implementer.credentialFingerprint := by
  rw [checkSubmitter]
  constructor
  · intro h
    split_ifs at h with hself haccount
    obtain ⟨-, hprincipal, hfingerprint⟩ := not_or.1 hself |>.imp id not_or.1
    exact ⟨not_not.1 haccount, hprincipal, hfingerprint⟩
  · rintro ⟨haccount, hprincipal, hfingerprint⟩
    have hne : account ≠ parties.implementer.accountId := by
      rintro rfl
      exact hprincipal rfl
    rw [if_neg (by simp [hne, hprincipal, hfingerprint]), if_neg (by simp [haccount])]

end AgentColab.Verdicts
