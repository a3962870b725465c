import AgentColab.Domain.Following
import AgentColab.Verdicts.Independence
import Mathlib.Data.String.Basic

/-!
# Principals of aliased accounts

The principal of an Account is where its aliases lead to. What the walk has seen are different
Accounts of the graph, so it ends. When the aliases run in a cycle the principal is the least
Account that the walk has seen, on the cycle and on the way to it, so it depends on where the walk
begins.
-/

namespace AgentColab.Verdicts

open Approvals (AliasGraph effectivePrincipal followAliases)
open Following StateTransition

/-- What `effective_principal` returns when its loop is over. -/
def principalOf : String × List String → String
  | (current, seen) =>
    if current ∈ seen then seen.foldl (fun a b ↦ if b < a then b else a) current else current

variable {graph : AliasGraph} {a : String} {w : String × List String}

theorem mem_keys_of_lookup {b : String} (h : graph.lookup a = some b) : a ∈ graph.map Prod.fst := by
  obtain ⟨l₁, l₂, rfl, -⟩ := List.lookup_eq_some_iff.1 h
  simp

theorem followAliases_eq {n : ℕ} (hw : OnTheWay (graph.lookup ·) a w)
    (hn : graph.length < n + w.2.length) :
    ∃ w', Reaches (round (graph.lookup ·)) w w' ∧ round (graph.lookup ·) w' = none ∧
      followAliases graph n w.1 w.2 = principalOf w' := by
  induction n generalizing w with
  | zero =>
    have hle := hw.length_le fun b c hbc ↦ mem_keys_of_lookup hbc
    rw [List.length_map] at hle
    omega
  | succ n ih =>
    obtain ⟨current, seen⟩ := w
    cases hnext : graph.lookup current with
    | none =>
      refine ⟨_, .refl, round_eq_none.2 (.inl hnext), ?_⟩
      have hnew : current ∉ seen := by
        intro hback
        obtain ⟨c, hc, -⟩ := hw.next current hback
        simp [hnext] at hc
      simp [followAliases, hnext, principalOf, hnew]
    | some next =>
      by_cases hback : current ∈ seen
      · refine ⟨_, .refl, round_eq_none.2 (.inr hback), ?_⟩
        simp [followAliases, hnext, principalOf, hback]
      · have hround : round (graph.lookup ·) (current, seen) = some (next, seen ++ [current]) :=
          round_eq_some.2 ⟨next, hnext, hback, rfl⟩
        have hn' : graph.length < n + (seen ++ [current]).length := by
          rw [List.length_append, List.length_singleton]
          change graph.length < n + 1 + seen.length at hn
          omega
        obtain ⟨w', hw', hover, heq⟩ := ih (hw.forward hround) hn'
        refine ⟨w', .head hround hw', hover, ?_⟩
        simpa [followAliases, hnext, hback] using heq

theorem effectivePrincipal_eq (a : String) (graph : AliasGraph) :
    ∃ w, Reaches (round (graph.lookup ·)) (a, []) w ∧ round (graph.lookup ·) w = none ∧
      effectivePrincipal a graph = principalOf w :=
  followAliases_eq (onTheWay_start _ a) (by simp)

theorem represents_principalOf {f : String → Option String} (hw : OnTheWay f a w)
    (hover : round f w = none) : Represents f a (principalOf w) := by
  obtain ⟨current, seen⟩ := w
  by_cases hback : current ∈ seen
  · refine .inr ⟨hw.endless hback, ?_⟩
    rw [principalOf, if_pos hback]
    have hleast := isLeast_foldl seen current
    have hseen : {b | b ∈ current :: seen} = {b | Reaches f a b} := by
      ext b
      simp only [Set.mem_ofPred_eq, hw.reaches_of_mem hback, List.mem_cons]
      exact or_iff_right_of_imp fun hb ↦ hb ▸ hback
    rwa [hseen] at hleast
  · rw [principalOf, if_neg hback]
    have hend := (round_eq_none.1 hover).resolve_right hback
    exact .inl (mem_eval.2 ⟨(hw.reaches current).2 (.inr .refl), hend⟩)

/-- **The principal represents the account.** -/
theorem effectivePrincipal_represents (a : String) (graph : AliasGraph) :
    Represents (graph.lookup ·) a (effectivePrincipal a graph) := by
  obtain ⟨w, hw, hover, heq⟩ := effectivePrincipal_eq a graph
  rw [heq]
  exact represents_principalOf ((onTheWay_start _ a).rounds hw) hover

theorem effectivePrincipal_congr {graph' : AliasGraph}
    (h : ∀ b, Reaches (graph.lookup ·) a b → graph'.lookup b = graph.lookup b) :
    effectivePrincipal a graph' = effectivePrincipal a graph :=
  (effectivePrincipal_represents a graph').unique ((effectivePrincipal_represents a graph).congr h)

/-! ## Aliased accounts -/

/-- Aliased accounts share one principal: across an alias, along aliases in either direction, and
as the result of a loop that is over. -/
structure SharePrincipals (graph : AliasGraph) : Prop where
  edge : ∀ a b, graph.lookup a = some b → effectivePrincipal a graph = effectivePrincipal b graph
  path : ∀ a b, Relation.EqvGen (fun a b ↦ graph.lookup a = some b) a b →
    effectivePrincipal a graph = effectivePrincipal b graph
  ends : ∀ a, ∃ w, Reaches (round (graph.lookup ·)) (a, []) w ∧ round (graph.lookup ·) w = none ∧
    effectivePrincipal a graph = principalOf w

theorem sharePrincipals_of_edge (hedge : ∀ a b, graph.lookup a = some b → effectivePrincipal a
    graph = effectivePrincipal b graph) : SharePrincipals graph where
  edge := hedge
  path := by
    intro a b hab
    induction hab with
    | rel a b h => exact hedge a b h
    | refl => rfl
    | symm a b _ ih => exact ih.symm
    | trans a b c _ _ hab hbc => exact hab.trans hbc
  ends := fun a ↦ effectivePrincipal_eq a graph

/-- **Aliased accounts share one principal exactly when no account on the way to a cycle is less
than all that it leads to.** -/
theorem sharePrincipals_iff (graph : AliasGraph) :
    SharePrincipals graph ↔ ∀ a b, graph.lookup a = some b → Endless (graph.lookup ·) a →
      ∃ c, Reaches (graph.lookup ·) b c ∧ c ≤ a := by
  have hiff {a b : String} (h : graph.lookup a = some b) :=
    Represents.eq_iff (f := (graph.lookup ·)) h (effectivePrincipal_represents a graph)
      (effectivePrincipal_represents b graph)
  constructor
  · intro hshare a b h
    exact (hiff h).1 (hshare.edge a b h)
  · intro hcond
    exact sharePrincipals_of_edge fun a b h ↦ (hiff h).2 (hcond a b h)

namespace Sample

/-- An account is an alias of one of two accounts that are aliases of each other. -/
def tail : AliasGraph := [("a", "m"), ("m", "z"), ("z", "m")]

end Sample

/-- The account that leads to the cycle has another principal than the account it is an alias
of. -/
theorem tail_not_sharePrincipals : ¬ SharePrincipals Sample.tail := by
  intro h
  have hedge := h.edge "a" "m" (by decide)
  revert hedge
  decide

end AgentColab.Verdicts
