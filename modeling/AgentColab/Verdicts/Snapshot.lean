import AgentColab.Verdicts.Principals
import Mathlib.Data.List.Sort
import Mathlib.Data.Prod.Lex

/-!
# Snapshots of an assignment

An assignment pins the two identities, and of the aliases those on the chains of the two Accounts
and those that point to one of them. Independence can be checked on the snapshot alone, and the
answer is that of the full graph.
-/

namespace AgentColab.Verdicts

open List

open Approvals (AliasGraph effectivePrincipal)
open Following StateTransition

/-- `keep.add(…)` -/
def addEdge (keep : List (String × String)) (e : String × String) : List (String × String) :=
  if keep.contains e then keep else keep ++ [e]

/-- The `while` loop of `relevant_alias_edges`. -/
def chainEdges (graph : AliasGraph) : ℕ → String → List String → List (String × String) →
    List (String × String)
  | 0, _, _, keep => keep
  | n + 1, cur, seen, keep =>
    match graph.lookup cur with
    | none => keep
    | some next =>
      if cur ∈ seen then keep
      else chainEdges graph n next (seen ++ [cur]) (addEdge keep (cur, next))

/-- `graph.items()`: every key with the value that counts for it. -/
def aliasItems (graph : AliasGraph) : List (String × String) :=
  graph.filter fun e ↦ graph.lookup e.1 = some e.2

/-- What `relevant_alias_edges` adds for an account. -/
def accountEdges (graph : AliasGraph) (keep : List (String × String)) (acct : String) :
    List (String × String) :=
  ((aliasItems graph).filter fun e ↦ e.2 = acct).foldl addEdge
    (chainEdges graph (graph.length + 2) acct [] keep)

/-- Edges touching the given accounts or their alias chains. -/
def relevantAliasEdges (graph : AliasGraph) (accounts : List String) : List (String × String) :=
  (accounts.foldl (accountEdges graph) []).insertionSort fun e e' ↦ toLex e ≤ toLex e'

structure Snapshot where
  implementerAccountId : String
  verifierAccountId : String
  implementerAgentId : Option String
  verifierAgentId : Option String
  implementerCredentialFingerprint : String
  verifierCredentialFingerprint : String
  identityGraphVersion : String
  aliasEdges : List (String × String)
  effectivePolicyHash : String
  criteriaVersion : String
  targetCommit : String

def buildSnapshot (implementer verifier : Identity) (identityGraphVersion effectivePolicyHash
    criteriaVersion targetCommit : String) (aliasEdges : List (String × String)) : Snapshot where
  implementerAccountId := implementer.accountId
  verifierAccountId := verifier.accountId
  implementerAgentId := implementer.agentId
  verifierAgentId := verifier.agentId
  implementerCredentialFingerprint := implementer.credentialFingerprint
  verifierCredentialFingerprint := verifier.credentialFingerprint
  identityGraphVersion := identityGraphVersion
  aliasEdges := aliasEdges
  effectivePolicyHash := effectivePolicyHash
  criteriaVersion := criteriaVersion
  targetCommit := targetCommit

/-- Re-evaluate independence purely from a stored snapshot. Of two edges of an account the last
one would count. -/
def independenceFromSnapshot (snapshot : Snapshot) : Except VerdictError Unit :=
  checkIndependence ⟨snapshot.implementerAccountId, snapshot.implementerCredentialFingerprint,
      snapshot.implementerAgentId⟩
    ⟨snapshot.verifierAccountId, snapshot.verifierCredentialFingerprint, snapshot.verifierAgentId⟩
    snapshot.aliasEdges.reverse

/-! ## The edges of the snapshot -/

variable {keep : List (String × String)} {e : String × String} {graph : AliasGraph} {a : String}
    {accounts : List String}

@[simp]
theorem mem_addEdge {e' : String × String} : e' ∈ addEdge keep e ↔ e' ∈ keep ∨ e' = e := by
  by_cases h : e ∈ keep
  · simp only [addEdge, if_pos (contains_iff_mem.2 h)]
    exact ⟨.inl, fun h' ↦ h'.elim id fun heq ↦ heq ▸ h⟩
  · simp [addEdge, h]

theorem mem_foldl_addEdge {l : List (String × String)} :
    e ∈ l.foldl addEdge keep ↔ e ∈ keep ∨ e ∈ l := by
  induction l generalizing keep with
  | nil => simp
  | cons _ l ih => rw [foldl_cons, ih, mem_addEdge, mem_cons, or_assoc]

theorem mem_aliasItems (h : e ∈ aliasItems graph) : graph.lookup e.1 = some e.2 := by
  simpa using (mem_filter.1 h).2

/-- The loop keeps what it had, the edge of every account that it meets, and nothing that is not an
edge. -/
theorem chainEdges_spec {n : ℕ} {w : String × List String} (hw : OnTheWay (graph.lookup ·) a w)
    (hn : graph.length < n + w.2.length)
    (hkeep : ∀ b ∈ w.2, ∀ c, graph.lookup b = some c → (b, c) ∈ keep) :
    (∀ e ∈ keep, e ∈ chainEdges graph n w.1 w.2 keep) ∧
    (∀ e ∈ chainEdges graph n w.1 w.2 keep, e ∈ keep ∨ graph.lookup e.1 = some e.2) ∧
    (∀ b c, Reaches (graph.lookup ·) a b → graph.lookup b = some c →
      (b, c) ∈ chainEdges graph n w.1 w.2 keep) := by
  induction n generalizing w keep with
  | zero =>
    have hle := hw.length_le fun b c hbc ↦ mem_keys_of_lookup hbc
    rw [length_map] at hle
    omega
  | succ n ih =>
    obtain ⟨current, seen⟩ := w
    have hover (hround : round (graph.lookup ·) (current, seen) = none) (b c : String)
        (hab : Reaches (graph.lookup ·) a b) (hbc : graph.lookup b = some c) : (b, c) ∈ keep :=
      hkeep b (hw.mem_of_over hround hab (by simp [hbc])) c hbc
    cases hnext : graph.lookup current with
    | none =>
      simp only [chainEdges, hnext]
      exact ⟨fun e he ↦ he, fun e he ↦ .inl he, hover (round_eq_none.2 (.inl hnext))⟩
    | some next =>
      by_cases hback : current ∈ seen
      · simp only [chainEdges, hnext, if_pos hback]
        exact ⟨fun e he ↦ he, fun e he ↦ .inl he, hover (round_eq_none.2 (.inr hback))⟩
      · have hround : round (graph.lookup ·) (current, seen) = some (next, seen ++ [current]) :=
          round_eq_some.2 ⟨next, hnext, hback, rfl⟩
        have hn' : graph.length < n + (seen ++ [current]).length := by
          rw [length_append, length_singleton]
          change graph.length < n + 1 + seen.length at hn
          omega
        have hkeep' : ∀ b ∈ seen ++ [current], ∀ c, graph.lookup b = some c →
            (b, c) ∈ addEdge keep (current, next) := by
          intro b hb c hc
          rw [mem_addEdge]
          rcases mem_append.1 hb with hb | hb
          · exact .inl (hkeep b hb c hc)
          · obtain rfl := mem_singleton.1 hb
            obtain rfl := Option.mem_unique hc hnext
            exact .inr rfl
        obtain ⟨hold, hedges, hall⟩ := ih (hw.forward hround) hn' hkeep'
        simp only [chainEdges, hnext, if_neg hback]
        refine ⟨fun e he ↦ hold e (mem_addEdge.2 (.inl he)), fun e he ↦ ?_, hall⟩
        rcases hedges e he with he | he
        · rcases mem_addEdge.1 he with he | rfl
          · exact .inl he
          · exact .inr hnext
        · exact .inr he

/-- The edges kept are edges of the graph, and an account whose chain has been walked has the edges
of its chain among them. -/
structure Relevant (graph : AliasGraph) (accounts : List String) (keep : List (String × String)) :
    Prop where
  edge : ∀ e ∈ keep, graph.lookup e.1 = some e.2
  chain : ∀ a ∈ accounts, ∀ b c, Reaches (graph.lookup ·) a b → graph.lookup b = some c →
    (b, c) ∈ keep

theorem Relevant.accountEdges (hkeep : Relevant graph accounts keep) (acct : String) :
    Relevant graph (acct :: accounts) (accountEdges graph keep acct) := by
  obtain ⟨hold, hedges, hall⟩ := chainEdges_spec
    (onTheWay_start (graph.lookup ·) acct) (n := graph.length + 2) (by simp) (by simp)
  constructor
  · intro e he
    rcases mem_foldl_addEdge.1 he with he | he
    · exact (hedges e he).elim (hkeep.edge e) id
    · exact mem_aliasItems (mem_filter.1 he).1
  · intro a ha b c hab hbc
    refine mem_foldl_addEdge.2 (.inl ?_)
    rcases mem_cons.1 ha with rfl | ha
    · exact hall b c hab hbc
    · exact hold _ (hkeep.chain a ha b c hab hbc)

theorem relevant_foldl (l : List String) (hkeep : Relevant graph accounts keep) :
    Relevant graph (l.reverse ++ accounts) (l.foldl (accountEdges graph) keep) := by
  induction l generalizing accounts keep with
  | nil => exact hkeep
  | cons a l ih => simpa using ih (hkeep.accountEdges a)

theorem relevant_relevantAliasEdges (graph : AliasGraph) (accounts : List String) :
    Relevant graph accounts (relevantAliasEdges graph accounts) := by
  have hnil : Relevant graph [] [] := ⟨by simp, by simp⟩
  have hrel := relevant_foldl accounts hnil
  constructor
  · intro e he
    exact hrel.edge e ((mem_insertionSort _).1 he)
  · intro a ha b c hab hbc
    exact (mem_insertionSort _).2 (hrel.chain a (by simpa using ha) b c hab hbc)

theorem Relevant.lookup_eq (hkeep : Relevant graph accounts keep) {b : String} (ha : a ∈ accounts)
    (hab : Reaches (graph.lookup ·) a b) : List.lookup b keep.reverse = graph.lookup b := by
  cases hb : graph.lookup b with
  | none =>
    refine lookup_eq_none_iff.2 fun e he ↦ ?_
    rw [bne_iff_ne]
    rintro rfl
    simp [hkeep.edge e (mem_reverse.1 he)] at hb
  | some c =>
    have hmem := mem_reverse.2 (hkeep.chain a ha b c hab hb)
    cases hlookup : List.lookup b keep.reverse with
    | none => simpa using lookup_eq_none_iff.1 hlookup _ hmem
    | some d =>
      obtain ⟨l₁, l₂, heq, -⟩ := lookup_eq_some_iff.1 hlookup
      have hd : (b, d) ∈ keep := mem_reverse.1 (heq ▸ by simp)
      rw [← hb, hkeep.edge _ hd]

/-- **A snapshot answers as the full graph does.** -/
theorem independenceFromSnapshot_eq (graph : AliasGraph) (implementer verifier : Identity)
    (identityGraphVersion effectivePolicyHash criteriaVersion targetCommit : String) :
    independenceFromSnapshot (buildSnapshot implementer verifier identityGraphVersion
        effectivePolicyHash criteriaVersion targetCommit
        (relevantAliasEdges graph [implementer.accountId, verifier.accountId])) =
      checkIndependence implementer verifier graph := by
  have hrel := relevant_relevantAliasEdges graph [implementer.accountId, verifier.accountId]
  have hprincipal {a : String} (ha : a ∈ [implementer.accountId, verifier.accountId]) :
      effectivePrincipal a
          (relevantAliasEdges graph [implementer.accountId, verifier.accountId]).reverse =
        effectivePrincipal a graph :=
    effectivePrincipal_congr fun b hab ↦ hrel.lookup_eq ha hab
  simp only [independenceFromSnapshot, buildSnapshot, checkIndependence,
    hprincipal mem_cons_self, hprincipal (mem_cons_of_mem _ mem_cons_self)]

end AgentColab.Verdicts
