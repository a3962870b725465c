import AgentColab.Schedules.Cron
import Mathlib.Data.Finset.Sort

/-!
# What a search returns

The executable occurrences that a search returns are the first `count` instants of matching minutes
after the start, in order: of a minute that the clock shows twice only the first instant counts. A
matching minute that the clock skips stands in its place, if gaps are asked for.
-/

namespace AgentColab.Schedules

open AgentColab Enumeration

namespace Search

variable (q : Search)

/-- The instants of matching minutes strictly after the start, up to the horizon. -/
def instants : Set Time :=
  {u | ∃ m, q.cron.matchesMinute m = true ∧ dayOf m ≤ q.horizon ∧
    (resolveLocal q.zone m).1 = some u ∧ q.afterUtc < u}

theorem filterMap_utc (l : List Occurrence) :
    l.filterMap Occurrence.utc = (l.filter Occurrence.executable).map fun occ ↦ occ.utc.getD 0 := by
  induction l with
  | nil => rfl
  | cons occ l ih => cases h : occ.utc <;> simp [Occurrence.executable, h, ih]

theorem pairwise_utc_all : (q.all.filterMap Occurrence.utc).Pairwise (· < ·) := by
  rw [List.pairwise_filterMap]
  refine (q.pairwise_entries _ _).imp_of_mem ?_
  intro a b ha hb hab u hu u' hu'
  have hocc := (q.occurrence_of_mem_all ha).1
  have hocc' := (q.occurrence_of_mem_all hb).1
  rw [hocc, utc_occurrence] at hu
  rw [hocc', utc_occurrence] at hu'
  exact resolveLocal_lt hu hu' hab

theorem mem_utc_all {u : Time} : u ∈ q.all.filterMap Occurrence.utc ↔ u ∈ q.instants := by
  rw [List.mem_filterMap]
  constructor
  · rintro ⟨occ, hocc, hu⟩
    obtain ⟨m, hm, hd, he⟩ := q.mem_entries.1 hocc
    have hexec : occ.executable = true := by rw [Occurrence.executable, hu, Option.isSome_some]
    obtain ⟨hup, rfl⟩ := (q.entry_eq_some hexec).1 ⟨hm, he⟩
    obtain ⟨-, u', hu', hafter⟩ := q.upcoming_eq_true.1 hup
    obtain rfl : u = u' := Option.some_inj.1 (hu.symm.trans hu')
    refine ⟨m, hm, ?_, hu', hafter⟩
    rw [horizon]
    omega
  · rintro ⟨m, hm, hd, hu, hafter⟩
    have hup : q.upcoming m = true := q.upcoming_eq_true.2 ⟨hm, u, hu, hafter⟩
    exact ⟨q.occurrence m, (q.occurrence_mem_all hup).2 hd, hu⟩

end Search

/-- What a search returns: the occurrences of matching minutes in their order, of which the
executable ones have the first `count` instants. A gap is among them if fewer than `count`
executable occurrences come before it. -/
structure FirstOccurrences (q : Search) (count : ℕ) (l : List Occurrence) : Prop where
  ordered : l.Pairwise fun a b ↦ a.localMinute < b.localMinute
  entry : ∀ occ ∈ l,
    occ = q.occurrence occ.localMinute ∧ q.cron.matchesMinute occ.localMinute = true
  instants : ∃ s : Finset Time, (∀ u, u ∈ s ↔ u ∈ q.instants) ∧
    l.filterMap Occurrence.utc = (s.sort (· ≤ ·)).take count
  gaps : ∀ m, (resolveLocal q.zone m).1 = none → (q.occurrence m ∈ l ↔
    q.includeGaps = true ∧ q.cron.matchesMinute m = true ∧
      (q.startLocal ≤ m ∧ dayOf m ≤ q.horizon) ∧ q.rank m < count)

end AgentColab.Schedules
