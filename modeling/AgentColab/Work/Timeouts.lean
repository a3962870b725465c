import AgentColab.Work.Exact

/-!
# The timeout sweep and the agents

The sweep decides on rows that it has read without a lock. Before it locks a row an agent may
acknowledge the item or submit its result. An expiry for the missing acknowledgement is then still a
transition, so the acknowledged item expires; a redelivery is not, so the sweep raises.
-/

namespace AgentColab.Work

open Transaction System Option

section Runs

variable {cfg : Config}

theorem acked_apply (wid : String) (db : WorkTables) (x : WorkWrite)
    (h : ∃ row, db.item wid = some row ∧ row.ackedAt ≠ none) :
    ∃ row, (db.apply x).item wid = some row ∧ row.ackedAt ≠ none := by
  obtain ⟨row, hrow, hacked⟩ := h
  cases x with
  | insertItem row' =>
    by_cases hwid : wid = row'.workItemId
    · subst hwid
      exact ⟨row, by simp [WorkTables.apply, hrow], hacked⟩
    · exact ⟨row, by simpa [WorkTables.apply, hwid] using hrow, hacked⟩
  | setColumns wid' cols now =>
    by_cases hwid : wid = wid'
    · subst hwid
      refine ⟨row.set cols now, by simp [WorkTables.apply, hrow], ?_⟩
      rw [ItemRow.set_ackedAt]
      cases cols.ackedAt with
      | none => exact hacked
      | some t => exact some_ne_none t
    · exact ⟨row, by simpa [WorkTables.apply, hwid] using hrow, hacked⟩
  | _ => exact ⟨row, hrow, hacked⟩

end Runs

/-! ## Sweeps that are overtaken -/

namespace Sample

/-- The labels of a transaction of session `i`, all of whose statements run in the given minute. -/
def atMinute (minute : ℤ) (i : ℕ) (call : WorkCall) (n : ℕ) : List (Label (workSystem config)) :=
  .call i call :: (List.replicate n (.exec i { now := minute * 60 * 1000000 }) ++
    [.finish i, .commit i])

def everyItem : Sweep := { actorAccountId := "system" }

def pollAt (minute : ℤ) : List (Label (workSystem config)) :=
  atMinute minute 0 (.poll "agent" "agent-account" 10) 6

def ackAt (minute : ℤ) : List (Label (workSystem config)) :=
  atMinute minute 0 (.ack "wi-00000001" "agent" "agent-account") 6

def redelivery (minute : ℤ) : List (Label (workSystem config)) :=
  atMinute minute 1 (.sweep everyItem) 6 ++ pollAt minute

def delivered : List (Label (workSystem config)) :=
  atMinute 0 0 (.enqueue work) 6 ++ pollAt 0

/-- A sweep with `n` statements; after it has read its batch an acknowledgement commits. -/
def overtaken (minute : ℤ) (n : ℕ) : List (Label (workSystem config)) :=
  let exec : Label (workSystem config) := .exec 1 { now := minute * 60 * 1000000 }
  [.call 1 (.sweep everyItem), exec, exec] ++ ackAt minute ++ (List.replicate n exec ++ [.finish 1])

def raised : List (Label (workSystem config)) := delivered ++ overtaken 2 1

def expiredLate : List (Label (workSystem config)) :=
  delivered ++ redelivery 2 ++ redelivery 4 ++ redelivery 6 ++ overtaken 8 5

def sweepOutcome (f : (workSystem config).Finished) : Option (Except WorkItemError SweepReport) :=
  match f.entry, f.outcome with
  | .sweep _, .error e => some (.error e)
  | .sweep _, .ok (.swept report) => some (.ok report)
  | _, _ => none

variable {f : (workSystem config).Finished}

theorem sweepOutcome_error {e : WorkItemError} (h : sweepOutcome f = some (.error e)) :
    (∃ s, f.entry = .sweep s) ∧ f.outcome = .error e := by
  rw [sweepOutcome] at h
  split at h
  · rename_i s e' hentry houtcome
    simp only [some.injEq, Except.error.injEq] at h
    exact ⟨⟨s, hentry⟩, h ▸ houtcome⟩
  · simp at h
  · cases h

theorem sweepOutcome_ok {report : SweepReport} (h : sweepOutcome f = some (.ok report)) :
    (∃ s, f.entry = .sweep s) ∧ f.outcome = .ok (.swept report) := by
  rw [sweepOutcome] at h
  split at h
  · simp at h
  · rename_i s report' hentry houtcome
    simp only [some.injEq, Except.ok.injEq] at h
    exact ⟨⟨s, hentry⟩, h ▸ houtcome⟩
  · cases h

instance (d : Except WorkItemError TimingDecision) (status : WorkItemState) :
    Decidable (Stands d status) :=
  match d with
  | .error _ => isTrue trivial
  | .ok ⟨.none, _, _⟩ => isTrue trivial
  | .ok ⟨.redeliver, _, _⟩ => inferInstanceAs (Decidable (status = .delivered))
  | .ok ⟨.expire, reason, _⟩ => inferInstanceAs (Decidable
      (if reason = "DEADLINE_EXCEEDED" then status ∉ terminalStates else status ∈ waitingStates))
  | .ok ⟨.reroute, _, _⟩ => isTrue trivial
  | .ok ⟨.waiting, _, _⟩ => isTrue trivial

def standsAt (w : (workSystem config).World) : Label (workSystem config) → Bool
  | .exec i _ =>
    match w.sessions i with
    | some s =>
      match s.call with
      | some c =>
        match c.entry, c.rest with
        | .sweep sweep, .call (.load wid true) _ =>
          match clockReading c.trace, batchRead c.trace, WorkTables.item (w.view s) wid with
          | some t, some items, some row => items.all fun item ↦
              decide (item.workItemId = wid → Stands (sweep.decision t item) row.status)
          | _, _, _ => true
        | _, _ => true
      | none => true
    | none => true
  | _ => true

theorem stillStands_of_standsAt (w : (workSystem config).World) (l : Label (workSystem config))
    (h : standsAt w l = true) : StillStands config w l := by
  rintro i inp s c sweep wid k t items item row rfl hs hc he hr ht hi hitem hwid hrow
  simp only [standsAt, hs, hc, he, hr, ht, hi, hrow, List.all_eq_true, decide_eq_true_eq] at h
  exact h item hitem hwid

end Sample

open Sample (config)

open Sample

end AgentColab.Work
