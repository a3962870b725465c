import AgentColab.Tasks.Rules

/-!
# The status of a Task

What a step, a note and a join make of the status of a Task, and how the row falls behind: the
verdict on a run whose target is a phase moves the Task that it names, and writes no row.
-/

namespace AgentColab.Tasks

open AgentColab Transaction Database
open Except (ok)

variable {cfg : Config} {inp : ℕ → TaskInput} {db db' : TaskTables} {n n' : ℕ}

/-! ## The statuses of a Task -/

theorem ends_of_transitions {current target : TaskStatus} {etype : EventType}
    (h : transitions current etype = some target) (ht : target ∈ TaskStatus.terminal) :
    etype = .taskCompleted ∧ current = .verified ∧ target = .completed ∨
      etype = .taskCancelled ∧ current ≠ .verified ∧ current ≠ .verifying ∧ current ≠ .running ∧
        current ≠ .waiting ∧ target = .cancelled := by
  rw [transitions.eq_def] at h
  split at h <;> simp_all
  all_goals
    subst h
    revert ht
    decide

/-- The status of a verified Task whose row has not heard of the verdict. -/
def heard : List TaskStatus := [.verified, .running, .waiting]

variable {s s' : TaskState} {e : Event} {t u : String} {time : Time}

theorem heard_of_result (htype : e.type ∈ verificationResultEvents) (h : Applied s e s') :
    s'.status = s.status ∨ s.status = .verifying ∧ s'.status ∈ heard := by
  have hcreate : ∀ x ∈ verificationResultEvents, x ∉ creationEvents := by decide
  have hannotate : ∀ x ∈ verificationResultEvents, x ∉ annotationEvents := by decide
  rcases h with _ | ⟨hc, -⟩ | ⟨target, -, -, -, hlegal⟩ | ⟨ha, -⟩ | ⟨target, -, -, -, hr, -⟩
  · exact .inl rfl
  · exact absurd hc (hcreate _ htype)
  · have hverifying := (verifying_of_result htype hlegal).1
    rw [hverifying] at hlegal
    refine .inr ⟨hverifying, ?_⟩
    rw [status_result]
    generalize e.type = etype at htype hlegal
    fin_cases htype <;> obtain rfl := Option.some.inj hlegal <;> decide
  · exact absurd ha (hannotate _ htype)
  · exact absurd htype hr

theorem Noted.result (h : Noted db n e db' n') (hc : e.Concerns t) :
    e.type ∈ verificationResultEvents := (hc.resolve_left fun ht ↦ h.kind ht.1).1

theorem Noted.status (hdb : db.Sound n) (h : Noted db n e db' n') (hs : db.stateOf t = .ok s)
    (hs' : db'.stateOf t = .ok s') :
    s'.status = s.status ∨ s.status = .verifying ∧ s'.status ∈ heard := by
  have hevents : db'.events = db.events ++ [e] := by rw [h.eq]; rfl
  by_cases hc : e.Concerns t
  · rw [stateOf_append hevents, hs] at hs'
    exact heard_of_result (h.result hc) (applied_of_applyEvent hs')
  · rw [stateOf_of_not_concerns hdb h.formed hevents hc, hs] at hs'
    exact .inl (by rw [ok.inj hs'])

theorem Step.status (hdb : db.Sound n) {s₀ s₁ : TaskState} (h : Step db n t s₀ e s₁ time db' n')
    (hs : db.stateOf u = .ok s) (hs' : db'.stateOf u = .ok s') :
    s'.status = s.status ∨ u = t ∧ s₀ = s ∧ s₁ = s' := by
  by_cases hu : u = t
  · subst hu
    exact .inr ⟨rfl, ok.inj (h.folded.symm.trans hs), ok.inj (h.stateOf.symm.trans hs')⟩
  · rw [h.stateOf_of_ne hdb hu, hs] at hs'
    exact .inl (by rw [ok.inj hs'])

theorem MayJoin.status (hdb : db.Sound n) {child : TaskState} (h : MayJoin inp db n child db' n')
    (hs : db.stateOf u = .ok s) (hs' : db'.stateOf u = .ok s') : s'.status = s.status := by
  cases h with
  | idle => rw [ok.inj (hs.symm.trans hs')]
  | joined _ _ e _ _ join =>
    rcases join.step.status hdb hs hs' with heq | ⟨-, rfl, rfl⟩
    · exact heq
    · exact status_annotate _ _

/-! ## The row and the Task -/

/-- The row says the status of the Task, unless the Task was moved out of `VERIFYING` by the verdict
on a run whose target is a phase. -/
def RowsFollow (db : TaskTables) : Prop :=
  ∀ t row s, db.rows t = some row → db.stateOf t = .ok s →
    row.status = s.status ∨ row.status = .verifying ∧ s.status ∈ heard

theorem rowsFollow_step (hdb : db.Sound n) (hrows : RowsFollow db)
    (h : Step db n t s e s' time db' n') : RowsFollow db' := by
  intro u row r hrow hr
  have htask : s'.taskId = t := taskId_of_stateOf h.stateOf
  rw [h.rows, TaskTables.rowsWith, htask] at hrow
  by_cases hu : u = t
  · subst hu
    rw [h.stateOf] at hr
    obtain rfl := ok.inj hr
    rw [Function.update_self] at hrow
    obtain rfl := Option.some.inj hrow
    cases db.rows u <;> exact .inl rfl
  · rw [h.stateOf_of_ne hdb hu] at hr
    rw [Function.update_of_ne hu] at hrow
    exact hrows u row r hrow hr

theorem rowsFollow_noted (hdb : db.Sound n) (hrows : RowsFollow db) (h : Noted db n e db' n') :
    RowsFollow db' := by
  intro u row r hrow hr
  obtain ⟨s, hs⟩ := hdb.state u
  have hrow' : db.rows u = some row := by
    rw [h.eq] at hrow
    exact hrow
  rcases hrows u row s hrow' hs with hsame | ⟨hverifying, hheard⟩
  · rcases h.status hdb hs hr with heq | ⟨hs₀, hr₀⟩
    · exact .inl (hsame.trans heq.symm)
    · exact .inr ⟨hsame.trans hs₀, hr₀⟩
  · rcases h.status hdb hs hr with heq | ⟨hs₀, -⟩
    · exact .inr ⟨hverifying, heq ▸ hheard⟩
    · rw [hs₀] at hheard
      exact absurd hheard (by decide)

end AgentColab.Tasks
