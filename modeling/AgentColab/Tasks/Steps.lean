import AgentColab.Tasks.Recorded

/-!
# What a Task command does

Every change of a Task is one step: an Event is recorded, and the row is written from the state that
is then folded. The rules below say what a body returns and leaves in terms of such steps, guards
included.
-/

namespace AgentColab.Tasks

open AgentColab Transaction Database List
open Except (ok)
open TaskState (annotate move detail)

variable {cfg : Config} {inp : ℕ → TaskInput} {db db' : TaskTables} {n n' : ℕ}

/-! ## Whom an Event concerns -/

/-- The Events that can change the Task `t`. -/
def Event.Concerns (e : Event) (t : String) : Prop :=
  e.aggregateType = "task" ∧ e.aggregateId = t ∨
    e.type ∈ verificationResultEvents ∧ e.taskId = some t

variable {s s' : TaskState} {e : Event} {m : ℕ} {t t' : String} {time : Time}

theorem applyEvent_of_not_concerns (hformed : e.Formed) (h : ¬e.Concerns s.taskId) :
    applyEvent s e = .ok s := by
  obtain ⟨htask, hresult⟩ := not_or.1 h
  by_cases hcreate : e.type ∈ creationEvents
  · rw [applyEvent, if_pos hcreate, if_pos fun hown ↦ htask ⟨hformed.creation hcreate, hown⟩]
  · rw [applyEvent, if_neg hcreate]
    split_ifs with h₁ h₂ h₃ h₄ h₅
    · rfl
    · rfl
    · rfl
    · exact absurd ⟨h₂, not_not.1 h₃⟩ hresult
    · rfl
    · tauto
    · tauto

/-- The recorded order, that the Tasks are those whose streams have begun, and that a recorded join
is known. -/
structure TaskTables.Sound (db : TaskTables) (n : ℕ) : Prop where
  ordered : db.Ordered n
  born : ∀ t, db.stream "task" t ≠ [] → ∃ s, db.stateOf t = .ok s ∧ s.exists' = true
  unborn : ∀ t, db.stream "task" t = [] → db.stateOf t = .ok { taskId := t }
  joined : ∀ e ∈ db.events, e.type = .taskJoinSatisfied → e.aggregateType = "task" →
    ∀ s, db.stateOf e.aggregateId = .ok s → s.joinSatisfied = true

open TaskTables (stateOf stream)

theorem TaskTables.Sound.mono (h : db.Sound n) (hle : n ≤ m) : db.Sound m :=
  ⟨h.ordered.mono hle, h.born, h.unborn, h.joined⟩

theorem TaskTables.Sound.congr (h : db.Sound n) (hevents : db'.events = db.events) :
    db'.Sound n where
  ordered := h.ordered.congr hevents
  born t ht := by
    rw [stateOf, hevents]
    exact h.born t (by rwa [stream, hevents] at ht)
  unborn t ht := by
    rw [stateOf, hevents]
    exact h.unborn t (by rwa [stream, hevents] at ht)
  joined e he htype hkind s hs := by
    rw [hevents] at he
    rw [stateOf, hevents] at hs
    exact h.joined e he htype hkind s hs

theorem TaskTables.Sound.empty : ({} : TaskTables).Sound n where
  ordered := ⟨List.Pairwise.nil, by simp, by simp⟩
  born _ h := absurd rfl h
  unborn _ _ := rfl
  joined _ h := absurd h not_mem_nil

theorem TaskTables.Sound.state (h : db.Sound n) (t : String) : ∃ s, db.stateOf t = .ok s := by
  by_cases ht : db.stream "task" t = []
  · exact ⟨_, h.unborn t ht⟩
  · obtain ⟨s, hs, -⟩ := h.born t ht
    exact ⟨s, hs⟩

theorem TaskTables.Sound.exists_iff (h : db.Sound n) (hs : db.stateOf t = .ok s) :
    s.exists' = true ↔ db.stream "task" t ≠ [] := by
  constructor
  · rintro hexists hnil
    rw [h.unborn t hnil] at hs
    obtain rfl := ok.inj hs
    cases hexists
  · intro ht
    obtain ⟨s', hs', hexists⟩ := h.born t ht
    rw [hs] at hs'
    obtain rfl := ok.inj hs'
    exact hexists

/-! ## Steps -/

/-- The rows after `write_state`. -/
def TaskTables.rowsWith (db : TaskTables) (s : TaskState) (time : Time) : String → Option TaskRow :=
  Function.update db.rows s.taskId
    (some (((db.rows s.taskId).map fun old ↦ old.merge (rowOf s time)).getD (rowOf s time)))

/-- **A step of the Task `t`.** The Event `e` takes it from `s` to `s'`, and its row is written with
this time. -/
structure Step (db : TaskTables) (n : ℕ) (t : String) (s : TaskState) (e : Event) (s' : TaskState)
    (time : Time) (db' : TaskTables) (n' : ℕ) : Prop where
  folded : db.stateOf t = .ok s
  concerns : e.Concerns t
  formed : e.Formed
  lower : n ≤ e.recordedSeq
  upper : e.recordedSeq < n'
  applied : applyEvent s e = .ok s'
  exists' : s'.exists' = true
  events : db'.events = db.events ++ [e]
  rows : db'.rows = db.rowsWith s' time
  edges : db'.edges = db.edges
  verificationRuns : db'.verificationRuns = db.verificationRuns

theorem Step.earlier (h : Step db n t s e s' time db' n') (hle : m ≤ n) :
    Step db m t s e s' time db' n' :=
  { h with lower := hle.trans h.lower }

/-- An Event that no Task is written for. -/
structure Noted (db : TaskTables) (n : ℕ) (e : Event) (db' : TaskTables) (n' : ℕ) : Prop where
  formed : e.Formed
  kind : e.aggregateType ≠ "task"
  lower : n ≤ e.recordedSeq
  upper : e.recordedSeq < n'
  eq : db' = db.apply (.insertEvent e)

theorem Noted.earlier (h : Noted db n e db' n') (hle : m ≤ n) :
    Noted db m e db' n' := { h with lower := hle.trans h.lower }

theorem stateOf_append (hevents : db'.events = db.events ++ [e]) (t : String) :
    db'.stateOf t = (db.stateOf t).bind fun s ↦ applyEvent s e := by
  rw [← stateOf_insert, stateOf, hevents]
  rfl

theorem Step.stateOf (h : Step db n t s e s' time db' n') : db'.stateOf t = .ok s' := by
  rw [stateOf_append h.events, h.folded]
  exact h.applied

theorem stateOf_of_not_concerns (hdb : db.Sound n) (hformed : e.Formed)
    (hevents : db'.events = db.events ++ [e]) (h : ¬e.Concerns t) :
    db'.stateOf t = db.stateOf t := by
  obtain ⟨s, hs⟩ := hdb.state t
  rw [stateOf_append hevents, hs]
  refine applyEvent_of_not_concerns hformed ?_
  rwa [taskId_of_stateOf hs]

theorem Formed.concerns_unique (hformed : e.Formed) (h : e.Concerns t) (h' : e.Concerns t') :
    t = t' := by
  rcases h with ⟨hkind, rfl⟩ | ⟨htype, htask⟩
  · rcases h' with ⟨-, rfl⟩ | ⟨htype, -⟩
    · rfl
    · rw [(hformed.result htype).1] at hkind
      exact absurd hkind (by decide)
  · rcases h' with ⟨hkind, -⟩ | ⟨-, htask'⟩
    · rw [(hformed.result htype).1] at hkind
      exact absurd hkind (by decide)
    · exact Option.some.inj (htask.symm.trans htask')

theorem Step.stateOf_of_ne (hdb : db.Sound n) (h : Step db n t s e s' time db' n') (hne : t' ≠ t) :
    db'.stateOf t' = db.stateOf t' :=
  stateOf_of_not_concerns hdb h.formed h.events
    fun hc ↦ hne (Formed.concerns_unique h.formed hc h.concerns)

theorem joinSatisfied_of_applied (h : Applied s e s') (hs : s.joinSatisfied = true) :
    s'.joinSatisfied = true := by
  rcases h with _ | _ | ⟨target, -, -, -, -⟩ | _ | ⟨target, -, -, -, -, -⟩
  · exact hs
  · exact hs
  · exact hs
  · rw [annotate]
    split_ifs
    · rfl
    · exact hs
  · rw [move, detail]
    split_ifs <;> exact hs

theorem TaskTables.Sound.record (hdb : db.Sound n) {e : Event} (hformed : e.Formed)
    (hlower : n ≤ e.recordedSeq) (hupper : e.recordedSeq < n')
    (hevents : db'.events = db.events ++ [e])
    (hjoin : e.type = .taskJoinSatisfied → e.aggregateType = "task" →
      ∀ s, db'.stateOf e.aggregateId = .ok s → s.joinSatisfied = true)
    (hconcerns : ∀ t, e.Concerns t → ∃ s, db'.stateOf t = .ok s ∧
      (e.aggregateType = "task" → s.exists' = true) ∧
      (e.aggregateType ≠ "task" → db.stream "task" t ≠ [] → s.exists' = true) ∧
      (e.aggregateType ≠ "task" → db.stream "task" t = [] → s = { taskId := t })) :
    db'.Sound n' := by
  have hstream : ∀ t, db'.stream "task" t = db.stream "task" t ++
      if e.aggregateType = "task" ∧ e.aggregateId = t then [e] else [] := by
    intro t
    rw [stream, hevents, filter_append, stream]
    by_cases h : e.aggregateType = "task" ∧ e.aggregateId = t
    · simp [h]
    · rw [if_neg h]
      simp [h]
  refine ⟨?_, ?_, ?_, ?_⟩
  · have hinsert := (hdb.ordered.mono hlower).insert rfl hformed
    exact (hinsert.mono (Nat.succ_le_of_lt hupper)).congr hevents
  · intro t ht
    by_cases hc : e.Concerns t
    · obtain ⟨s, hs, htask, hother, -⟩ := hconcerns t hc
      refine ⟨s, hs, ?_⟩
      by_cases hkind : e.aggregateType = "task"
      · exact htask hkind
      · refine hother hkind fun hnil ↦ ht ?_
        rw [hstream, hnil, if_neg (fun h ↦ hkind h.1)]
        rfl
    · rw [stateOf_of_not_concerns hdb hformed hevents hc]
      refine hdb.born t fun hnil ↦ ht ?_
      rw [hstream, hnil, if_neg (fun h ↦ hc (.inl h))]
      rfl
  · intro t ht
    rw [hstream] at ht
    obtain ⟨hnil, hnot⟩ := append_eq_nil_iff.1 ht
    have hkind : ¬(e.aggregateType = "task" ∧ e.aggregateId = t) := fun h ↦ by
      rw [if_pos h] at hnot
      cases hnot
    by_cases hc : e.Concerns t
    · obtain ⟨s, hs, -, -, hunborn⟩ := hconcerns t hc
      rw [hs, hunborn (fun h ↦ ?_) hnil]
      rcases hc with hc | ⟨htype, -⟩
      · exact hkind hc
      · rw [(hformed.result htype).1] at h
        exact absurd h (by decide)
    · rw [stateOf_of_not_concerns hdb hformed hevents hc]
      exact hdb.unborn t hnil
  · intro x hx htype hkind s' hs'
    rw [hevents] at hx
    rcases mem_append.1 hx with hx | hx
    · obtain ⟨s, hs⟩ := hdb.state x.aggregateId
      rw [stateOf_append hevents, hs] at hs'
      exact joinSatisfied_of_applied (applied_of_applyEvent hs') (hdb.joined x hx htype hkind s hs)
    · obtain rfl := mem_singleton.1 hx
      exact hjoin htype hkind s' hs'

theorem exists_of_applied (h : Applied s e s') (hs : s.exists' = true) : s'.exists' = true := by
  rcases h with _ | _ | ⟨target, -, -, -, -⟩ | _ | ⟨target, -, -, -, -, -⟩
  · exact hs
  · rfl
  · exact hs
  · rw [annotate]
    split_ifs <;> exact hs
  · rw [move, detail]
    split_ifs <;> exact hs

theorem Step.sound (hdb : db.Sound n) (h : Step db n t s e s' time db' n') : db'.Sound n' := by
  refine hdb.record h.formed h.lower h.upper h.events ?_ fun t' ht' ↦ ?_
  · intro htype hkind r hr
    obtain rfl := Formed.concerns_unique h.formed (.inl ⟨hkind, rfl⟩) h.concerns
    rw [h.stateOf] at hr
    obtain rfl := ok.inj hr
    have happly := h.applied
    have hborn := h.exists'
    rw [applyEvent, htype, if_neg (by decide), if_neg (by decide : _ ∉ verificationResultEvents),
      if_pos (by decide : _ ∈ annotationEvents), taskId_of_stateOf h.folded] at happly
    split_ifs at happly with hexists hown
    · obtain rfl := ok.inj happly
      rw [hborn] at hexists
      cases hexists
    · exact absurd hkind (hown.resolve_left fun hne ↦ hne rfl)
    · obtain rfl := ok.inj happly
      rw [annotate, if_pos htype]
  obtain rfl := Formed.concerns_unique h.formed ht' h.concerns
  refine ⟨s', h.stateOf, fun _ ↦ h.exists', fun _ _ ↦ h.exists', fun hkind hnil ↦ ?_⟩
  -- a result is ignored before the Task is created
  have hs := ok.inj ((hdb.unborn _ hnil).symm.trans h.folded)
  have hresult : e.type ∈ verificationResultEvents :=
    (h.concerns.resolve_left fun hc ↦ hkind hc.1).1
  have hcreate : e.type ∉ creationEvents := fun hc ↦ hkind (h.formed.creation hc)
  have happly := h.applied
  rw [← hs, applyEvent, if_neg hcreate] at happly
  exact (ok.inj happly).symm

theorem Noted.sound (hdb : db.Sound n) (h : Noted db n e db' n') : db'.Sound n' := by
  have hcreate : e.type ∉ creationEvents := fun hc ↦ h.kind (h.formed.creation hc)
  refine hdb.record h.formed h.lower h.upper (by rw [h.eq]; rfl)
    (fun _ hkind ↦ absurd hkind h.kind) fun t ht ↦ ?_
  have hresult := (ht.resolve_left fun hc ↦ h.kind hc.1).1
  obtain ⟨s, hs⟩ := hdb.state t
  have happly : ∃ s', applyEvent s e = .ok s' := by
    rw [applyEvent, if_neg hcreate]
    split_ifs
    · exact ⟨_, rfl⟩
    · exact ⟨_, rfl⟩
    · exact ⟨_, rfl⟩
    · cases transitions s.status e.type <;> exact ⟨_, rfl⟩
  obtain ⟨s', hs'⟩ := happly
  have hstate : db'.stateOf t = .ok s' := by
    rw [h.eq, stateOf_insert, hs]
    exact hs'
  refine ⟨s', hstate, fun hkind ↦ absurd hkind h.kind, fun _ hborn ↦ ?_, fun _ hnil ↦ ?_⟩
  · exact exists_of_applied (applied_of_applyEvent hs') ((hdb.exists_iff hs).2 hborn)
  · rw [hdb.unborn t hnil] at hs
    obtain rfl := ok.inj hs
    rw [applyEvent, if_neg hcreate] at hs'
    exact (ok.inj hs').symm

end AgentColab.Tasks
