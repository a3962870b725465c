import AgentColab.Verification.Commands
import Mathlib.Data.List.Sublists

/-!
# The Task as it is recorded

When transactions run one after the other, the state that a command loads is the fold of the whole
list of Events. The command reads only the stream of the Task and the results of its runs, and a run
that was started twice is read twice. The rest is ignored by the fold, and so is a result the second
time.
-/

namespace AgentColab.Tasks

open AgentColab Transaction Database List

variable {cfg : Config} {inp : ℕ → TaskInput} {db : TaskTables} {n : ℕ}

/-- The state folded from all Events. -/
def TaskTables.stateOf (db : TaskTables) (taskId : String) : Except TaskTransitionError TaskState :=
  foldEvents { taskId := taskId } db.events

/-- The aggregates of the Events that the commands record. -/
structure Event.Formed (e : Event) : Prop where
  creation : e.type ∈ creationEvents → e.aggregateType = "task"
  result : e.type ∈ verificationResultEvents → e.aggregateType = "verification_run" ∧
    e.payload.verificationId = some e.aggregateId ∧ e.aggregateId ≠ ""
  numbered : 0 < e.aggregateSeq
  named : e.aggregateId ≠ ""

/-- The list of Events is in recorded order, and numbers from `n` on are unused. -/
structure TaskTables.Ordered (db : TaskTables) (n : ℕ) : Prop where
  sorted : db.events.Pairwise fun a b ↦ a.recordedSeq < b.recordedSeq
  bounded : ∀ e ∈ db.events, e.recordedSeq < n
  formed : ∀ e ∈ db.events, e.Formed

theorem TaskTables.Ordered.mono {m : ℕ} (h : db.Ordered n) (hle : n ≤ m) : db.Ordered m :=
  ⟨h.sorted, fun e he ↦ (h.bounded e he).trans_le hle, h.formed⟩

theorem TaskTables.Ordered.congr {db' : TaskTables} (h : db.Ordered n)
    (hevents : db'.events = db.events) : db'.Ordered n :=
  ⟨hevents ▸ h.sorted, hevents ▸ h.bounded, hevents ▸ h.formed⟩

variable {e : Event} {t : String} {s s' : TaskState} {vids : List String}

theorem TaskTables.Ordered.insert (h : db.Ordered n) (hseq : e.recordedSeq = n)
    (hformed : e.Formed) : (db.apply (.insertEvent e)).Ordered (n + 1) where
  sorted := pairwise_append.2 ⟨h.sorted, pairwise_singleton _ _, fun a ha b hb ↦ by
    obtain rfl := mem_singleton.1 hb
    exact hseq ▸ h.bounded a ha⟩
  bounded := by
    intro a ha
    rcases mem_append.1 ha with ha | ha
    · exact (h.bounded a ha).trans (Nat.lt_succ_self n)
    · obtain rfl := mem_singleton.1 ha
      exact hseq ▸ Nat.lt_succ_self n
  formed := by
    intro a ha
    rcases mem_append.1 ha with ha | ha
    · exact h.formed a ha
    · obtain rfl := mem_singleton.1 ha
      exact hformed

theorem stateOf_insert (e : Event) (t : String) :
    (db.apply (.insertEvent e)).stateOf t = (db.stateOf t).bind fun s ↦ applyEvent s e := by
  change foldEvents _ (db.events ++ [e]) = _
  rw [foldEvents_append]
  congr
  funext s
  rw [foldEvents_cons]
  cases applyEvent s e <;> rfl

theorem taskId_of_stateOf (h : db.stateOf t = .ok s) : s.taskId = t := taskId_of_foldEvents h

/-! ## Reading an Event twice -/

theorem applyEvent_twice (hformed : e.Formed) (hother : e.aggregateType ≠ "task")
    (h : applyEvent s e = .ok s') : applyEvent s' e = .ok s' := by
  rcases applied_of_applyEvent h with _ | ⟨htype, -⟩ | ⟨target, htype, -, -, hlegal⟩ |
    ⟨htype, hown⟩ | ⟨target, -, hkind, -, -, -⟩
  · exact h
  · exact absurd (hformed.creation htype) hother
  · have hcreate : e.type ∉ creationEvents := fun hc ↦ hother (hformed.creation hc)
    have hnone : transitions target e.type = none := by
      by_contra hsome
      obtain ⟨target', hlegal'⟩ := Option.ne_none_iff_exists'.1 hsome
      exact (verifying_of_result htype hlegal).2 (verifying_of_result htype hlegal').1
    rw [applyEvent, if_neg hcreate]
    split
    · rfl
    split
    · rfl
    split
    · rfl
    rw [status_result, hnone]
  · -- an annotation is ignored on another aggregate
    have hcreate : e.type ∉ creationEvents := fun hc ↦ hother (hformed.creation hc)
    have hresult : e.type ∉ verificationResultEvents := by
      rw [mem_singleton.1 htype]
      decide
    rw [applyEvent, if_neg hcreate]
    split
    · rfl
    · rw [if_pos (Or.inr hother)]
  · exact absurd hkind hother

theorem foldEvents_twice (hformed : e.Formed) (hother : e.aggregateType ≠ "task") (s : TaskState)
    (l : List Event) : foldEvents s (e :: e :: l) = foldEvents s (e :: l) := by
  rw [foldEvents_cons, show foldEvents s (e :: l) = _ from foldEvents_cons]
  cases h : applyEvent s e with
  | error => rfl
  | ok s' =>
    change foldEvents s' (e :: l) = foldEvents s' l
    rw [foldEvents_cons, applyEvent_twice hformed hother h]
    rfl

theorem foldEvents_eq_of_sorted {L M : List Event}
    (hL : L.Pairwise fun a b ↦ a.recordedSeq ≤ b.recordedSeq)
    (hM : M.Pairwise fun a b ↦ a.recordedSeq < b.recordedSeq) (hmem : ∀ e, e ∈ L ↔ e ∈ M)
    (hformed : ∀ e ∈ L, e.Formed)
    (hdup : ∀ e, [e, e].Sublist L → e.aggregateType ≠ "task") (s : TaskState) :
    foldEvents s L = foldEvents s M := by
  induction L generalizing M s with
  | nil =>
    obtain rfl : M = [] := eq_nil_iff_forall_not_mem.2 fun e he ↦ by simpa using (hmem e).2 he
    rfl
  | cons a L ih =>
    obtain ⟨haL, hL'⟩ := pairwise_cons.1 hL
    -- the first of `L` is the first of `M`
    obtain ⟨M', rfl⟩ : ∃ M', M = a :: M' := by
      cases M with
      | nil => exact absurd ((hmem a).1 mem_cons_self) not_mem_nil
      | cons b M' =>
        have hb : b ∈ a :: L := (hmem b).2 mem_cons_self
        rcases mem_cons.1 ((hmem a).1 mem_cons_self) with rfl | ha
        · exact ⟨M', rfl⟩
        · have hlt : b.recordedSeq < a.recordedSeq := (pairwise_cons.1 hM).1 a ha
          rcases mem_cons.1 hb with rfl | hb
          · exact absurd hlt (lt_irrefl _)
          · exact absurd (haL b hb) (not_le.2 hlt)
    obtain ⟨haM, hM'⟩ := pairwise_cons.1 hM
    have hdup' : ∀ e, [e, e].Sublist L → e.aggregateType ≠ "task" :=
      fun e he ↦ hdup e (he.cons a)
    have hformed' : ∀ e ∈ L, e.Formed := fun e he ↦ hformed e (mem_cons_of_mem a he)
    by_cases ha : a ∈ L
    · -- it is repeated, at once
      obtain ⟨L', rfl⟩ : ∃ L', L = a :: L' := by
        cases L with
        | nil => cases ha
        | cons b L' =>
          rcases mem_cons.1 ha with rfl | ha'
          · exact ⟨L', rfl⟩
          · rcases mem_cons.1 ((hmem b).1 (by simp)) with rfl | hb
            · exact ⟨L', rfl⟩
            · exact absurd (haM b hb) (not_lt.2 ((pairwise_cons.1 hL').1 a ha'))
      have hother := hdup a (List.Sublist.cons_cons a (singleton_sublist.2 ha))
      rw [foldEvents_twice (hformed a mem_cons_self) hother]
      refine ih hL' hM (fun e ↦ ?_) hformed' hdup' s
      rw [← hmem e]
      simp
    · rw [foldEvents_cons, foldEvents_cons]
      cases applyEvent s a with
      | error => rfl
      | ok s' =>
        refine ih hL' hM' (fun e ↦ ?_) hformed' hdup' s'
        have hiff := hmem e
        rw [mem_cons, mem_cons] at hiff
        constructor
        · intro he
          rcases hiff.1 (.inr he) with rfl | h
          · exact absurd he ha
          · exact h
        · intro he
          rcases hiff.2 (.inr he) with rfl | h
          · exact absurd (haM _ he) (lt_irrefl _)
          · exact h

/-! ## Leaving out what is ignored -/

/-- The Events that `load_task` reads, when it finds these runs started. -/
def Event.Loaded (vids : List String) (t : String) (e : Event) : Prop :=
  e.aggregateType = "task" ∧ e.aggregateId = t ∨
    e.aggregateType = "verification_run" ∧ e.aggregateId ∈ vids ∧ e.taskId = some t

instance {vids : List String} {t : String} {e : Event} : Decidable (e.Loaded vids t) :=
  inferInstanceAs (Decidable (_ ∨ _))

/-- Only a run that was started can be the active one. -/
def ActiveIn (vids : List String) (s : TaskState) : Prop :=
  ∀ v, s.activeVerificationId = some v → v = "" ∨ v ∈ vids

theorem applyEvent_of_not_loaded (hformed : e.Formed) (hactive : ActiveIn vids s)
    (hs : s.taskId = t) (h : ¬e.Loaded vids t) : applyEvent s e = .ok s := by
  subst hs
  obtain ⟨htask, hrun⟩ := not_or.1 h
  by_cases hcreate : e.type ∈ creationEvents
  · rw [applyEvent, if_pos hcreate, if_pos fun hown ↦ htask ⟨hformed.creation hcreate, hown⟩]
  · rw [applyEvent, if_neg hcreate]
    split_ifs with h₁ h₂ h₃ h₄ h₅
    · rfl
    · rfl
    · rfl
    · -- a result of a run that was not started
      obtain ⟨hagg, hvid, hne⟩ := hformed.result h₂
      have hstarted := hactive e.aggregateId (by rw [← not_not.1 h₄, hvid])
      exact absurd ⟨hagg, hstarted.resolve_left hne, not_not.1 h₃⟩ hrun
    · rfl
    · tauto
    · tauto

theorem activeIn_of_applied (hactive : ActiveIn vids s) (hstart : e.type = .taskVerificationStarted
    → e.aggregateType = "task" → e.aggregateId = s.taskId → ∀ v, e.payload.verificationId = some v →
    v = "" ∨ v ∈ vids) (h : Applied s e s') : ActiveIn vids s' := by
  rcases h with _ | _ | ⟨target, -, -, -, -⟩ | _ | ⟨target, hown, hkind, -, -, -⟩
  · exact hactive
  · exact hactive
  · exact hactive
  · rw [ActiveIn, activeVerificationId_annotate]
    exact hactive
  · by_cases htype : e.type = .taskVerificationStarted
    · have hset : (s.move e target).activeVerificationId = e.payload.verificationId := by
        simp [TaskState.move, TaskState.detail, htype]
      rw [ActiveIn, hset]
      exact hstart htype hkind hown
    · rw [ActiveIn, activeVerificationId_move _ _ _ htype]
      exact hactive

theorem foldEvents_filter_loaded (l : List Event) (hformed : ∀ e ∈ l, e.Formed) (hstart : ∀ e ∈ l,
    e.type = .taskVerificationStarted → e.aggregateType = "task" → e.aggregateId = t → ∀ v,
    e.payload.verificationId = some v → v = "" ∨ v ∈ vids) :
    ∀ s : TaskState, s.taskId = t → ActiveIn vids s →
      foldEvents s (l.filter (·.Loaded vids t)) = foldEvents s l := by
  induction l with
  | nil => intro s _ _; rfl
  | cons e l ih =>
    intro s hs hactive
    have ih := ih (fun x hx ↦ hformed x (mem_cons_of_mem e hx))
      (fun x hx ↦ hstart x (mem_cons_of_mem e hx))
    by_cases hl : e.Loaded vids t
    · rw [filter_cons_of_pos (by simpa using hl), foldEvents_cons, foldEvents_cons]
      cases he : applyEvent s e with
      | error => rfl
      | ok s' =>
        have happ := applied_of_applyEvent he
        refine ih s' ((taskId_of_applied happ).trans hs) (activeIn_of_applied hactive ?_ happ)
        rw [hs]
        exact hstart e mem_cons_self
    · have hskip : foldEvents s (e :: l) = foldEvents s l := by
        rw [foldEvents_cons, applyEvent_of_not_loaded (hformed e mem_cons_self) hactive hs hl]
        rfl
      rw [filter_cons_of_neg (by simpa using hl), hskip]
      exact ih s hs hactive

/-! ## What `load_task` loads -/

def startedIn (events : List Event) : List String :=
  (events.filter (·.type = .taskVerificationStarted)).filterMap
    (orElse ·.payload.verificationId none)

/-- What `load_task` folds. -/
def TaskTables.merged (db : TaskTables) (t : String) : List Event :=
  db.stream "task" t ++ ((startedIn (db.stream "task" t)).map fun vid ↦
    (db.stream "verification_run" vid).filter (·.taskId = some t)).flatten

theorem mem_merged :
    e ∈ db.merged t ↔ e ∈ db.events.filter (·.Loaded (startedIn (db.stream "task" t)) t) := by
  rw [mem_filter, decide_eq_true_iff, Event.Loaded]
  simp only [TaskTables.merged, mem_append, mem_flatten, List.mem_map,
    TaskTables.stream, mem_filter, decide_eq_true_eq]
  constructor
  · rintro (⟨he, hown⟩ | ⟨_, ⟨vid, hvid, rfl⟩, he⟩)
    · exact ⟨he, .inl hown⟩
    · simp only [mem_filter, decide_eq_true_eq] at he
      obtain ⟨⟨he, hagg, rfl⟩, htask⟩ := he
      exact ⟨he, .inr ⟨hagg, hvid, htask⟩⟩
  · rintro ⟨he, hown | ⟨hagg, hvid, htask⟩⟩
    · exact .inl ⟨he, hown⟩
    · exact .inr ⟨_, ⟨_, hvid, rfl⟩, by simp [he, hagg, htask]⟩

theorem startedIn_spec (he : e ∈ db.events) (htype : e.type = .taskVerificationStarted)
    (hagg : e.aggregateType = "task") (hown : e.aggregateId = t) (v : String)
    (hv : e.payload.verificationId = some v) : v = "" ∨ v ∈ startedIn (db.stream "task" t) := by
  by_cases hempty : v = ""
  · exact .inl hempty
  · refine .inr (mem_filterMap.2 ⟨e, ?_, ?_⟩)
    · simp [TaskTables.stream, he, hagg, hown, htype]
    · rw [hv]
      simp [orElse]

theorem insertionSort_perm_sublist {l : List Event} (h : [e, e].Sublist (recordedOrder l)) :
    2 ≤ l.count e := by
  have hcount := h.count_le e
  rw [recordedOrder, (perm_insertionSort _ l).count_eq] at hcount
  simpa using hcount

theorem fold_merged (hdb : db.Ordered n) (t : String) : fold t (db.merged t) = db.stateOf t := by
  have hformed : ∀ e ∈ recordedOrder (db.merged t), e.Formed := fun e he ↦
    hdb.formed e (mem_of_mem_filter (mem_merged.1 ((mem_insertionSort _).1 he)))
  have hnodup : db.events.Nodup := hdb.sorted.imp fun h heq ↦ absurd (heq ▸ h) (lt_irrefl _)
  have hloaded : foldEvents { taskId := t }
      (db.events.filter (·.Loaded (startedIn (db.stream "task" t)) t)) =
        foldEvents { taskId := t } db.events :=
    foldEvents_filter_loaded db.events hdb.formed
      (fun e he htype hagg hown ↦ startedIn_spec he htype hagg hown) { taskId := t } rfl
      (fun v hv ↦ nomatch hv)
  rw [fold, TaskTables.stateOf, ← hloaded]
  refine foldEvents_eq_of_sorted ?_ (hdb.sorted.filter _) (fun e ↦ ?_) hformed ?_ _
  · exact pairwise_insertionSort (fun a b : Event ↦ a.recordedSeq ≤ b.recordedSeq) _
  · rw [recordedOrder, mem_insertionSort, mem_merged]
  · -- the stream of the Task has no repetitions
    intro e he hagg
    have hcount := insertionSort_perm_sublist he
    have hzero : (((startedIn (db.stream "task" t)).map fun vid ↦
        (db.stream "verification_run" vid).filter (·.taskId = some t)).flatten).count e = 0 := by
      refine List.count_eq_zero.2 fun hmem ↦ ?_
      obtain ⟨_, hl, he⟩ := mem_flatten.1 hmem
      obtain ⟨vid, -, rfl⟩ := List.mem_map.1 hl
      simp only [TaskTables.stream, mem_filter, decide_eq_true_eq] at he
      rw [hagg] at he
      exact absurd he.1.2.1 (by decide)
    have hone : (db.stream "task" t).count e ≤ 1 := nodup_iff_count_le_one.1 (hnodup.filter _) e
    rw [TaskTables.merged, List.count_append, hzero] at hcount
    omega

end AgentColab.Tasks
