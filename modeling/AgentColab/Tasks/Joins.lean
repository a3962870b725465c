import AgentColab.Domain.Computation
import AgentColab.Tasks.Graph

/-!
# Joins

What each join mode asks of the children of a parent, and that `evaluateJoin` decides it. The
verdict is a fact about which children are done or cancelled and not about their order, and no step
a child can still take turns a met join into an unmet one.
-/

namespace AgentColab.Tasks

open List

def IsDone (children : List ChildView) (taskId : String) : Prop :=
  ∃ c ∈ children, c.taskId = taskId ∧ c.done

def JoinMode.Holds (required : List String) (children : List ChildView) : JoinMode → Prop
  | all => (∀ c ∈ children, c.cancelled = false → c.done) ∧ ∀ r ∈ required, IsDone children r
  | any => ∃ c ∈ children, c.done
  | quorum n => n ≤ children.countP (·.done) ∧ ∀ r ∈ required, IsDone children r

/-- The join is met: a child is done, and the mode's own condition holds. -/
def JoinMet (mode : JoinMode) (required : List String) (children : List ChildView) : Prop :=
  (∃ c ∈ children, c.done) ∧ mode.Holds required children

variable {taskId : String} {c : ChildView} {pending : List String} {policy : JoinPolicy}
    {mode : JoinMode}

theorem mem_done_iff {children : List ChildView} :
    taskId ∈ (children.filter (·.done)).map (·.taskId) ↔ IsDone children taskId := by
  simp only [List.mem_map, mem_filter, IsDone, and_assoc]
  exact exists_congr fun c ↦ and_congr_right fun _ ↦ and_comm

theorem done_eq_nil_iff {children : List ChildView} :
    (children.filter (·.done)).map (·.taskId) = [] ↔ ¬∃ c ∈ children, c.done := by
  simp

theorem missingRequired_eq_nil_iff {children : List ChildView} {required : List String} :
    required.filter (· ∉ (children.filter (·.done)).map (·.taskId)) = [] ↔
      ∀ r ∈ required, IsDone children r := by
  simp only [filter_eq_nil_iff, mem_done_iff, decide_eq_true_eq, not_not]

theorem pending_eq_nil_iff {children : List ChildView} :
    (children.filter fun c ↦ !c.done && !c.cancelled).map (·.taskId) = [] ↔
      ∀ c ∈ children, c.cancelled = false → c.done := by
  simp only [map_eq_nil_iff, filter_eq_nil_iff, Bool.and_eq_true, Bool.not_eq_true',
    not_and, Bool.not_eq_false]
  exact forall₂_congr fun c _ ↦ by cases c.done <;> cases c.cancelled <;> simp

theorem not_done_of_cancelled (h : c.cancelled) : ¬c.done := by
  simp only [ChildView.cancelled, decide_eq_true_eq] at h
  simp [ChildView.done, h, TaskStatus.doneStatuses]

/-- Of two children with distinct ids in the list, one that is cancelled is not the done one. -/
theorem not_isDone_of_cancelled {children : List ChildView} (hids : (children.map (·.taskId)).Nodup)
    (hc : c ∈ children) (h : c.cancelled) : ¬IsDone children c.taskId := by
  rintro ⟨d, hd, hid, hdone⟩
  rw [inj_on_of_nodup_map hids hd hc hid] at hdone
  exact not_done_of_cancelled h hdone

theorem mem_missing_of_cancelled {children : List ChildView} {required : List String} {r : String}
    (hids : (children.map (·.taskId)).Nodup) (hr : r ∈ required)
    (h : (children.reverse.find? (·.taskId = r)).any (·.cancelled)) :
    r ∈ (pending ++ required.filter (· ∉ (children.filter (·.done)).map (·.taskId))).eraseDups := by
  obtain ⟨c, hfind, hcancelled⟩ := (Option.any_eq_true _ _).mp h
  have hid : c.taskId = r := by simpa using List.find?_some hfind
  have hc : c ∈ children := mem_reverse.mp (mem_of_find?_eq_some hfind)
  have hnot : ¬IsDone children r := hid ▸ not_isDone_of_cancelled hids hc hcancelled
  simp only [mem_eraseDups, mem_append, mem_filter, mem_done_iff, decide_eq_true_eq]
  exact .inr ⟨hr, hnot⟩

theorem blocked_eq_nil {children : List ChildView} {required : List String}
    (hids : (children.map (·.taskId)).Nodup) :
    (required.filter fun r ↦ (children.reverse.find? (·.taskId = r)).any (·.cancelled) &&
      r ∉ (pending ++
        required.filter (· ∉ (children.filter (·.done)).map (·.taskId))).eraseDups) = [] := by
  rw [filter_eq_nil_iff]
  intro r hr h
  obtain ⟨hcancelled, hnot⟩ := Bool.and_eq_true_iff.mp h
  exact of_decide_eq_true hnot (mem_missing_of_cancelled hids hr hcancelled)

theorem eraseDups_eq_nil_iff {l : List String} : l.eraseDups = [] ↔ l = [] := by
  simp only [eq_nil_iff_forall_not_mem, mem_eraseDups]

theorem pos_of_joinMode {n : ℤ} (h : joinMode policy = .ok (.quorum n)) : 1 ≤ n := by
  rw [joinMode] at h
  split at h
  · cases h
  · cases h
  · split at h
    · split_ifs at h with hn
      cases h
      omega
    · cases h
  · cases h

theorem evaluateJoin_eq_ok {children : List ChildView} (hmode : joinMode policy = .ok mode)
    (hids : (children.map (·.taskId)).Nodup) : ∃ result, evaluateJoin policy children = .ok result ∧
      (result.satisfied ↔ JoinMet mode policy.required children) ∧
      (result.satisfied → result.missing = []) := by
  simp only [evaluateJoin, hmode, bind, Except.bind]
  cases hempty : children.isEmpty with
  | true =>
    refine ⟨_, rfl, ?_⟩
    simp [List.isEmpty_iff.mp hempty, JoinMet]
  | false =>
    simp only [Bool.false_eq_true, if_false]
    cases mode with
    | all =>
      refine ⟨_, rfl, ?_⟩
      simp only [blocked_eq_nil hids, append_nil, Bool.and_eq_true, Bool.not_eq_true',
        List.isEmpty_iff, isEmpty_eq_false_iff, eraseDups_eq_nil_iff, append_eq_nil_iff,
        pending_eq_nil_iff, missingRequired_eq_nil_iff, ne_eq, done_eq_nil_iff, not_not, JoinMet,
        JoinMode.Holds]
      exact ⟨and_comm, fun h ↦ h.1⟩
    | any =>
      refine ⟨_, rfl, ?_⟩
      simp only [Bool.not_eq_true', isEmpty_eq_false_iff, List.isEmpty_iff, ne_eq,
        done_eq_nil_iff, not_not, JoinMet, JoinMode.Holds, and_self, true_and]
      exact fun h ↦ if_neg (not_not_intro h)
    | quorum =>
      refine ⟨_, rfl, ?_⟩
      simp only [Bool.and_eq_true, decide_eq_true_eq, List.isEmpty_iff,
        missingRequired_eq_nil_iff, length_map, ← countP_eq_length_filter, JoinMet, JoinMode.Holds]
      constructor
      · have hpos := pos_of_joinMode hmode
        refine ⟨fun h ↦ ⟨?_, h⟩, And.right⟩
        have : 0 < children.countP (·.done) := by omega
        exact countP_pos_iff.mp this
      · rintro ⟨hn, hrequired⟩
        rw [if_pos hn, missingRequired_eq_nil_iff.mpr hrequired]

/-! ## Order of the children -/

theorem JoinMode.holds_perm {required : List String} {children children' : List ChildView}
    (h : children'.Perm children) :
    mode.Holds required children' ↔ mode.Holds required children := by
  cases mode <;> simp only [JoinMode.Holds, IsDone, h.mem_iff, h.countP_eq]

theorem joinMet_perm {required : List String} {children children' : List ChildView}
    (h : children'.Perm children) :
    JoinMet mode required children' ↔ JoinMet mode required children := by
  simp only [JoinMet, h.mem_iff, JoinMode.holds_perm h]

/-! ## Steps of the children -/

/-- A child that stays as it is, or an open one that becomes done or, unless it is required,
cancelled. -/
structure ChildView.Advances (required : List String) (c c' : ChildView) : Prop where
  taskId : c'.taskId = c.taskId
  status : c' = c ∨
    (c.done = false ∧ c.cancelled = false ∧ (c'.done ∨ c'.cancelled ∧ c.taskId ∉ required))

theorem ChildView.Advances.done {required : List String} {c' : ChildView}
    (h : c.Advances required c') (hdone : c.done) : c'.done := by
  obtain rfl | ⟨hnot, -⟩ := h.status
  · exact hdone
  · simp [hnot] at hdone

variable {required : List String} {children children' : List ChildView}

theorem map_taskId_of_advances (h : List.Forall₂ (ChildView.Advances required) children children') :
    children'.map (·.taskId) = children.map (·.taskId) := by
  induction h with
  | nil => rfl
  | cons hc _ ih => simp [hc.taskId, ih]

theorem IsDone.advances (h : List.Forall₂ (ChildView.Advances required) children children')
    (hdone : IsDone children taskId) : IsDone children' taskId := by
  obtain ⟨c, hc, hid, hd⟩ := hdone
  obtain ⟨c', hc', hadv⟩ := exists_of_mem_left h c hc
  exact ⟨c', hc', hadv.taskId.trans hid, hadv.done hd⟩

theorem countP_done_le (h : List.Forall₂ (ChildView.Advances required) children children') :
    children.countP (·.done) ≤ children'.countP (·.done) := by
  induction h with
  | nil => simp
  | cons hc =>
    simp only [countP_cons]
    split_ifs with h₁ h₂ h₂
    · omega
    · exact absurd (hc.done h₁) h₂
    all_goals omega

theorem all_done_advances (h : List.Forall₂ (ChildView.Advances required) children children')
    (hall : ∀ c ∈ children, c.cancelled = false → c.done) :
    ∀ c ∈ children', c.cancelled = false → c.done := by
  intro c' hc'
  obtain ⟨c, hc, hadv⟩ := exists_of_mem_left h.flip c' hc'
  obtain rfl | ⟨hnot, hopen, -⟩ := hadv.status
  · exact hall c' hc
  · have hdone := hall c hc hopen
    rw [hnot] at hdone
    cases hdone

theorem JoinMode.Holds.advances (h : List.Forall₂ (ChildView.Advances required) children children')
    (hholds : mode.Holds required children) : mode.Holds required children' := by
  cases mode with
  | all => exact ⟨all_done_advances h hholds.1, fun r hr ↦ (hholds.2 r hr).advances h⟩
  | any =>
    obtain ⟨c, hc, hdone⟩ := hholds
    obtain ⟨c', hc', hadv⟩ := exists_of_mem_left h c hc
    exact ⟨c', hc', hadv.done hdone⟩
  | quorum =>
    refine ⟨hholds.1.trans ?_, fun r hr ↦ (hholds.2 r hr).advances h⟩
    exact_mod_cast countP_done_le h

theorem JoinMet.advances (h : List.Forall₂ (ChildView.Advances required) children children')
    (hjoined : JoinMet mode required children) : JoinMet mode required children' :=
  by
  have hone : JoinMode.Holds required children' .any :=
    JoinMode.Holds.advances h (show JoinMode.Holds required children .any from hjoined.1)
  exact ⟨hone, hjoined.2.advances h⟩

/-- For a valid policy over children with distinct ids, `evaluateJoin` decides the join condition;
a met join misses no child, the order of the children does not change the verdict, and a met join
stays met when open children become done or, the ones not required, cancelled. -/
theorem evaluateJoin_decides {policy : JoinPolicy} {mode : JoinMode}
    (hmode : joinMode policy = .ok mode) (hids : (children.map (·.taskId)).Nodup) :
    ∃ result, evaluateJoin policy children = .ok result ∧
      (result.satisfied ↔ JoinMet mode policy.required children) ∧
      (result.satisfied → result.missing = []) ∧ (∀ children', children'.Perm children → ∃ result',
        evaluateJoin policy children' = .ok result' ∧ result'.satisfied = result.satisfied) ∧
      (∀ children', List.Forall₂ (ChildView.Advances policy.required) children children' →
        result.satisfied → ∃ result',
          evaluateJoin policy children' = .ok result' ∧ result'.satisfied) := by
  obtain ⟨result, hresult, hiff, hmissing⟩ := evaluateJoin_eq_ok hmode hids
  refine ⟨result, hresult, hiff, hmissing, fun children' hperm ↦ ?_, fun children' hadv hsat ↦ ?_⟩
  · have hids' : (children'.map (·.taskId)).Nodup := (hperm.map _).nodup_iff.mpr hids
    obtain ⟨result', hresult', hiff', -⟩ := evaluateJoin_eq_ok hmode hids'
    exact ⟨result', hresult', Bool.eq_iff_iff.mpr (by rw [hiff, hiff', joinMet_perm hperm])⟩
  · have hids' : (children'.map (·.taskId)).Nodup := map_taskId_of_advances hadv ▸ hids
    obtain ⟨result', hresult', hiff', -⟩ := evaluateJoin_eq_ok hmode hids'
    exact ⟨result', hresult', hiff'.mpr ((hiff.mp hsat).advances hadv)⟩

/-- One of two children is enough, also when the other is cancelled in the meantime. -/
theorem evaluateJoin_decides_quorum :
    ∃ result, evaluateJoin { mode := some "quorum", quorum := some 1, required := ["b"] }
        [⟨"a", .cancelled⟩, ⟨"b", .verified⟩] = .ok result ∧ result.satisfied := by
  have hmode : joinMode { mode := some "quorum", quorum := some 1, required := ["b"] } =
      .ok (.quorum 1) := by decide +kernel
  have hids : ([⟨"a", .running⟩, ⟨"b", .verified⟩].map ChildView.taskId).Nodup := by decide
  obtain ⟨result, hresult, hiff, -, -, hadvances⟩ := evaluateJoin_decides hmode hids
  have hjoined : JoinMet (.quorum 1) ["b"] [⟨"a", .running⟩, ⟨"b", .verified⟩] := by
    simp [JoinMet, JoinMode.Holds, IsDone, ChildView.done, TaskStatus.doneStatuses]
  refine hadvances _ (.cons ⟨rfl, .inr ?_⟩ (.cons ⟨rfl, .inl rfl⟩ .nil)) (hiff.mpr hjoined)
  decide

end AgentColab.Tasks
