import AgentColab.Rerouting.Triggers

/-!
# What a command does to the items

Every change of an item keeps what it is about and never opens it again, and a reassignment closes
the items that it supersedes. The part of `Invariant` that only holds while every reassignment
supersedes the open item of its Task is kept under a premise.
-/

namespace AgentColab.Rerouting

open List
open Except (ok)

open Tasks (CommandError TaskStatus EventType)
open Work (WorkItemError WorkItemState Action terminalStates assignmentKinds assignmentReroutes)

variable {cfg : Config} {env : Env} {w w' w₁ : World} {t t' : Task} {i j : WorkItem}
  {taskId uuid reason actor : String}

/-! ## Items that fade -/

/-- The item later: about the same, and not opened again. -/
structure WorkItem.Later (i j : WorkItem) : Prop where
  workItemId : j.workItemId = i.workItemId
  kind : j.kind = i.kind
  agentId : j.agentId = i.agentId
  taskId : j.taskId = i.taskId
  assignmentRevision : j.assignmentRevision = i.assignmentRevision
  idempotencyKey : j.idempotencyKey = i.idempotencyKey
  closed : j.Open → i.Open

namespace WorkItem.Later

theorem refl (i : WorkItem) : i.Later i := ⟨rfl, rfl, rfl, rfl, rfl, rfl, fun h ↦ h⟩

theorem trans {k : WorkItem} (h : i.Later j) (h' : j.Later k) : i.Later k where
  workItemId := h'.workItemId.trans h.workItemId
  kind := h'.kind.trans h.kind
  agentId := h'.agentId.trans h.agentId
  taskId := h'.taskId.trans h.taskId
  assignmentRevision := h'.assignmentRevision.trans h.assignmentRevision
  idempotencyKey := h'.idempotencyKey.trans h.idempotencyKey
  closed := fun hk ↦ h.closed (h'.closed hk)

theorem assigns (h : i.Later j) : j.Assigns taskId ↔ i.Assigns taskId := by
  rw [Assigns, Assigns, h.taskId, h.kind]

theorem openFor (h : i.Later j) (hj : j.OpenFor taskId) : i.OpenFor taskId :=
  ⟨h.closed hj.1, h.assigns.1 hj.2⟩

end WorkItem.Later

/-- Only items have changed, and each is the item later. -/
def Fades (w w' : World) : Prop :=
  ∃ g : WorkItem → WorkItem, w' = { w with items := w.items.map g } ∧ ∀ i ∈ w.items, i.Later (g i)

theorem Fades.refl (w : World) : Fades w w := ⟨fun i ↦ i, by rw [List.map_id'], fun i _ ↦ .refl i⟩

theorem Fades.trans (h : Fades w w₁) (h' : Fades w₁ w') : Fades w w' := by
  obtain ⟨g, rfl, hg⟩ := h
  obtain ⟨g', rfl, hg'⟩ := h'
  refine ⟨fun i ↦ g' (g i), by rw [List.map_map]; rfl, fun i hi ↦ ?_⟩
  exact (hg i hi).trans (hg' _ (List.mem_map_of_mem hi))

theorem find_of_nodup {α β : Type} [DecidableEq β] {f : α → β} {l : List α} {a : α}
    (h : (l.map f).Nodup) (ha : a ∈ l) : l.find? (fun b ↦ f b = f a) = some a := by
  cases hfind : l.find? fun b ↦ f b = f a with
  | none => exact absurd (List.find?_eq_none.1 hfind a ha) (by simp)
  | some b =>
    have hb : f b = f a := by simpa using List.find?_some hfind
    rw [inj_on_of_nodup_map h (mem_of_find?_eq_some hfind) ha hb]

namespace World

variable {wid : String} {f : WorkItem → WorkItem} {status : WorkItemState} {action : Action}

theorem item_ok (h : w.item wid = .ok i) : i ∈ w.items ∧ i.workItemId = wid := by
  rw [item] at h
  split at h
  · rename_i i' hfind
    obtain rfl := ok.inj h
    exact ⟨mem_of_find?_eq_some hfind, by simpa using List.find?_some hfind⟩
  · cases h

theorem item_of_mem (hids : (w.items.map WorkItem.workItemId).Nodup) (hi : i ∈ w.items) :
    w.item i.workItemId = .ok i := by
  rw [item, find_of_nodup hids hi]

theorem setItem_fades (hf : ∀ i ∈ w.items, i.workItemId = wid → i.Later (f i)) :
    Fades w (w.setItem wid f) := by
  refine ⟨fun i ↦ if i.workItemId = wid then f i else i, rfl, fun i hi ↦ ?_⟩
  dsimp only
  split_ifs with hid
  · exact hf i hi hid
  · exact .refl i

theorem open_of_transition {status' : WorkItemState}
    (h : Work.transition status action = .ok status') : status ∉ terminalStates :=
  (Work.transition_eq_ok.1 h).1

theorem moveItem_ok (h : w.moveItem wid action f = .ok w') :
    ∃ i ∈ w.items, i.workItemId = wid ∧ i.Open ∧
      ∃ status, w' = w.setItem wid fun j ↦ { f j with status := status } := by
  rw [moveItem] at h
  obtain ⟨i, hi, h⟩ := bind_eq_ok.1 h
  obtain ⟨status, hstatus, h⟩ := bind_eq_ok.1 h
  obtain ⟨hmem, hid⟩ := item_ok hi
  exact ⟨i, hmem, hid, open_of_transition hstatus, status, (ok.inj h).symm⟩

theorem moveItem_fades (hids : (w.items.map WorkItem.workItemId).Nodup)
    (hf : ∀ (j : WorkItem) (status : WorkItemState), j.Open → j.Later { f j with status := status })
    (h : w.moveItem wid action f = .ok w') : Fades w w' := by
  obtain ⟨i, hi, hid, hopen, status, rfl⟩ := moveItem_ok h
  refine setItem_fades fun j hj hjd ↦ hf j status ?_
  rwa [inj_on_of_nodup_map hids hj hi (hjd.trans hid.symm)]

/-! ## Cancelling -/

def cancelled (i : WorkItem) : WorkItem := { i with status := .cancelled }

theorem not_open_cancelled (i : WorkItem) : ¬ (cancelled i).Open := by
  intro h
  exact h (show WorkItemState.cancelled ∈ terminalStates by decide)

theorem later_cancelled (i : WorkItem) : i.Later (cancelled i) :=
  ⟨rfl, rfl, rfl, rfl, rfl, rfl, fun h ↦ absurd h (not_open_cancelled i)⟩

theorem transition_cancel (h : status ∉ terminalStates) :
    Work.transition status .cancel = .ok .cancelled := by
  refine Work.transition_eq_ok.2 ⟨h, ?_⟩
  cases status <;> simp [terminalStates] at h <;> rfl

theorem cancelOrSkip_eq (hids : (w.items.map WorkItem.workItemId).Nodup) (hi : i ∈ w.items)
    (hopen : i.Open) : w.cancelOrSkip i = w.setItem i.workItemId cancelled := by
  have hcancel : w.cancel i.workItemId = .ok (w.setItem i.workItemId cancelled) := by
    rw [cancel, moveItem, item_of_mem hids hi]
    change Work.transition i.status .cancel >>= _ = _
    rw [transition_cancel hopen]
    rfl
  rw [cancelOrSkip, hcancel]

theorem foldl_cancelOrSkip (hids : (w.items.map WorkItem.workItemId).Nodup) (l : List WorkItem)
    (hl : l.Nodup) (hmem : ∀ i ∈ l, i ∈ w.items ∧ i.Open) : l.foldl cancelOrSkip w =
      { w with items := w.items.map fun i ↦ if i ∈ l then cancelled i else i } := by
  induction l using List.reverseRecOn with
  | nil => simp
  | append_singleton l i ih =>
    obtain ⟨hnodup, -, hdisjoint⟩ := nodup_append.1 hl
    have hil : i ∉ l := fun h ↦ hdisjoint i h i (mem_singleton_self i) rfl
    obtain ⟨hi, hopen⟩ := hmem i (mem_append_right _ (mem_singleton_self i))
    rw [foldl_append, ih hnodup fun j hj ↦ hmem j (mem_append_left _ hj), foldl_cons, foldl_nil]
    -- the ids are those of the items before
    rw [cancelOrSkip_eq _ _ hopen]
    · rw [setItem]
      congr 1
      rw [List.map_map]
      refine map_congr_left fun j hj ↦ ?_
      by_cases hji : j = i
      · subst hji
        simp [hil]
      · have hid : j.workItemId ≠ i.workItemId := fun h ↦
          hji (inj_on_of_nodup_map hids hj hi h)
        by_cases hjl : j ∈ l <;> simp [hjl, hji, hid, cancelled]
    · rw [List.map_map]
      convert hids using 2
      funext j
      by_cases hjl : j ∈ l <;> simp [hjl, cancelled]
    · exact List.mem_map.2 ⟨i, hi, if_neg hil⟩

/-- An item after an assignment of the Task, for the Agent to keep. -/
def superseded (taskId : String) (keepAgentId : Option String) (i : WorkItem) : WorkItem :=
  if i.OpenFor taskId ∧ keepAgentId ≠ some i.agentId then cancelled i else i

theorem later_superseded (taskId : String) (keepAgentId : Option String) (i : WorkItem) :
    i.Later (superseded taskId keepAgentId i) := by
  rw [superseded]
  split_ifs
  · exact later_cancelled i
  · exact .refl i

theorem cancelOpenAssignments_eq (hids : (w.items.map WorkItem.workItemId).Nodup)
    (taskId : String) (keepAgentId : Option String) : w.cancelOpenAssignments taskId keepAgentId =
      { w with items := w.items.map (superseded taskId keepAgentId) } := by
  have hnodup : w.items.Nodup := hids.of_map
  rw [cancelOpenAssignments, openItems, foldl_cancelOrSkip hids _ ((hnodup.filter _).filter _)]
  · congr 1
    refine map_congr_left fun i hi ↦ ?_
    rw [superseded]
    refine if_congr ?_ rfl rfl
    simp only [mem_filter, hi, decide_eq_true_eq, true_and, WorkItem.OpenFor]
    exact and_assoc.symm
  · intro i hi
    obtain ⟨hi, -⟩ := mem_filter.1 hi
    exact ⟨(mem_filter.1 hi).1, of_decide_eq_true (mem_filter.1 hi).2⟩

end World

/-! ## Assigning -/

/-- An item after an assignment of the Task to the account. -/
def afterItem (cfg : Config) (uuid taskId : String) (i : WorkItem) : WorkItem :=
  match cfg.agentForAccount uuid with
  | none => i
  | some agentId => World.superseded taskId (some agentId) i

theorem later_afterItem (cfg : Config) (uuid taskId : String) (i : WorkItem) :
    i.Later (afterItem cfg uuid taskId i) := by
  rw [afterItem]
  split
  · exact .refl i
  · exact World.later_superseded _ _ i

theorem not_openFor_afterItem {agentId : String} (ha : cfg.agentForAccount uuid = some agentId)
    (hne : agentId ≠ i.agentId) : ¬ (afterItem cfg uuid taskId i).OpenFor taskId := by
  intro h
  have hi := (later_afterItem cfg uuid taskId i).openFor h
  rw [afterItem, ha] at h
  dsimp only at h
  rw [World.superseded, if_pos ⟨hi, fun heq ↦ hne (Option.some.inj heq)⟩] at h
  exact World.not_open_cancelled i h.1

theorem afterItem_of_not_assigns (h : ¬ i.Assigns taskId) : afterItem cfg uuid taskId i = i := by
  rw [afterItem]
  split
  · rfl
  · rw [World.superseded, if_neg fun hi ↦ h hi.1.2]

structure Queued (cfg : Config) (w : World) (t : Task) (uuid : String) (n : WorkItem) : Prop where
  agent : cfg.agentForAccount uuid = some n.agentId
  assigns : n.Assigns t.taskId
  revision : n.assignmentRevision = t.assignmentRevision + 1
  key : n.idempotencyKey = World.assignKey t.taskId n.assignmentRevision
  freshId : ∀ i ∈ w.items, i.workItemId ≠ n.workItemId
  freshKey : ∀ i ∈ w.items, i.idempotencyKey ≠ n.idempotencyKey

structure Assigned (cfg : Config) (w : World) (t : Task) (uuid reason : String) (w' : World) :
    Prop where
  task : ∃ t' : Task, w'.tasks = Function.update w.tasks t.taskId (some t') ∧
    t'.taskId = t.taskId ∧ t'.assigneeAccountId = some uuid ∧
      t'.assignmentRevision = t.assignmentRevision + 1 ∧ t'.status ≠ .open'
  row : ∃ r : AssignmentRow, w'.assignments = w.assignments ++ [r] ∧ r.taskId = t.taskId ∧
    r.reasonCode = reason
  history : w'.history = w.history
  items : ∃ new : Option WorkItem,
    w'.items = w.items.map (afterItem cfg uuid t.taskId) ++ new.toList ∧
      ∀ n, new = some n → Queued cfg w t uuid n

namespace World

theorem enqueue_ok {n : WorkItem} (h : w.enqueue env taskId n = .ok w') :
    w' = w ∨ w' = { w with items := w.items ++ [n] } ∧
      (∀ i ∈ w.items, i.workItemId ≠ n.workItemId) ∧
        ∀ i ∈ w.items, i.idempotencyKey ≠ n.idempotencyKey := by
  rw [enqueue] at h
  split at h
  · split_ifs at h
    exact .inl (ok.inj h).symm
  · rename_i hfind
    obtain ⟨-, -, h⟩ := bind_eq_ok.1 h
    split_ifs at h with hid
    refine .inr ⟨(ok.inj h).symm, fun i hi heq ↦ hid ⟨i, hi, heq⟩, fun i hi heq ↦ ?_⟩
    exact List.find?_eq_none.1 hfind i hi (decide_eq_true heq)

theorem newItem_assigns (env : Env) (t : Task) (agentId : String) :
    (newItem env t agentId).Assigns t.taskId := by
  refine ⟨rfl, ?_⟩
  change (if _ then "subtask_assignment" else "task_assignment") ∈ assignmentKinds
  split_ifs
  · exact mem_cons_of_mem _ (mem_singleton_self _)
  · exact mem_cons_self

variable {etype : EventType} {c : CommandKey}

theorem transitions_open {current target : TaskStatus}
    (h : Tasks.transitions current etype = some target) :
    target ≠ .open' ∧ (etype = .taskDelegated → current = .open') := by
  rw [Tasks.transitions.eq_def] at h
  split at h <;> simp_all
  all_goals
    subst h
    decide

theorem transition_ok {detail : Task → Task} {p : World × Task}
    (h : w.transition env c t etype detail = .ok p) :
    ∃ status, p = (w.setTask (detail { t with status, commands := t.commands ++ [c] }),
      detail { t with status, commands := t.commands ++ [c] }) ∧ status ≠ .open' ∧
        (etype = .taskDelegated → t.status = .open') := by
  rw [transition] at h
  obtain ⟨status, hstatus, h⟩ := bind_eq_ok.1 h
  obtain ⟨-, -, h⟩ := bind_eq_ok.1 h
  have htarget := transitions_open (Tasks.nextStatus_eq_ok.1 (mapError_eq_ok.1 hstatus))
  exact ⟨status, (ok.inj h).symm, htarget⟩

theorem assign_ok (hids : (w.items.map WorkItem.workItemId).Nodup)
    (h : assign cfg env w c t etype uuid reason = .ok w') :
    Assigned cfg w t uuid reason w' ∧ (etype = .taskDelegated → t.status = .open') := by
  rw [assign] at h
  obtain ⟨p, hp, h⟩ := bind_eq_ok.1 h
  obtain ⟨status, rfl, hopen, hdelegated⟩ := transition_ok hp
  refine ⟨?_, hdelegated⟩
  dsimp only at h
  rw [afterAssignment, assigned] at h
  dsimp only at h
  split at h
  · rename_i hagent
    obtain rfl := ok.inj h
    refine ⟨⟨_, rfl, rfl, rfl, rfl, hopen⟩, ⟨_, rfl, rfl, rfl⟩, rfl, none, ?_,
      fun n hn ↦ nomatch hn⟩
    change w.items = w.items.map _ ++ []
    rw [append_nil]
    conv_lhs => rw [← List.map_id w.items]
    refine map_congr_left fun i _ ↦ ?_
    rw [afterItem, hagent]
    rfl
  · rename_i agentId hagent
    have hafter : afterItem cfg uuid t.taskId = superseded t.taskId (some agentId) := by
      funext i
      rw [afterItem, hagent]
    rw [cancelOpenAssignments_eq (show (((w.setTask _).recordAssignment _ c.actor uuid
      reason).items.map WorkItem.workItemId).Nodup from hids)] at h
    rcases enqueue_ok h with rfl | ⟨rfl, hid, hkey⟩
    · refine ⟨⟨_, rfl, rfl, rfl, rfl, hopen⟩, ⟨_, rfl, rfl, rfl⟩, rfl, none, ?_,
        fun n hn ↦ nomatch hn⟩
      rw [hafter]
      exact (append_nil _).symm
    · refine ⟨⟨_, rfl, rfl, rfl, rfl, hopen⟩, ⟨_, rfl, rfl, rfl⟩, rfl,
        some (newItem env (assigned uuid { t with status, commands := t.commands ++ [c] }) agentId),
        ?_, ?_⟩
      · rw [hafter]
        rfl
      · intro n hn
        obtain rfl := Option.some.inj hn
        refine ⟨hagent, newItem_assigns env _ agentId, rfl, rfl, fun i hi ↦ ?_, fun i hi ↦ ?_⟩
        · have hlater := later_superseded t.taskId (some agentId) i
          rw [← hlater.workItemId]
          exact hid _ (List.mem_map_of_mem hi)
        · have hlater := later_superseded t.taskId (some agentId) i
          rw [← hlater.idempotencyKey]
          exact hkey _ (List.mem_map_of_mem hi)

end World

end AgentColab.Rerouting
