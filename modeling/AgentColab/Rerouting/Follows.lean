import AgentColab.Rerouting.Invariant

/-!
# Runs of assignments

A sweep reports the items whose acceptance is late and re-routes their Tasks one after the other.
The items are those of different Tasks, so one that is yet to be processed is still about the
current assignment of its Task.
-/

namespace AgentColab.Rerouting

open List Option
open Except (ok)

open Tasks (CommandError TaskStatus EventType)
open Work (WorkItemError WorkItemState Action terminalStates assignmentKinds assignmentReroutes)

variable {cfg : Config} {env : Env} {w w' w₁ : World} {t t' : Task} {i j : WorkItem}
  {taskId uuid reason actor wid agentId : String} {now : Time} {P : Prop}

/-! ## What is done to one item -/

theorem Fades.ids (h : Fades w w') (hids : (w.items.map WorkItem.workItemId).Nodup) :
    (w'.items.map WorkItem.workItemId).Nodup := by
  obtain ⟨g, rfl, hg⟩ := h
  have hmap : (w.items.map g).map WorkItem.workItemId = w.items.map WorkItem.workItemId := by
    rw [List.map_map]
    exact map_congr_left fun i hi ↦ (hg i hi).workItemId
  dsimp only
  rwa [hmap]

namespace World

theorem ownItem_ok (h : w.ownItem wid agentId = .ok i) :
    i ∈ w.items ∧ i.workItemId = wid ∧ i.agentId = agentId := by
  rw [ownItem] at h
  obtain ⟨i', hi, h⟩ := bind_eq_ok.1 h
  split_ifs at h with hagent
  obtain rfl := ok.inj h
  exact ⟨(item_ok hi).1, (item_ok hi).2, not_not.1 hagent⟩

variable (hids : (w.items.map WorkItem.workItemId).Nodup)

include hids

theorem setItem_fades_of_open (hi : i ∈ w.items) (hid : i.workItemId = wid) (hopen : i.Open)
    {f : WorkItem → WorkItem} (hf : ∀ j : WorkItem, j.Open → j.Later (f j)) :
    Fades w (w.setItem wid f) := by
  refine setItem_fades fun j hj hjd ↦ hf j ?_
  rwa [inj_on_of_nodup_map hids hj hi (hjd.trans hid.symm)]

theorem deliver_fades (h : w.deliver now wid agentId = .ok w') : Fades w w' := by
  rw [deliver] at h
  obtain ⟨i, hi, h⟩ := bind_eq_ok.1 h
  obtain ⟨hmem, hid, -⟩ := ownItem_ok hi
  by_cases hqueued : i.status = .queued
  · rw [if_neg (not_not.2 hqueued)] at h
    obtain ⟨status, -, h⟩ := bind_eq_ok.1 h
    obtain rfl := ok.inj h
    have hopen : i.Open := by
      rw [WorkItem.Open, hqueued]
      decide
    exact setItem_fades_of_open hids hmem hid hopen fun j hj ↦
      ⟨rfl, rfl, rfl, rfl, rfl, rfl, fun _ ↦ hj⟩
  · rw [if_pos hqueued] at h
    obtain rfl := ok.inj h
    exact .refl _

theorem ack_fades (h : w.ack now wid agentId = .ok w') : Fades w w' := by
  rw [ack] at h
  obtain ⟨i, -, h⟩ := bind_eq_ok.1 h
  split_ifs at h
  · obtain rfl := ok.inj h
    exact .refl _
  · refine moveItem_fades hids (fun j _ hj ↦ ?_) h
    exact ⟨rfl, rfl, rfl, rfl, rfl, rfl, fun _ ↦ hj⟩

theorem startItem_fades (h : w.startItem now wid agentId = .ok w') : Fades w w' := by
  rw [startItem] at h
  obtain ⟨i, -, h⟩ := bind_eq_ok.1 h
  split_ifs at h
  · obtain rfl := ok.inj h
    exact .refl _
  · refine moveItem_fades hids (fun j _ hj ↦ ?_) h
    exact ⟨rfl, rfl, rfl, rfl, rfl, rfl, fun _ ↦ hj⟩

theorem moveItem_status_fades {action : Action} (h : w.moveItem wid action (fun j ↦ j) = .ok w') :
    Fades w w' :=
  moveItem_fades hids (fun _ _ hj ↦ ⟨rfl, rfl, rfl, rfl, rfl, rfl, fun _ ↦ hj⟩) h

theorem result_fades (h : w.result now wid agentId = .ok w') : Fades w w' := by
  rw [result] at h
  obtain ⟨i, -, h⟩ := bind_eq_ok.1 h
  split_ifs at h
  · obtain ⟨w₁, hw₁, h⟩ := bind_eq_ok.1 h
    have hack := ack_fades hids hw₁
    exact hack.trans (moveItem_status_fades (hack.ids hids) h)
  · exact moveItem_status_fades hids h
  · obtain rfl := ok.inj h
    exact .refl _

theorem requeue_fades (h : w.requeue wid = .ok w') : Fades w w' := by
  rw [requeue] at h
  obtain ⟨i, hi, h⟩ := bind_eq_ok.1 h
  obtain ⟨status, hstatus, h⟩ := bind_eq_ok.1 h
  obtain rfl := ok.inj h
  obtain ⟨hmem, hid⟩ := item_ok hi
  exact setItem_fades_of_open hids hmem hid (open_of_transition hstatus) fun j hj ↦
    ⟨rfl, rfl, rfl, rfl, rfl, rfl, fun _ ↦ hj⟩

theorem reject_fades (h : w.reject wid agentId reason = .ok w') :
    Fades w w' ∧ ∃ i ∈ w.items, i.workItemId = wid ∧ i.Open := by
  rw [reject] at h
  split_ifs at h
  obtain ⟨-, -, h⟩ := bind_eq_ok.1 h
  obtain ⟨i, hi, hid, hopen, -⟩ := moveItem_ok h
  exact ⟨moveItem_status_fades hids h, i, hi, hid, hopen⟩

omit hids

/-! ## The sweep -/

def SweepReport.ids (r : SweepReport) : List String := r.rerouteRequired ++ r.waitingRequired

theorem sweepOne_ok {counts : String → ℕ} {s s' : World × SweepReport}
    (hids : (s.1.items.map WorkItem.workItemId).Nodup) (h : sweepOne now counts s i = .ok s') :
    (Fades s.1 s'.1 ∧ s'.2 = s.2) ∨
      (s'.1 = s.1 ∧ (SweepReport.ids s'.2).Perm (SweepReport.ids s.2 ++ [i.workItemId])) := by
  rw [sweepOne] at h
  split at h
  · obtain rfl := ok.inj h
    exact .inl ⟨.refl _, rfl⟩
  split at h
  · obtain rfl := ok.inj h
    exact .inl ⟨.refl _, rfl⟩
  · cases hw : s.1.requeue i.workItemId with
    | error =>
      rw [hw] at h
      cases h
    | ok =>
      rw [hw] at h
      obtain rfl := ok.inj h
      exact .inl ⟨requeue_fades hids hw, rfl⟩
  · cases hw : s.1.moveItem i.workItemId .expire fun j ↦ j with
    | error =>
      rw [hw] at h
      cases h
    | ok =>
      rw [hw] at h
      obtain rfl := ok.inj h
      exact .inl ⟨moveItem_status_fades hids hw, rfl⟩
  · obtain rfl := ok.inj h
    refine .inr ⟨rfl, ?_⟩
    rw [SweepReport.ids, SweepReport.ids, append_assoc, append_assoc]
    exact perm_append_comm.append_left _
  · obtain rfl := ok.inj h
    refine .inr ⟨rfl, ?_⟩
    rw [SweepReport.ids, SweepReport.ids, append_assoc]

end World

/-- A sweep of `w` on its way: the items that it has reported and those it has yet to look at are
open in `w`, and are different. -/
structure Sweeping (w : World) (rest : List WorkItem) (s : World × World.SweepReport) : Prop where
  fades : Fades w s.1
  nodup : (World.SweepReport.ids s.2 ++ rest.map WorkItem.workItemId).Nodup
  reported : ∀ id ∈ World.SweepReport.ids s.2, ∃ i ∈ w.items, i.Open ∧ i.workItemId = id
  rest : ∀ i ∈ rest, i ∈ w.items ∧ i.Open

theorem Sweeping.next {counts : String → ℕ} {rest : List WorkItem}
    {s s' : World × World.SweepReport} (hids : (w.items.map WorkItem.workItemId).Nodup)
    (h : Sweeping w (i :: rest) s) (hstep : World.sweepOne now counts s i = .ok s') :
    Sweeping w rest s' := by
  have hrest : ∀ j ∈ rest, j ∈ w.items ∧ j.Open := fun j hj ↦ h.rest j (mem_cons_of_mem _ hj)
  rcases World.sweepOne_ok (h.fades.ids hids) hstep with ⟨hfades, hreport⟩ | ⟨hw, hperm⟩
  · refine ⟨h.fades.trans hfades, ?_, hreport ▸ h.reported, hrest⟩
    rw [hreport]
    exact h.nodup.sublist ((sublist_cons_self _ _).append_left _)
  · refine ⟨hw ▸ h.fades, ?_, fun id hid ↦ ?_, hrest⟩
    · rw [(hperm.append_right _).nodup_iff, append_assoc]
      exact h.nodup
    · rcases mem_append.1 (hperm.mem_iff.1 hid) with hid | hid
      · exact h.reported id hid
      · obtain ⟨hi, hopen⟩ := h.rest i mem_cons_self
        exact ⟨i, hi, hopen, (mem_singleton.1 hid).symm⟩

theorem Sweeping.start (hids : (w.items.map WorkItem.workItemId).Nodup) :
    Sweeping w w.openItems (w, {}) where
  fades := .refl w
  nodup := hids.sublist (filter_sublist.map _)
  reported := forall_mem_nil _
  rest := fun _ hi ↦ ⟨(mem_filter.1 hi).1, of_decide_eq_true (mem_filter.1 hi).2⟩

/-- Of the outcomes of a sweep each is about the current assignment of its Task, and no two are of
one Task. -/
structure Due (P : Prop) (cfg : Config) (rest : List String) (w : World) : Prop where
  invariant : Invariant P cfg w
  nodup : rest.Nodup
  current : P → ∀ id ∈ rest, ∃ i ∈ w.items, i.workItemId = id ∧ i.Current w
  apart : P → ∀ i ∈ w.items, ∀ j ∈ w.items, i.workItemId ∈ rest → j.workItemId ∈ rest →
    i.taskId = j.taskId → i = j

namespace Due

variable {id : String} {rest : List String}

theorem of_sweeping {s : World × World.SweepReport} (h : Invariant P cfg w)
    (hsweep : Sweeping w [] s) : Due P cfg (World.SweepReport.ids s.2) s.1 := by
  obtain ⟨⟨g, hw, hg⟩, hnodup, hreported, -⟩ := hsweep
  rw [map_nil, append_nil] at hnodup
  refine ⟨h.fades ⟨g, hw, hg⟩, hnodup, fun hP id hid ↦ ?_, fun hP i hi j hj hid hjd htask ↦ ?_⟩
  · obtain ⟨i, hi, hopen, rfl⟩ := hreported id hid
    refine ⟨g i, ?_, (hg i hi).workItemId, fun task htask ↦ ?_⟩
    · rw [hw]
      exact List.mem_map_of_mem hi
    · obtain ⟨t, ht, -⟩ := h.keyed i hi
      obtain ⟨task', htask', -, hrev⟩ := h.current hP i hi t ⟨hopen, ht⟩
      rw [(hg i hi).taskId, ht.1, hw] at htask
      rw [(hg i hi).assignmentRevision, hrev, some.inj (htask'.symm.trans htask)]
  · rw [hw] at hi hj
    replace hi := List.mem_map.1 hi
    replace hj := List.mem_map.1 hj
    obtain ⟨i, hi, rfl⟩ := hi
    obtain ⟨j, hj, rfl⟩ := hj
    -- the reported ids are those of open items
    have hopen : ∀ k ∈ w.items, (g k).workItemId ∈ World.SweepReport.ids s.2 → k.Open := by
      intro k hk hkd
      obtain ⟨l, hl, hlo, hld⟩ := hreported _ hkd
      rw [(hg k hk).workItemId] at hld
      rwa [← inj_on_of_nodup_map h.ids hl hk hld]
    obtain ⟨ti, hti, -⟩ := h.keyed i hi
    obtain ⟨tj, htj, -⟩ := h.keyed j hj
    rw [(hg i hi).taskId, (hg j hj).taskId, hti.1, htj.1] at htask
    obtain rfl := some.inj htask
    rw [h.openFor_unique hP hi hj ⟨hopen i hi hid, hti⟩ ⟨hopen j hj hjd, htj⟩]

theorem tail (h : Due P cfg (id :: rest) w) : Due P cfg rest w where
  invariant := h.invariant
  nodup := h.nodup.of_cons
  current := fun hP id' hid' ↦ h.current hP id' (mem_cons_of_mem _ hid')
  apart := fun hP i hi j hj hid hjd ↦ h.apart hP i hi j hj (mem_cons_of_mem _ hid)
    (mem_cons_of_mem _ hjd)

theorem frame (h : Due P cfg (id :: rest) w) (hi : i ∈ w.items) (hid : i.workItemId = id)
    (htask : i.taskId = some taskId) (hw' : Invariant P cfg w') (hframe : Frame taskId w w') :
    Due P cfg rest w' := by
  have hdue : P → ∀ id' ∈ rest, ∃ j ∈ w.items, j ∈ w'.items ∧ j.workItemId = id' ∧
      j.Current w' := by
    intro hP id' hid'
    obtain ⟨j, hj, hjd, hcurrent⟩ := h.current hP id' (mem_cons_of_mem _ hid')
    have hne : j.taskId ≠ some taskId := by
      intro heq
      have hij := h.apart hP i hi j hj (hid ▸ mem_cons_self)
        (hjd ▸ mem_cons_of_mem _ hid') (htask.trans heq.symm)
      subst hij
      exact (nodup_cons.1 h.nodup).1 (hid ▸ hjd ▸ hid')
    refine ⟨j, hj, hframe.items j hj fun ha ↦ hne ha.1, hjd, fun task ht ↦ hcurrent task ?_⟩
    obtain ⟨u, hu, ht⟩ := bind_eq_some_iff.1 ht
    rw [hu, bind_some, ← hframe.tasks u fun heq ↦ hne (heq ▸ hu)]
    exact ht
  refine ⟨hw', h.nodup.of_cons, fun hP id' hid' ↦ ?_, fun hP a ha b hb had hbd heq ↦ ?_⟩
  · obtain ⟨j, -, hj', hjd, hcurrent⟩ := hdue hP id' hid'
    exact ⟨j, hj', hjd, hcurrent⟩
  · obtain ⟨a', ha', ham, had', -⟩ := hdue hP _ had
    obtain ⟨b', hb', hbm, hbd', -⟩ := hdue hP _ hbd
    obtain rfl := inj_on_of_nodup_map hw'.ids ham ha had'
    obtain rfl := inj_on_of_nodup_map hw'.ids hbm hb hbd'
    exact h.apart hP a' ha' b' hb' (mem_cons_of_mem _ had) (mem_cons_of_mem _ hbd) heq

theorem next (h : Due P cfg (id :: rest) w)
    (hstep : World.processOutcome cfg env actor w id = .ok w') : Due P cfg rest w' := by
  rw [World.processOutcome] at hstep
  split at hstep
  · obtain rfl := ok.inj hstep
    exact h.tail
  · rename_i i hload
    obtain ⟨hi, hid⟩ := World.item_ok hload
    split at hstep
    · obtain rfl := ok.inj hstep
      exact h.tail
    · rename_i taskId htask
      refine (h.invariant.rerouteTask (fun hP i' hi' t ht ↦ ?_) hstep).elim fun hw' hframe ↦
        h.frame hi hid htask hw' hframe
      obtain rfl := some.inj hi'
      obtain ⟨j, hj, hjd, hcurrent⟩ := h.current hP id mem_cons_self
      obtain rfl := inj_on_of_nodup_map h.invariant.ids hi hj (hid.trans hjd.symm)
      exact hcurrent t (by rw [htask]; exact ht)

end Due

/-! ## Steps -/

namespace Invariant

theorem sweepWorkItems (h : Invariant P cfg w) {counts : String → ℕ}
    (hstep : w.sweepWorkItems cfg env counts = .ok w') : Invariant P cfg w' := by
  rw [World.sweepWorkItems] at hstep
  obtain ⟨actor, -, hstep⟩ := bind_eq_ok.1 hstep
  obtain ⟨s, hs, hstep⟩ := bind_eq_ok.1 hstep
  have hswept := foldlM_induction (Sweeping w) (fun i rest s s' hi hs ↦ hi.next h.ids hs)
    (Sweeping.start h.ids) (mapError_eq_ok.1 hs)
  have hdue := foldlM_induction (Due P cfg) (fun _ _ _ _ hd hs ↦ hd.next hs)
    (Due.of_sweeping h hswept) hstep
  exact hdue.invariant

theorem workReject (h : Invariant P cfg w)
    (hstep : w.workReject cfg env wid agentId reason = .ok w') : Invariant P cfg w' := by
  rw [World.workReject] at hstep
  obtain ⟨-, -, hstep⟩ := bind_eq_ok.1 hstep
  obtain ⟨w₁, hw₁, hstep⟩ := bind_eq_ok.1 hstep
  obtain ⟨i, hi, hstep⟩ := bind_eq_ok.1 hstep
  obtain ⟨hfades, j, hj, hjd, hopen⟩ := World.reject_fades h.ids (mapError_eq_ok.1 hw₁)
  obtain ⟨himem, hid⟩ := World.item_ok (mapError_eq_ok.1 hi)
  have hinvariant := h.fades hfades
  rw [World.onWorkRejected] at hstep
  split at hstep
  · rename_i taskId actor htask hsystem
    split_ifs at hstep
    case neg =>
      obtain rfl := ok.inj hstep
      exact hinvariant
    split at hstep
    · rename_i w₂ hw₂
      obtain rfl := ok.inj hstep
      refine (hinvariant.rerouteTask (fun hP i' hi' t ht ↦ ?_) hw₂).1
      obtain rfl := some.inj hi'
      obtain ⟨g, rfl, hg⟩ := hfades
      replace himem := List.mem_map.1 himem
      obtain ⟨k, hk, rfl⟩ := himem
      obtain rfl := inj_on_of_nodup_map h.ids hk hj
        ((hg k hk).workItemId.symm.trans (hid.trans hjd.symm))
      obtain ⟨id, hassigns, -⟩ := h.keyed k hk
      obtain ⟨task, htask', -, hrev⟩ := h.current hP k hk id ⟨hopen, hassigns⟩
      rw [(hg k hk).taskId, hassigns.1] at htask
      obtain rfl := some.inj htask
      rw [(hg k hk).assignmentRevision, hrev, some.inj (htask'.symm.trans ht)]
    · split_ifs at hstep
      obtain rfl := ok.inj hstep
      exact hinvariant
  · obtain rfl := ok.inj hstep
    exact hinvariant

theorem onAgentUnavailable (h : Invariant P cfg w)
    (hstep : w.onAgentUnavailable cfg env agentId reason = .ok w') : Invariant P cfg w' := by
  rw [World.onAgentUnavailable] at hstep
  split at hstep
  · obtain rfl := ok.inj hstep
    exact h
  · obtain ⟨actor, -, hstep⟩ := bind_eq_ok.1 hstep
    refine foldlM_induction (fun _ w ↦ Invariant P cfg w) (fun id _ s s' hs hs' ↦ ?_) h hstep
    refine (hs.rerouteTask (fun _ i hi ↦ ?_) hs').1
    cases hi

theorem onBudgetExceeded (h : Invariant P cfg w)
    (hstep : w.onBudgetExceeded cfg env taskId = .ok w') : Invariant P cfg w' := by
  rw [World.onBudgetExceeded] at hstep
  obtain ⟨actor, -, hstep⟩ := bind_eq_ok.1 hstep
  refine (h.rerouteTask (fun _ i hi ↦ ?_) hstep).1
  cases hi

variable {assignee key : String}

theorem delegateTask (h : Invariant P cfg w)
    (hstep : w.delegateTask cfg env actor key taskId assignee reason = .ok w') :
    Invariant P cfg w' := by
  rw [World.delegateTask] at hstep
  obtain ⟨t, ht, hstep⟩ := bind_eq_ok.1 hstep
  obtain ⟨-, -, hstep⟩ := bind_eq_ok.1 hstep
  obtain ⟨uuid, -, hstep⟩ := bind_eq_ok.1 hstep
  have ht := World.load_ok ht
  dsimp only at hstep
  split_ifs at hstep
  · obtain rfl := ok.inj hstep
    exact h
  obtain ⟨-, -, hstep⟩ := bind_eq_ok.1 hstep
  obtain ⟨-, -, hstep⟩ := bind_eq_ok.1 hstep
  obtain ⟨hassigned, hopen⟩ := World.assign_ok h.ids hstep
  refine h.assigned (fun hP i hi hio ↦ ?_) hassigned
  obtain ⟨task, htask, hagent, -⟩ := h.current hP i hi _ hio
  obtain rfl := h.named taskId t ht
  obtain rfl := some.inj (ht.symm.trans htask)
  rw [h.opened _ t ht (hopen rfl)] at hagent
  cases hagent

theorem createTask (h : Invariant P cfg w) {parent : Option String}
    (hstep : w.createTask taskId parent = .ok w') : Invariant P cfg w' := by
  rw [World.createTask] at hstep
  split at hstep
  · cases hstep
  · rename_i hnone
    obtain rfl := ok.inj hstep
    refine { h with
      named := fun id task htask ↦ ?_, opened := fun id task htask ↦ ?_
      current := fun hP i hi id hio ↦ ?_, rationed := ⟨h.rationed.once, h.rationed.fresh⟩ }
    · dsimp only at htask
      rw [setTask_tasks] at htask
      by_cases hid : id = taskId
      · subst hid
        rw [Function.update_self] at htask
        rw [← some.inj htask]
      · rw [Function.update_of_ne hid] at htask
        exact h.named id task htask
    · dsimp only at htask
      rw [setTask_tasks] at htask
      by_cases hid : id = taskId
      · subst hid
        rw [Function.update_self] at htask
        rw [← some.inj htask]
        exact fun _ ↦ rfl
      · rw [Function.update_of_ne hid] at htask
        exact h.opened id task htask
    · obtain ⟨task, htask, hrest⟩ := h.current hP i hi id hio
      have hid : id ≠ taskId := by
        rintro rfl
        rw [hnone] at htask
        cases htask
      refine ⟨task, ?_, hrest⟩
      dsimp only
      rw [setTask_tasks, Function.update_of_ne hid]
      exact htask

theorem reassignTask (h : Invariant P cfg w)
    (hC : P → Supersedes cfg w env (.reassign actor key taskId assignee reason))
    (hstep : w.reassignTask cfg env actor key taskId assignee reason = .ok w') :
    Invariant P cfg w' := by
  obtain ⟨t, uuid, ht, huuid, hcases⟩ := World.reassignTask_ok h.ids hstep
  obtain rfl := h.named taskId t ht
  rcases hcases with ⟨-, rfl⟩ | ⟨hreplay, hassigned⟩
  · exact h
  · refine h.assigned (fun hP i hi hio ↦ ?_) hassigned
    rcases hC hP with ⟨u, hu, hmem⟩ | hsup
    · obtain rfl := some.inj (ht.symm.trans hu)
      exact absurd hmem hreplay
    · obtain ⟨uuid', agentId, huuid', hagent, hne⟩ := hsup i hi hio
      obtain rfl := some.inj (huuid.symm.trans huuid')
      exact ⟨agentId, hagent, hne⟩

theorem step (h : Invariant P cfg w) {l : Label} (hC : P → Supersedes cfg w env l)
    (hstep : w.step cfg env l = .ok w') : Invariant P cfg w' := by
  cases l with
  | createTask => exact h.createTask hstep
  | delegate => exact h.delegateTask hstep
  | reassign => exact h.reassignTask hC hstep
  | command =>
    rw [World.step] at hstep
    split_ifs at hstep
    exact (h.plainCommand hstep).1
  | deliver => exact h.fades (World.deliver_fades h.ids (mapError_eq_ok.1 hstep))
  | ack => exact h.fades (World.ack_fades h.ids (mapError_eq_ok.1 hstep))
  | start => exact h.fades (World.startItem_fades h.ids (mapError_eq_ok.1 hstep))
  | result => exact h.fades (World.result_fades h.ids (mapError_eq_ok.1 hstep))
  | reject => exact h.workReject hstep
  | sweep => exact h.sweepWorkItems hstep
  | agentUnavailable => exact h.onAgentUnavailable hstep
  | budgetExceeded => exact h.onBudgetExceeded hstep

end Invariant

variable {C : World → Env → Label → Prop} {l : Label}

theorem Run.invariant (hC : P → ∀ w env l, C w env l → Supersedes cfg w env l) (h : Run cfg C w) :
    Invariant P cfg w := by
  induction h with
  | start => exact .start
  | step _ hl hstep ih => exact ih.step (fun hP ↦ hC hP _ _ _ hl) hstep

/-! ## The first reassignment that does not supersede -/

theorem not_follows_of_not_supersedes (h : Invariant True cfg w) (hstep : w.step cfg env l = .ok w')
    (hC : ¬ Supersedes cfg w env l) : ¬ Follows cfg w' := by
  intro hfollows
  cases l with
  | reassign actor key taskId assignee reason =>
    rw [Supersedes, not_or, not_exists] at hC
    obtain ⟨hreplay, hopen⟩ := hC
    obtain ⟨t, uuid, ht, huuid, hcases⟩ := World.reassignTask_ok h.ids hstep
    obtain rfl := h.named taskId t ht
    rcases hcases with ⟨hmem, -⟩ | ⟨-, hassigned⟩
    · exact hreplay t ⟨ht, hmem⟩
    · push Not at hopen
      obtain ⟨i, hi, hio, hsame⟩ := hopen
      obtain ⟨task, htask, -, hrev⟩ := h.current trivial i hi _ hio
      obtain rfl := some.inj (ht.symm.trans htask)
      obtain ⟨⟨t', htasks, -, -, hr', -⟩, -, -, new, hitems, -⟩ := hassigned
      have hkept : afterItem cfg uuid t.taskId i = i := by
        rw [afterItem]
        split
        · rfl
        · rename_i agentId hagent
          rw [World.superseded, if_neg]
          exact fun hne ↦ hne.2 (congrArg some (hsame uuid agentId huuid hagent))
      have hi' : i ∈ w'.items := by
        rw [hitems, ← hkept]
        exact mem_append_left _ (List.mem_map_of_mem hi)
      obtain ⟨task, htask, -, hrev'⟩ := hfollows.current i hi' _ hio
      rw [htasks, Function.update_self] at htask
      rw [← some.inj htask, hr', hrev] at hrev'
      exact absurd hrev' (Nat.succ_ne_self _).symm
  | _ => exact hC trivial

/-- **Assignment work follows the Task** as long as every reassignment that is made while an item of
the Task is open names an Agent other than the one that holds the item, and the first that does not
breaks the promise. The re-routings of a Task are rationed in every run. -/
theorem assignment_work_follows (cfg : Config) : (∀ w, Run cfg (Supersedes cfg) w → Follows cfg w ∧
      ∀ env l w', w.step cfg env l = .ok w' → (Follows cfg w' ↔ Supersedes cfg w env l)) ∧
    ∀ w, Run cfg (fun _ _ _ ↦ True) w → Rationed w := by
  constructor
  · intro w hw
    have hinvariant : Invariant True cfg w := hw.invariant fun _ _ _ _ hC ↦ hC
    refine ⟨hinvariant.follows trivial, fun env l w' hstep ↦ ⟨fun hfollows ↦ ?_, fun hC ↦ ?_⟩⟩
    · by_contra hC
      exact not_follows_of_not_supersedes hinvariant hstep hC hfollows
    · exact (hinvariant.step (fun _ ↦ hC) hstep).follows trivial
  · intro w hw
    have hinvariant : Invariant False cfg w := hw.invariant fun hP ↦ hP.elim
    exact hinvariant.rationed

/-! ## Runs of a small Workspace -/

/-- `Supersedes`, evaluated. -/
def supersedesIn (cfg : Config) (w : World) : Label → Bool
  | .reassign actor key taskId assignee _ =>
    ((w.tasks taskId).any fun t ↦ decide (World.reassignKey actor key ∈ t.commands)) ||
      w.items.all fun i ↦ !decide (i.OpenFor taskId) ||
        (cfg.accounts.lookup assignee).any fun uuid ↦
          (cfg.agentForAccount uuid).any fun agentId ↦ decide (agentId ≠ i.agentId)
  | _ => true

theorem supersedes_of_supersedesIn (h : supersedesIn cfg w l = true) : Supersedes cfg w env l := by
  cases l with
  | reassign =>
    rcases Bool.or_eq_true_iff.1 h with hreplay | hopen
    · obtain ⟨t, ht, hmem⟩ := (Option.any_eq_true _ _).1 hreplay
      exact .inl ⟨t, ht, of_decide_eq_true hmem⟩
    · refine .inr fun i hi hio ↦ ?_
      rcases Bool.or_eq_true_iff.1 (List.all_eq_true.1 hopen i hi) with hnot | hany
      · rw [decide_eq_true hio] at hnot
        cases hnot
      · obtain ⟨uuid, huuid, hany⟩ := (Option.any_eq_true _ _).1 hany
        obtain ⟨agentId, hagent, hne⟩ := (Option.any_eq_true _ _).1 hany
        exact ⟨uuid, agentId, huuid, hagent, of_decide_eq_true hne⟩
  | _ => exact trivial

/-- The state after these commands, each of which meets the check. -/
def World.runLabels (cfg : Config) (env : Env) (check : World → Label → Bool) (w : World) :
    List Label → Option World
  | [] => some w
  | l :: ls =>
    if check w l then
      match w.step cfg env l with
      | .ok w' => w'.runLabels cfg env check ls
      | .error _ => none
    else none

theorem run_of_runLabels {check : World → Label → Bool}
    (hcheck : ∀ w l, check w l = true → C w env l) {ls : List Label} (hw : Run cfg C w)
    (h : w.runLabels cfg env check ls = some w') : Run cfg C w' := by
  induction ls generalizing w with
  | nil =>
    obtain rfl := some.inj h
    exact hw
  | cons l ls ih =>
    rw [World.runLabels] at h
    split_ifs at h with hl
    split at h
    · rename_i w₁ hw₁
      exact ih (hw.step (hcheck w l hl) hw₁) h
    · cases h

namespace Sample

def config : Config where
  accounts := [("lead", "u-lead"), ("a", "u-a"), ("b", "u-b"), ("system", "u-system")]
  agents := [⟨"agent-a", "u-a", "a"⟩, ⟨"agent-b", "u-b", "b"⟩]
  system := some "u-system"
  agentIds := by decide
  agentAccounts := by decide
  joined := by decide

def environment : Env where
  now := 0
  refuse := fun _ _ ↦ none
  ranked := fun _ ↦ ["agent-a", "agent-b"]
  newWorkItemId := fun key ↦ "wi-" ++ key

/-- The Task is delegated to the first Agent, who gets its item. -/
def delegated : List Label :=
  [.createTask "task-1" none, .delegate "u-lead" "key-1" "task-1" "a" "DELEGATED",
    .deliver "wi-assign:task-1:1" "agent-a"]

/-- The Task is given to the other Agent, and the lead takes it over after its rejection. -/
def handedOver : List Label :=
  delegated ++ [.reassign "u-lead" "key-2" "task-1" "b" "REASSIGNED",
    .deliver "wi-assign:task-1:2" "agent-b", .reject "wi-assign:task-1:2" "agent-b" "CAPACITY",
    .reassign "u-lead" "key-3" "task-1" "lead" "REASSIGNED"]

/-- The lead takes the Task over, and the Agent rejects its old item. -/
def takenOver : List Label :=
  delegated ++ [.reassign "u-lead" "key-2" "task-1" "lead" "REASSIGNED",
    .reject "wi-assign:task-1:1" "agent-a" "CAPACITY"]

def again : List Label :=
  delegated ++ [.reassign "u-lead" "key-2" "task-1" "a" "REASSIGNED"]

/-- A re-routing for a stale item that has moved the Task. -/
def movedAway (r : Rerouted) : Bool :=
  r.trigger.any fun i ↦ decide (i.assignmentRevision < r.before.assignmentRevision) &&
    decide (r.after.assigneeAccountId ≠ r.before.assigneeAccountId)

end Sample

open Sample

/-- A Task that is handed over twice, the second time after its item has been rejected. -/
theorem assignment_work_follows_handedOver : ∃ w : World,
    Run config (Supersedes config) w ∧ w.history.length = 1 ∧ Follows config w ∧ Rationed w := by
  have hrun : (World.start.runLabels config environment (supersedesIn config)
      handedOver).any (fun w ↦ decide (w.history.length = 1)) = true := by
    decide
  obtain ⟨w, hw, hlength⟩ := (Option.any_eq_true _ _).1 hrun
  have hreached : Run config (Supersedes config) w :=
    run_of_runLabels (fun _ _ ↦ supersedes_of_supersedesIn) .start hw
  have hany : Run config (fun _ _ _ ↦ True) w := run_of_runLabels (fun _ _ _ ↦ trivial) .start hw
  exact ⟨w, hreached, of_decide_eq_true hlength, ((assignment_work_follows config).1 w hreached).1,
    (assignment_work_follows config).2 w hany⟩

/-- **Items that are left.** A person takes the Task over from an Agent, whose old item stays open,
and its rejection moves the Task away from the person; and an Agent that is assigned again holds two
open items. -/
theorem assignment_work_left : (∃ w, Run config (fun _ _ _ ↦ True) w ∧ ¬ Follows config w ∧
      ∃ r ∈ w.history, ∃ i, r.trigger = some i ∧
        i.assignmentRevision < r.before.assignmentRevision ∧
          r.after.assigneeAccountId ≠ r.before.assigneeAccountId) ∧
      ∃ w, Run config (fun _ _ _ ↦ True) w ∧ ¬ Follows config w ∧
        w.items.countP (fun i ↦ i.OpenFor "task-1") = 2 := by
  have htaken : (World.start.runLabels config environment (fun _ _ ↦ true)
      takenOver).any (fun w ↦ w.history.any movedAway) = true := by
    decide
  have hagain : (World.start.runLabels config environment (fun _ _ ↦ true)
      Sample.again).any (fun w ↦ decide (w.items.countP (fun i ↦ i.OpenFor "task-1") = 2)) =
        true := by
    decide
  constructor
  · obtain ⟨w, hw, hany⟩ := (Option.any_eq_true _ _).1 htaken
    obtain ⟨r, hr, hmoved⟩ := List.any_eq_true.1 hany
    obtain ⟨i, hi, hmoved⟩ := (Option.any_eq_true _ _).1 hmoved
    obtain ⟨hlt, hne⟩ := Bool.and_eq_true_iff.1 hmoved
    have hstale : i.assignmentRevision < r.before.assignmentRevision := of_decide_eq_true hlt
    have haway : r.after.assigneeAccountId ≠ r.before.assigneeAccountId := of_decide_eq_true hne
    exact ⟨w, run_of_runLabels (fun _ _ _ ↦ trivial) .start hw,
      fun hfollows ↦ haway (hfollows.stale r hr i hi hstale), r, hr, i, hi, hstale, haway⟩
  · obtain ⟨w, hw, hcount⟩ := (Option.any_eq_true _ _).1 hagain
    have htwo : w.items.countP (fun i ↦ i.OpenFor "task-1") = 2 := of_decide_eq_true hcount
    refine ⟨w, run_of_runLabels (fun _ _ _ ↦ trivial) .start hw, fun hfollows ↦ ?_, htwo⟩
    have hone := hfollows.single "task-1"
    rw [htwo] at hone
    exact absurd hone (by decide)

end AgentColab.Rerouting
