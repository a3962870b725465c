import AgentColab.Rerouting.Superseded

/-!
# Assignment work and the Task

The open item of a Task is about its current assignment as long as every reassignment supersedes the
item that is open. An automatic re-routing leaves a row whose reason is counted, so there is one of
a Task at most, and it names an account that no row of the Task names.
-/

namespace AgentColab.Rerouting

open List Option
open Except (ok)

open Tasks (CommandError TaskStatus EventType)
open Work (WorkItemError WorkItemState Action terminalStates assignmentKinds assignmentReroutes)
open Function (update_of_ne update_self)

variable {cfg : Config} {env : Env} {w w' w₁ : World} {t t' : Task} {i j : WorkItem}
  {taskId uuid reason actor : String} {P : Prop}

/-! ## The invariant -/

/-- The automatic re-routings of a Task. -/
def World.moves (w : World) (taskId : String) : ℕ :=
  w.history.countP fun r ↦ r.before.taskId = taskId ∧ r.Reassigned

/-- The item is about the current assignment of its Task. -/
def WorkItem.Current (i : WorkItem) (w : World) : Prop :=
  ∀ task, i.taskId.bind w.tasks = some task → i.assignmentRevision = task.assignmentRevision

/-- What every run keeps; under the premise, what is kept while every reassignment supersedes. -/
structure Invariant (P : Prop) (cfg : Config) (w : World) : Prop where
  named : ∀ id task, w.tasks id = some task → task.taskId = id
  opened : ∀ id task, w.tasks id = some task → task.status = .open' → task.assigneeAccountId = none
  ids : (w.items.map WorkItem.workItemId).Nodup
  keys : (w.items.map WorkItem.idempotencyKey).Nodup
  keyed : ∀ i ∈ w.items, ∃ id, i.Assigns id ∧
    i.idempotencyKey = World.assignKey id i.assignmentRevision
  rationed : Rationed w
  counted : ∀ id, w.rerouteCount id = 0 → w.moves id = 0
  current : P → ∀ i ∈ w.items, ∀ id, i.OpenFor id → ∃ task, w.tasks id = some task ∧
    task.assigneeAccountId.bind cfg.agentForAccount = some i.agentId ∧
      i.assignmentRevision = task.assignmentRevision
  timely : P → ∀ r ∈ w.history, ∀ i, r.trigger = some i →
    i.assignmentRevision = r.before.assignmentRevision

theorem length_le_one {α : Type} {l : List α} (hnodup : l.Nodup)
    (hone : ∀ a ∈ l, ∀ b ∈ l, a = b) : l.length ≤ 1 := by
  match l with
  | [] => exact Nat.zero_le 1
  | [_] => exact Nat.le_refl 1
  | a :: b :: l =>
    have hab : a = b := hone a mem_cons_self b (mem_cons_of_mem _ mem_cons_self)
    exact absurd (hab ▸ mem_cons_self) (nodup_cons.1 hnodup).1

theorem setTask_tasks (w : World) (t : Task) :
    (w.setTask t).tasks = Function.update w.tasks t.taskId (some t) := rfl

namespace Invariant

theorem start : Invariant P cfg World.start where
  named := fun _ _ h ↦ nomatch h
  opened := fun _ _ h ↦ nomatch h
  ids := nodup_nil
  keys := nodup_nil
  keyed := forall_mem_nil _
  rationed := ⟨fun _ ↦ Nat.zero_le _, forall_mem_nil _⟩
  counted := fun _ _ ↦ rfl
  current := fun _ ↦ forall_mem_nil _
  timely := fun _ ↦ forall_mem_nil _

theorem openFor_eq {id id' : String} (h : i.Assigns id) (h' : i.OpenFor id') : id = id' :=
  some.inj (h.1.symm.trans h'.2.1)

theorem openFor_unique (h : Invariant P cfg w) (hP : P) (hi : i ∈ w.items) (hj : j ∈ w.items)
    (hio : i.OpenFor taskId) (hjo : j.OpenFor taskId) : i = j := by
  obtain ⟨task, htask, -, hrev⟩ := h.current hP i hi taskId hio
  obtain ⟨task', htask', -, hrev'⟩ := h.current hP j hj taskId hjo
  obtain rfl := some.inj (htask.symm.trans htask')
  obtain ⟨id, hid, hkey⟩ := h.keyed i hi
  obtain ⟨id', hid', hkey'⟩ := h.keyed j hj
  obtain rfl := openFor_eq hid hio
  obtain rfl := openFor_eq hid' hjo
  refine inj_on_of_nodup_map h.keys hi hj ?_
  rw [hkey, hkey', hrev, hrev']

theorem single (h : Invariant P cfg w) (hP : P) (taskId : String) :
    w.items.countP (fun i ↦ i.OpenFor taskId) ≤ 1 := by
  rw [countP_eq_length_filter]
  have hnodup := (h.ids.of_map).filter fun i ↦ decide (i.OpenFor taskId)
  have hone : ∀ i ∈ w.items.filter fun i ↦ decide (i.OpenFor taskId),
      ∀ j ∈ w.items.filter fun i ↦ decide (i.OpenFor taskId), i = j := by
    intro i hi j hj
    obtain ⟨hi, hio⟩ := mem_filter.1 hi
    obtain ⟨hj, hjo⟩ := mem_filter.1 hj
    exact h.openFor_unique hP hi hj (of_decide_eq_true hio) (of_decide_eq_true hjo)
  exact length_le_one hnodup hone

theorem follows (h : Invariant P cfg w) (hP : P) : Follows cfg w where
  current := h.current hP
  single := h.single hP
  stale := fun r hr i hi hlt ↦ absurd hlt (h.timely hP r hr i hi).not_lt

/-! ## What keeps it -/

theorem fades (h : Invariant P cfg w) (hfades : Fades w w') : Invariant P cfg w' := by
  obtain ⟨g, rfl, hg⟩ := hfades
  have hmap : ∀ {β : Type} (f : WorkItem → β), (∀ i ∈ w.items, f (g i) = f i) →
      (w.items.map g).map f = w.items.map f := by
    intro β f hf
    rw [List.map_map]
    exact map_congr_left hf
  constructor
  case named => exact h.named
  case opened => exact h.opened
  case rationed => exact ⟨h.rationed.once, h.rationed.fresh⟩
  case counted => exact h.counted
  case timely => exact h.timely
  case ids =>
    dsimp only
    rw [hmap _ fun i hi ↦ (hg i hi).workItemId]
    exact h.ids
  case keys =>
    dsimp only
    rw [hmap _ fun i hi ↦ (hg i hi).idempotencyKey]
    exact h.keys
  case keyed =>
    intro i hi
    obtain ⟨j, hj, rfl⟩ := List.mem_map.1 hi
    obtain ⟨id, hid, hkey⟩ := h.keyed j hj
    refine ⟨id, (hg j hj).assigns.2 hid, ?_⟩
    rw [(hg j hj).idempotencyKey, (hg j hj).assignmentRevision]
    exact hkey
  case current =>
    intro hP i hi id hio
    obtain ⟨j, hj, rfl⟩ := List.mem_map.1 hi
    obtain ⟨task, htask, hagent, hrev⟩ := h.current hP j hj id ((hg j hj).openFor hio)
    refine ⟨task, htask, ?_, ?_⟩
    · rw [(hg j hj).agentId]
      exact hagent
    · rw [(hg j hj).assignmentRevision]
      exact hrev

theorem setTask (h : Invariant P cfg w) (ht : w.tasks t'.taskId = some t)
    (ha : t'.assigneeAccountId = t.assigneeAccountId)
    (hr : t'.assignmentRevision = t.assignmentRevision) (hopen : t'.status ≠ .open') :
    Invariant P cfg (w.setTask t') := by
  refine { h with
    named := ?_, opened := ?_, current := ?_, rationed := ⟨h.rationed.once, h.rationed.fresh⟩ }
  · intro id task htask
    by_cases hid : id = t'.taskId
    · subst hid
      rw [setTask_tasks, update_self] at htask
      rw [← some.inj htask]
    · rw [setTask_tasks, update_of_ne hid] at htask
      exact h.named id task htask
  · intro id task htask
    by_cases hid : id = t'.taskId
    · subst hid
      rw [setTask_tasks, update_self] at htask
      obtain rfl := some.inj htask
      exact fun h ↦ absurd h hopen
    · rw [setTask_tasks, update_of_ne hid] at htask
      exact h.opened id task htask
  · intro hP i hi id hio
    obtain ⟨task, htask, hagent, hrev⟩ := h.current hP i hi id hio
    by_cases hid : id = t'.taskId
    · subst hid
      obtain rfl := some.inj (ht.symm.trans htask)
      refine ⟨t', by rw [setTask_tasks, update_self], ?_, hrev.trans hr.symm⟩
      rw [ha]
      exact hagent
    · exact ⟨task, by rw [setTask_tasks, update_of_ne hid, htask], hagent, hrev⟩

theorem assigned (h : Invariant P cfg w) (hsup : P → ∀ i ∈ w.items, i.OpenFor t.taskId → ∃ agentId,
      cfg.agentForAccount uuid = some agentId ∧ agentId ≠ i.agentId)
    (hassigned : Assigned cfg w t uuid reason w') : Invariant P cfg w' := by
  obtain ⟨⟨t', htasks, hid', ha', hr', hopen⟩, ⟨row, hrow, -, -⟩, hhistory, new, hitems, hnew⟩ :=
    hassigned
  have hlater : ∀ i : WorkItem, i.Later (afterItem cfg uuid t.taskId i) :=
    later_afterItem cfg uuid t.taskId
  have hmap : ∀ {β : Type} (f : WorkItem → β), (∀ i, f (afterItem cfg uuid t.taskId i) = f i) →
      w'.items.map f = w.items.map f ++ new.toList.map f := by
    intro β f hf
    rw [hitems, map_append, List.map_map]
    congr 1
    exact map_congr_left fun i _ ↦ hf i
  have hmem : ∀ i ∈ w'.items, (∃ j ∈ w.items, i = afterItem cfg uuid t.taskId j) ∨
      Queued cfg w t uuid i := by
    intro i hi
    rw [hitems] at hi
    rcases mem_append.1 hi with hi | hi
    · obtain ⟨j, hj, rfl⟩ := List.mem_map.1 hi
      exact .inl ⟨j, hj, rfl⟩
    · exact .inr (hnew i (Option.mem_toList.1 hi))
  constructor
  case named =>
    intro id task htask
    rw [htasks] at htask
    by_cases hid : id = t.taskId
    · subst hid
      rw [update_self] at htask
      rw [← some.inj htask, hid']
    · rw [update_of_ne hid] at htask
      exact h.named id task htask
  case opened =>
    intro id task htask
    rw [htasks] at htask
    by_cases hid : id = t.taskId
    · subst hid
      rw [update_self] at htask
      obtain rfl := some.inj htask
      exact fun h ↦ absurd h hopen
    · rw [update_of_ne hid] at htask
      exact h.opened id task htask
  case ids =>
    rw [hmap _ fun i ↦ (hlater i).workItemId]
    refine nodup_append.2 ⟨h.ids, ?_, ?_⟩
    · cases new <;> simp
    · intro a ha b hb
      obtain ⟨i, hi, rfl⟩ := List.mem_map.1 ha
      obtain ⟨n, hn, rfl⟩ := List.mem_map.1 hb
      exact (hnew n (Option.mem_toList.1 hn)).freshId i hi
  case keys =>
    rw [hmap _ fun i ↦ (hlater i).idempotencyKey]
    refine nodup_append.2 ⟨h.keys, ?_, ?_⟩
    · cases new <;> simp
    · intro a ha b hb
      obtain ⟨i, hi, rfl⟩ := List.mem_map.1 ha
      obtain ⟨n, hn, rfl⟩ := List.mem_map.1 hb
      exact (hnew n (Option.mem_toList.1 hn)).freshKey i hi
  case keyed =>
    intro i hi
    rcases hmem i hi with ⟨j, hj, rfl⟩ | hq
    · obtain ⟨id, hid, hkey⟩ := h.keyed j hj
      refine ⟨id, (hlater j).assigns.2 hid, ?_⟩
      rw [(hlater j).idempotencyKey, (hlater j).assignmentRevision]
      exact hkey
    · exact ⟨t.taskId, hq.assigns, hq.key⟩
  case rationed =>
    refine ⟨fun id ↦ ?_, fun r hr ↦ ?_⟩
    · rw [hhistory]
      exact h.rationed.once id
    · rw [hhistory] at hr
      exact h.rationed.fresh r hr
  case counted =>
    intro id hcount
    rw [World.moves, hhistory]
    refine h.counted id ?_
    rw [World.rerouteCount, hrow, countP_append] at hcount
    exact (Nat.add_eq_zero_iff.1 hcount).1
  case current =>
    intro hP i hi id hio
    rw [htasks]
    rcases hmem i hi with ⟨j, hj, rfl⟩ | hq
    · by_cases hid : id = t.taskId
      · -- the open item has been superseded
        subst hid
        obtain ⟨agentId, hagent, hne⟩ := hsup hP j hj ((hlater j).openFor hio)
        exact absurd hio (not_openFor_afterItem hagent hne)
      · obtain ⟨task, htask, hagent, hrev⟩ := h.current hP j hj id ((hlater j).openFor hio)
        refine ⟨task, by rw [update_of_ne hid, htask], ?_, ?_⟩
        · rw [(hlater j).agentId]
          exact hagent
        · rw [(hlater j).assignmentRevision]
          exact hrev
    · obtain rfl := openFor_eq hq.assigns hio
      refine ⟨t', update_self .., ?_, hq.revision.trans hr'.symm⟩
      rw [ha']
      exact hq.agent
  case timely =>
    intro hP r hr
    rw [hhistory] at hr
    exact h.timely hP r hr

theorem record (h : Invariant P cfg w) {trigger : Option WorkItem} {earlier : List String}
    (htrigger : P → ∀ i, trigger = some i → i.assignmentRevision = t.assignmentRevision)
    (hmove : ((w.tasks t.taskId).getD t).assignmentRevision ≠ t.assignmentRevision →
      w.moves t.taskId = 0 ∧ w.rerouteCount t.taskId ≠ 0 ∧
        ∀ a, ((w.tasks t.taskId).getD t).assigneeAccountId = some a →
          a ∉ earlier ∧ t.assigneeAccountId ≠ some a) :
    Invariant P cfg (w.record trigger earlier t) := by
  have hmoves : ∀ id, (w.record trigger earlier t).moves id = w.moves id +
      if t.taskId = id ∧ ((w.tasks t.taskId).getD t).assignmentRevision ≠ t.assignmentRevision
        then 1 else 0 := by
    intro id
    rw [World.moves, World.record, countP_append, countP_singleton]
    exact congrArg _ (if_congr decide_eq_true_iff rfl rfl)
  refine { h with rationed := ⟨fun id ↦ ?_, ?_⟩, counted := ?_, timely := ?_ }
  · change (w.record trigger earlier t).moves id ≤ _
    rw [hmoves]
    split_ifs with hid
    · obtain ⟨rfl, hne⟩ := hid
      rw [(hmove hne).1]
      exact Nat.le_refl 1
    · exact h.rationed.once id
  · intro r hr hre a ha
    rcases mem_append.1 hr with hr | hr
    · exact h.rationed.fresh r hr hre a ha
    · obtain rfl := mem_singleton.1 hr
      exact (hmove hre).2.2 a ha
  · intro id hcount
    rw [hmoves]
    split_ifs with hid
    · obtain ⟨rfl, hne⟩ := hid
      exact absurd hcount (hmove hne).2.1
    · exact h.counted id hcount
  · intro hP r hr i hi
    rcases mem_append.1 hr with hr | hr
    · exact h.timely hP r hr i hi
    · obtain rfl := mem_singleton.1 hr
      exact htrigger hP i hi

end Invariant

/-! ## Re-routing -/

namespace Config

theorem agentForAccount_ok {agentId : String} (h : cfg.agentForAccount uuid = some agentId) :
    ∃ a ∈ cfg.agents, a.accountUuid = uuid ∧ a.agentId = agentId := by
  obtain ⟨a, ha, rfl⟩ := map_eq_some_iff.1 h
  exact ⟨a, mem_of_find?_eq_some ha, by simpa using List.find?_some ha, rfl⟩

variable {a : Agent}

theorem agentForAccount_of_mem (h : a ∈ cfg.agents) :
    cfg.agentForAccount a.accountUuid = some a.agentId := by
  rw [agentForAccount, find_of_nodup cfg.agentAccounts h]
  rfl

theorem agentForAccount_inj (h : a ∈ cfg.agents)
    (huuid : cfg.agentForAccount uuid = some a.agentId) : a.accountUuid = uuid := by
  obtain ⟨b, hb, rfl, hid⟩ := agentForAccount_ok huuid
  rw [inj_on_of_nodup_map cfg.agentIds hb h hid]

end Config

/-- What a command about one Task leaves as it is: the items and the state of the others. -/
structure Frame (taskId : String) (w w' : World) : Prop where
  items : ∀ i ∈ w.items, ¬ i.Assigns taskId → i ∈ w'.items
  tasks : ∀ id ≠ taskId, w'.tasks id = w.tasks id

namespace World

theorem load_ok (h : w.load taskId = .ok t) : w.tasks taskId = some t := by
  rw [load] at h
  split at h
  · rename_i htask
    rw [htask, ok.inj h]
  · cases h

theorem accountUuid_ok {accountId : String} (h : accountUuid cfg accountId = .ok uuid) :
    cfg.accounts.lookup accountId = some uuid := by
  rw [accountUuid] at h
  split at h
  · rename_i huuid
    rw [huuid, ok.inj h]
  · cases h

def reassignKey (actor key : String) : CommandKey := ⟨"task:reassign", key, actor⟩

theorem reassignTask_ok (hids : (w.items.map WorkItem.workItemId).Nodup) {key assignee : String}
    (h : w.reassignTask cfg env actor key taskId assignee reason = .ok w') :
    ∃ t uuid, w.tasks taskId = some t ∧ cfg.accounts.lookup assignee = some uuid ∧
      (reassignKey actor key ∈ t.commands ∧ w' = w ∨
        reassignKey actor key ∉ t.commands ∧ Assigned cfg w t uuid reason w') := by
  rw [reassignTask] at h
  obtain ⟨t, ht, h⟩ := bind_eq_ok.1 h
  obtain ⟨-, -, h⟩ := bind_eq_ok.1 h
  obtain ⟨uuid, huuid, h⟩ := bind_eq_ok.1 h
  refine ⟨t, uuid, load_ok ht, accountUuid_ok huuid, ?_⟩
  dsimp only at h
  split_ifs at h with hreplay
  · exact .inl ⟨hreplay, (ok.inj h).symm⟩
  · exact .inr ⟨hreplay, (assign_ok hids h).1⟩

theorem plainCommand_ok {c : CommandKey} {etype : EventType}
    (h : w.plainCommand env c taskId etype = .ok w') : w' = w ∨
      ∃ t t', w.tasks taskId = some t ∧ w' = w.setTask t' ∧ t'.taskId = t.taskId ∧
        t'.assigneeAccountId = t.assigneeAccountId ∧
          t'.assignmentRevision = t.assignmentRevision ∧ t'.status ≠ .open' := by
  rw [plainCommand] at h
  obtain ⟨t, ht, h⟩ := bind_eq_ok.1 h
  obtain ⟨-, -, h⟩ := bind_eq_ok.1 h
  split_ifs at h
  · exact .inl (ok.inj h).symm
  · obtain ⟨p, hp, h⟩ := bind_eq_ok.1 h
    obtain ⟨status, rfl, hopen, -⟩ := transition_ok hp
    exact .inr ⟨t, _, load_ok ht, (ok.inj h).symm, rfl, rfl, rfl, hopen⟩

theorem rerouteCandidate_ok {a : Agent} (h : w.rerouteCandidate cfg env t = some a) :
    w.rerouteCount t.taskId = 0 ∧ a ∈ cfg.agents ∧ a.accountUuid ∉ w.previousAssignees t.taskId ∧
        t.assigneeAccountId ≠ some a.accountUuid := by
  rw [rerouteCandidate] at h
  split_ifs at h with hcount
  have hmem := mem_of_mem_head? h
  obtain ⟨hmem, hexcluded⟩ := mem_filter.1 hmem
  obtain ⟨id, -, hfind⟩ := mem_filterMap.1 hmem
  have hnot := (of_decide_eq_true hexcluded).1
  rw [mem_append, not_or] at hnot
  refine ⟨Nat.lt_one_iff.1 hcount, mem_of_find?_eq_some hfind, hnot.1, fun heq ↦ hnot.2 ?_⟩
  rw [heq]
  exact mem_singleton_self _

end World

theorem Assigned.frame (h : Assigned cfg w t uuid reason w') : Frame t.taskId w w' := by
  obtain ⟨⟨t', htasks, -⟩, -, -, new, hitems, -⟩ := h
  constructor
  · intro i hi hassigns
    rw [hitems, ← afterItem_of_not_assigns hassigns]
    exact mem_append_left _ (List.mem_map_of_mem hi)
  · intro id hid
    rw [htasks, update_of_ne hid]

theorem Frame.refl (taskId : String) (w : World) : Frame taskId w w :=
  ⟨fun _ hi _ ↦ hi, fun _ _ ↦ rfl⟩

theorem Frame.trans (h : Frame taskId w w₁) (h' : Frame taskId w₁ w') : Frame taskId w w' where
  items := fun i hi hassigns ↦ h'.items i (h.items i hi hassigns) hassigns
  tasks := fun id hid ↦ (h'.tasks id hid).trans (h.tasks id hid)

theorem likeReroute_prefix (reason : String) : likeReroute (reroutePrefix ++ reason) = true := by
  have hlist : (reroutePrefix ++ reason).toList = "REROUTE".toList ++ '_' :: reason.toList := by
    rw [String.toList_append]
    rfl
  rw [likeReroute, hlist, Bool.and_eq_true, isPrefixOf_iff_prefix, decide_eq_true_iff]
  refine ⟨prefix_append _ _, ?_⟩
  rw [length_append]
  exact Nat.lt_of_lt_of_le (by decide) (Nat.add_le_add_left (Nat.succ_pos _) _)

theorem Assigned.rerouteCount_ne_zero (h : Assigned cfg w t uuid (reroutePrefix ++ reason) w') :
    w'.rerouteCount t.taskId ≠ 0 := by
  obtain ⟨-, ⟨row, hrow, hid, hreason⟩, -⟩ := h
  rw [World.rerouteCount, hrow, countP_append, countP_singleton,
    if_pos (by rw [hid, hreason, likeReroute_prefix]; simp)]
  exact Nat.succ_ne_zero _

namespace Invariant

theorem plainCommand (h : Invariant P cfg w) {c : CommandKey} {etype : EventType}
    (hcommand : w.plainCommand env c taskId etype = .ok w') : Invariant P cfg w' ∧
      Frame taskId w w' ∧ w'.history = w.history ∧
        ∀ t, w.tasks taskId = some t → ∃ t', w'.tasks taskId = some t' ∧
          t'.assignmentRevision = t.assignmentRevision := by
  rcases World.plainCommand_ok hcommand with rfl | ⟨t, t', ht, rfl, hid, ha, hr, hopen⟩
  · exact ⟨h, .refl taskId _, rfl, fun t ht ↦ ⟨t, ht, rfl⟩⟩
  · have htid : t'.taskId = taskId := hid.trans (h.named taskId t ht)
    subst htid
    refine ⟨h.setTask ht ha hr hopen, ⟨fun i hi _ ↦ hi, fun id hne ↦ ?_⟩, rfl,
      fun u hu ↦ ⟨t', ?_, ?_⟩⟩
    · rw [setTask_tasks, update_of_ne hne]
    · rw [setTask_tasks, update_self]
    · rw [hr, some.inj (ht.symm.trans hu)]

theorem cancelOpenAssignments (h : Invariant P cfg w) (taskId : String)
    (keepAgentId : Option String) : Invariant P cfg (w.cancelOpenAssignments taskId keepAgentId) ∧
      Frame taskId w (w.cancelOpenAssignments taskId keepAgentId) := by
  rw [World.cancelOpenAssignments_eq h.ids]
  refine ⟨h.fades ⟨_, rfl, fun i _ ↦ World.later_superseded _ _ i⟩, ⟨fun i hi hassigns ↦ ?_,
    fun _ _ ↦ rfl⟩⟩
  refine List.mem_map.2 ⟨i, hi, ?_⟩
  rw [World.superseded, if_neg fun hi ↦ hassigns hi.1.2]

theorem waitForCandidate (h : Invariant P cfg w) (ht : w.tasks t.taskId = some t)
    (hwait : w.waitForCandidate env actor t = .ok w') : Invariant P cfg w' ∧
      Frame t.taskId w w' ∧ w'.history = w.history ∧ ∃ t', w'.tasks t.taskId = some t' ∧
        t'.assignmentRevision = t.assignmentRevision := by
  obtain ⟨hcancelled, hframe⟩ := h.cancelOpenAssignments t.taskId none
  have hsame := World.cancelOpenAssignments_eq h.ids t.taskId none
  rw [World.waitForCandidate] at hwait
  split_ifs at hwait
  · obtain rfl := ok.inj hwait
    refine ⟨hcancelled, hframe, ?_, t, ?_, rfl⟩
    · rw [hsame]
    · rw [hsame]
      exact ht
  · obtain ⟨hw', hframe', hhistory, htasks⟩ := hcancelled.plainCommand hwait
    refine ⟨hw', hframe.trans hframe', ?_, htasks t ?_⟩
    · rw [hhistory, hsame]
    · rw [hsame]
      exact ht

/-- **Re-routing a Task.** The item that is the cause is the current one, under the premise. -/
theorem rerouteTask (h : Invariant P cfg w) {trigger : Option WorkItem}
    (htrigger : P → ∀ i, trigger = some i → ∀ t, w.tasks taskId = some t →
      i.assignmentRevision = t.assignmentRevision)
    (hreroute : w.rerouteTask cfg env actor taskId reason trigger = .ok w') :
    Invariant P cfg w' ∧ Frame taskId w w' := by
  rw [World.rerouteTask] at hreroute
  split_ifs at hreroute
  obtain ⟨t, ht, hreroute⟩ := bind_eq_ok.1 hreroute
  have ht := World.load_ok ht
  obtain rfl := h.named taskId t ht
  split_ifs at hreroute
  case neg =>
    obtain rfl := ok.inj hreroute
    exact ⟨h, .refl _ _⟩
  obtain ⟨w₁, hw₁, hreroute⟩ := bind_eq_ok.1 hreroute
  obtain rfl := ok.inj hreroute
  have htrigger' : P → ∀ i, trigger = some i → i.assignmentRevision = t.assignmentRevision :=
    fun hP i hi ↦ htrigger hP i hi t ht
  -- a Task that keeps its assignment has not been re-routed
  have hkept : ∀ {t' : Task}, w₁.tasks t.taskId = some t' →
      t'.assignmentRevision = t.assignmentRevision →
        ((w₁.tasks t.taskId).getD t).assignmentRevision = t.assignmentRevision := by
    intro t' ht' hr
    rw [ht', getD_some, hr]
  rw [World.rerouteTo] at hw₁
  split at hw₁
  · rename_i a hcandidate
    obtain ⟨hcount, ha, hearlier, hcurrent⟩ := World.rerouteCandidate_ok hcandidate
    obtain ⟨u, uuid, hu, huuid, hcases⟩ := World.reassignTask_ok h.ids hw₁
    obtain rfl := some.inj (ht.symm.trans hu)
    obtain rfl := some.inj ((cfg.joined a ha).symm.trans huuid)
    rcases hcases with ⟨-, rfl⟩ | ⟨-, hassigned⟩
    · exact ⟨h.record htrigger' fun hne ↦ absurd (hkept ht rfl) hne,
        (Frame.refl _ _).items, (Frame.refl _ _).tasks⟩
    · have hw := h.assigned (fun hP i hi hio ↦ ?_) hassigned
      · refine ⟨hw.record htrigger' fun _ ↦ ?_, hassigned.frame.items, hassigned.frame.tasks⟩
        obtain ⟨t', htasks, -, ha', -, -⟩ := hassigned.task
        refine ⟨?_, hassigned.rerouteCount_ne_zero, fun x hx ↦ ?_⟩
        · rw [World.moves, hassigned.history]
          exact h.counted _ hcount
        · rw [htasks, update_self, getD_some, ha'] at hx
          obtain rfl := some.inj hx
          exact ⟨hearlier, hcurrent⟩
      · -- the candidate is not the Agent of the current assignee
        obtain ⟨task, htask, hagent, -⟩ := h.current hP i hi _ hio
        obtain rfl := some.inj (ht.symm.trans htask)
        obtain ⟨x, hx, hxagent⟩ := bind_eq_some_iff.1 hagent
        refine ⟨a.agentId, cfg.agentForAccount_of_mem ha, fun heq ↦ hcurrent ?_⟩
        rw [hx, Config.agentForAccount_inj ha (heq ▸ hxagent)]
  · obtain ⟨hw, hframe, -, t', ht', hr⟩ := h.waitForCandidate ht hw₁
    exact ⟨hw.record htrigger' fun hne ↦ absurd (hkept ht' hr) hne, hframe.items, hframe.tasks⟩

end Invariant

end AgentColab.Rerouting
