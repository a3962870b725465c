import AgentColab.Agents.Limits

/-!
# Limits of overlapping requests

Others commit between the reading of the clock, the check and the commit of a request, and a check
sees what is committed. So it passes although requests that have passed and not committed use up
the limit, and a request that is rolled back is not counted.
-/

namespace AgentColab.Agents

open AgentColab List Option

/-! ## Runs -/

/-- The requests of one Agent: those in `running` have passed the check and not committed;
`admitted` records all that passed, `finished` those that are over. -/
structure World where
  db : Db := {}
  now : Time := 0
  started : List Request := []
  running : List Request := []
  admitted : List Request := []
  finished : List Request := []

inductive Label where
  | tick (d : ℕ)
  /-- A request begins and reads the clock; an acceptance has loaded its Task. -/
  | start (kind : Kind) (taskId : Option String)
  | check (i : ℕ) (usage : Usage)
  | commit (i : ℕ)
  /-- The command of a request that has passed fails. -/
  | fail (i : ℕ)
  /-- Another command of a Task, or the re-routing of one whose costs have reached a limit. It does
  not make the Task occupy the Agent. -/
  | move (row : TaskRow)

def TaskRow.move (agent : Agent) (row t : TaskRow) : TaskRow :=
  if t.taskId = row.taskId ∧ (agent.Occupied row → agent.Occupied t) then
    { row with lastAggregateSeq := t.lastAggregateSeq + 1 }
  else t

def Db.move (agent : Agent) (row : TaskRow) (db : Db) : Db :=
  { db with
    tasks := db.tasks.map (TaskRow.move agent row)
    taskIds := by
      have hids : (fun t : TaskRow ↦ t.taskId) ∘ TaskRow.move agent row = (·.taskId) :=
        funext fun t ↦ by
          rw [Function.comp_apply, TaskRow.move]
          split
          · rename_i h
            exact h.1.symm
          · rfl
      rw [List.map_map, hids]
      exact db.taskIds }

/-- The request that a start makes, if it gets as far as the limits. -/
def World.request (agent : Agent) (w : World) (kind : Kind) (taskId : Option String) :
    Option Request :=
  match kind, taskId with
  | .taskAccept, some t => (w.db.acceptable agent t).map fun seq ↦ ⟨kind, w.now, taskId, seq⟩
  | .taskAccept, none => none
  | _, _ => some ⟨kind, w.now, taskId, 0⟩

def World.step (agent : Agent) (w : World) : Label → World
  | .tick d => { w with now := w.now + d }
  | .start kind taskId =>
    { w with started := w.started ++ (w.request agent kind taskId).toList }
  | .check i usage =>
    match w.started[i]? with
    | none => w
    | some r =>
      match w.db.refusal agent r.kind r.now r.taskId usage with
      | some c => { w with
          db := { w.db with audits := w.db.audits ++ [(agent.agentId, c)] }
          started := w.started.eraseIdx i }
      | none => { w with
          started := w.started.eraseIdx i
          running := w.running ++ [r]
          admitted := w.admitted ++ [r] }
  | .commit i =>
    match w.running[i]? with
    | none => w
    | some r => { w with
        db := (w.db.write agent r).getD w.db
        running := w.running.eraseIdx i
        finished := w.finished ++ [r] }
  | .fail i => { w with
      running := w.running.eraseIdx i
      finished := w.finished ++ (w.running[i]?).toList }
  | .move row => { w with db := w.db.move agent row }

/-- The worlds that are reached by steps that satisfy `C`. -/
inductive Reached (agent : Agent) (C : World → Label → Prop) (w₀ : World) : World → Prop
  | refl : Reached agent C w₀ w₀
  | step {w : World} (l : Label) (hw : Reached agent C w₀ w) (hl : C w l) :
      Reached agent C w₀ (w.step agent l)

/-! ## What should hold -/

/-- The number of requests in the minute that begins at a time. -/
def inMinute (m : Time) (rs : List Request) : ℕ := rs.countP fun r ↦ minuteOf r.now = m

def accepts (rs : List Request) : ℕ := rs.countP fun r ↦ r.kind = .taskAccept

/-- The Agent has at most so many Tasks and requests in a minute, and the row of a minute of the
last hour counts the requests that have passed and are over. -/
structure World.Limited (agent : Agent) (w : World) : Prop where
  tasks : ∀ n, agent.limits.concurrentTasks = some n → w.db.concurrentTasks agent ≤ n
  requests : ∀ n, agent.limits.requestsPerMinute = some n → ∀ m, inMinute m w.admitted ≤ n
  counted : ∀ n, agent.limits.requestsPerMinute = some n → ∀ m, minuteOf w.now ≤ m + hour →
    (w.db.windows agent.agentId m).getD 0 = inMinute m w.finished

/-- A request that passes finds room beside those that have passed and not committed: in its
minute, of which the count is still there, and among the Tasks. -/
structure World.Room (agent : Agent) (w : World) (r : Request) : Prop where
  minute : ∀ n, agent.limits.requestsPerMinute = some n →
    w.db.rateWindowCount agent.agentId r.now + inMinute (minuteOf r.now) w.running < n
  recent : minuteOf w.now ≤ minuteOf r.now + hour
  tasks : r.kind = .taskAccept → ∀ n, agent.limits.concurrentTasks = some n →
    w.db.concurrentTasks agent + accepts w.running < n

/-- The step does not reach what the check misses. -/
def Meets (agent : Agent) (w : World) : Label → Prop
  | .check i usage => ∀ r ∈ w.started[i]?,
    w.db.refusal agent r.kind r.now r.taskId usage = none → w.Room agent r
  | .commit i => ∀ r ∈ w.running[i]?, (w.db.write agent r).isSome
  | .fail i => w.running[i]? = none
  | _ => True

/-- No request has been made, and the Agent has no more Tasks than it may. -/
structure World.Fresh (agent : Agent) (w : World) : Prop where
  started : w.started = []
  running : w.running = []
  admitted : w.admitted = []
  finished : w.finished = []
  windows : ∀ m, w.db.windows agent.agentId m = none
  tasks : ∀ n, agent.limits.concurrentTasks = some n → w.db.concurrentTasks agent ≤ n

/-! ## What holds in every state -/

section

variable {agent : Agent}

/-- The records add up, and the requests that are running have their room. -/
structure World.Sound (agent : Agent) (w : World) : Prop where
  started : ∀ r ∈ w.started, r.now ≤ w.now
  running : ∀ r ∈ w.running, r.now ≤ w.now
  all : ∀ m, inMinute m w.admitted = inMinute m w.finished + inMinute m w.running
  counted : ∀ n, agent.limits.requestsPerMinute = some n → ∀ m, minuteOf w.now ≤ m + hour →
    (w.db.windows agent.agentId m).getD 0 = inMinute m w.finished
  requests : ∀ n, agent.limits.requestsPerMinute = some n → ∀ m, inMinute m w.admitted ≤ n
  tasks : ∀ n, agent.limits.concurrentTasks = some n →
    w.db.concurrentTasks agent + accepts w.running ≤ n

theorem minuteOf_mono {a b : Time} (h : a ≤ b) : minuteOf a ≤ minuteOf b :=
  Int.mul_le_mul_of_nonneg_right (Int.ediv_le_ediv (by decide) h) (by decide)

@[simp] theorem inMinute_append (m : Time) (rs rs' : List Request) :
    inMinute m (rs ++ rs') = inMinute m rs + inMinute m rs' := countP_append

@[simp] theorem accepts_append (rs rs' : List Request) :
    accepts (rs ++ rs') = accepts rs + accepts rs' := countP_append

variable {rs : List Request} {i seq : ℕ} {r : Request} {db db' : Db} {taskId : String} {w : World}

theorem perm_eraseIdx (h : rs[i]? = some r) : rs.Perm (r :: rs.eraseIdx i) := by
  obtain ⟨hi, rfl⟩ := List.getElem?_eq_some_iff.1 h
  exact (getElem_cons_eraseIdx_perm hi).symm

theorem inMinute_eraseIdx (h : rs[i]? = some r) (m : Time) :
    inMinute m rs = inMinute m [r] + inMinute m (rs.eraseIdx i) :=
  ((perm_eraseIdx h).countP_eq _).trans (inMinute_append m [r] _)

theorem accepts_eraseIdx (h : rs[i]? = some r) :
    accepts rs = accepts [r] + accepts (rs.eraseIdx i) :=
  ((perm_eraseIdx h).countP_eq _).trans (accepts_append [r] _)

/-! ## Writing -/

theorem windows_countRequest {now m : Time} (h : minuteOf now ≤ m + hour) :
    ((db.countRequest agent.agentId now).windows agent.agentId m).getD 0 =
      (db.windows agent.agentId m).getD 0 + if m = minuteOf now then 1 else 0 := by
  have hkept : ¬m < minuteOf now - hour := not_lt.2 (Int.sub_right_le_of_le_add h)
  simp only [Db.countRequest, if_true, if_neg hkept]
  split <;> simp

theorem countP_map_le {p : TaskRow → Bool} {f : TaskRow → TaskRow} {tasks : List TaskRow}
    (hids : (tasks.map (·.taskId)).Nodup) (hf : ∀ t, t.taskId ≠ taskId → f t = t) :
    (tasks.map f).countP p ≤ tasks.countP p + 1 := by
  induction tasks with
  | nil => exact Nat.zero_le _
  | cons t tasks ih =>
    obtain ⟨hnew, hids⟩ := nodup_cons.1 hids
    rw [map_cons, countP_cons, countP_cons]
    by_cases ht : t.taskId = taskId
    · have hrest : tasks.map f = tasks := by
        refine (map_congr_left (g := id) fun u hu ↦ hf u fun hsame ↦ hnew ?_).trans
          (List.map_id tasks)
        exact List.mem_map.2 ⟨u, hu, hsame.trans ht.symm⟩
      rw [hrest]
      split <;> split <;> omega
    · rw [hf t ht]
      have := ih hids
      omega

theorem accept_eq_some (h : db.accept taskId seq = some db') :
    db'.windows = db.windows ∧ db'.tasks = db.tasks.map (TaskRow.accept taskId) := by
  rw [Db.accept] at h
  split at h
  · obtain rfl := some.inj h
    exact ⟨rfl, rfl⟩
  · cases h

theorem concurrentTasks_accept (h : db.accept taskId seq = some db') :
    db'.concurrentTasks agent ≤ db.concurrentTasks agent + 1 := by
  rw [Db.concurrentTasks, (accept_eq_some h).2]
  exact countP_map_le db.taskIds fun t ht ↦ by rw [TaskRow.accept, if_neg ht]

def Db.counts (db : Db) (agent : Agent) (r : Request) : Db :=
  if agent.limits.requestsPerMinute.isSome then db.countRequest agent.agentId r.now else db

theorem concurrentTasks_counts (db : Db) (r : Request) :
    (db.counts agent r).concurrentTasks agent = db.concurrentTasks agent := by
  rw [Db.counts]
  split <;> rfl

/-- What a request writes: its count, and a Task at most if it is an acceptance. -/
theorem write_eq_some (h : db.write agent r = some db') :
    db'.windows = (db.counts agent r).windows ∧
      db'.concurrentTasks agent ≤ db.concurrentTasks agent + accepts [r] := by
  rw [Db.write] at h
  split at h
  · rename_i taskId hkind _
    refine ⟨(accept_eq_some h).1, ?_⟩
    have hone : accepts [r] = 1 := by simp [accepts, hkind]
    rw [hone, ← concurrentTasks_counts db r]
    exact concurrentTasks_accept h
  · obtain rfl := some.inj h
    exact ⟨rfl, (concurrentTasks_counts db r).le.trans (Nat.le_add_right ..)⟩

theorem concurrentTasks_move (db : Db) (row : TaskRow) :
    (db.move agent row).concurrentTasks agent ≤ db.concurrentTasks agent := by
  rw [Db.concurrentTasks, Db.concurrentTasks, Db.move, countP_map]
  refine countP_mono_left fun t _ ht ↦ ?_
  simp only [Function.comp_apply, decide_eq_true_eq, TaskRow.move] at ht ⊢
  split at ht
  · rename_i h
    exact h.2 (of_decide_eq_true ht)
  · exact of_decide_eq_true ht

/-! ## Steps -/

theorem World.Sound.check (h : w.Sound agent) {usage : Usage}
    (hmeets : Meets agent w (.check i usage)) : (w.step agent (.check i usage)).Sound agent := by
  rw [World.step]
  split
  · exact h
  rename_i r hr
  have hstarted : ∀ q ∈ w.started.eraseIdx i, q.now ≤ w.now := fun q hq ↦
    h.started q (mem_of_mem_eraseIdx hq)
  split
  · exact ⟨hstarted, h.running, h.all, h.counted, h.requests, h.tasks⟩
  rename_i hpass
  have hroom := hmeets r hr hpass
  refine ⟨hstarted, forall_mem_append.2 ⟨h.running, forall_mem_singleton.2
    (h.started r (mem_of_getElem? hr))⟩, fun m ↦ ?_, h.counted, fun n hn m ↦ ?_, fun n hn ↦ ?_⟩
  · simp only [inMinute_append, h.all m]
    omega
  · rw [inMinute_append]
    by_cases hm : minuteOf r.now = m
    · have hone : inMinute m [r] = 1 := by simp [inMinute, hm]
      have hcount := h.counted n hn m (hm ▸ hroom.recent)
      have hlt := hroom.minute n hn
      have hall := h.all m
      rw [Db.rateWindowCount, hm, hcount] at hlt
      omega
    · have hzero : inMinute m [r] = 0 := by simp [inMinute, hm]
      rw [hzero]
      exact h.requests n hn m
  · rw [accepts_append]
    by_cases hkind : r.kind = .taskAccept
    · have hone : accepts [r] = 1 := by simp [accepts, hkind]
      have hlt := hroom.tasks hkind n hn
      change w.db.concurrentTasks agent + _ ≤ n
      omega
    · have hzero : accepts [r] = 0 := by simp [accepts, hkind]
      rw [hzero]
      exact h.tasks n hn

theorem World.Sound.commit (h : w.Sound agent) (hmeets : Meets agent w (.commit i)) :
    (w.step agent (.commit i)).Sound agent := by
  rw [World.step]
  split
  · exact h
  rename_i r hr
  obtain ⟨db, hdb⟩ := isSome_iff_exists.1 (hmeets r hr)
  obtain ⟨hwindows, htasks⟩ := write_eq_some hdb
  rw [hdb, getD_some]
  have hnow := h.running r (mem_of_getElem? hr)
  refine ⟨h.started, fun q hq ↦ h.running q (mem_of_mem_eraseIdx hq), fun m ↦ ?_,
    fun n hn m hm ↦ ?_, h.requests, fun n hn ↦ ?_⟩
  · change inMinute m w.admitted =
      inMinute m (w.finished ++ [r]) + inMinute m (w.running.eraseIdx i)
    rw [inMinute_append, h.all m, inMinute_eraseIdx hr m]
    omega
  · change minuteOf w.now ≤ m + hour at hm
    rw [hwindows, Db.counts, if_pos (by rw [hn]; rfl),
      windows_countRequest ((minuteOf_mono hnow).trans hm), h.counted n hn m hm, inMinute_append]
    congr 1
    by_cases hsame : m = minuteOf r.now
    · simp [inMinute, hsame]
    · rw [if_neg hsame, inMinute, countP_singleton, if_neg]
      simpa using fun heq ↦ hsame heq.symm
  · have hle := h.tasks n hn
    rw [accepts_eraseIdx hr] at hle
    change db.concurrentTasks agent + accepts (w.running.eraseIdx i) ≤ n
    omega

theorem World.Sound.step (h : w.Sound agent) {l : Label} (hmeets : Meets agent w l) :
    (w.step agent l).Sound agent := by
  cases l with
  | tick d =>
    have hlater : w.now ≤ w.now + d := Int.le_add_of_nonneg_right (Int.natCast_nonneg d)
    exact ⟨fun r hr ↦ (h.started r hr).trans hlater, fun r hr ↦ (h.running r hr).trans hlater,
      h.all, fun n hn m hm ↦ h.counted n hn m ((minuteOf_mono hlater).trans hm), h.requests,
      h.tasks⟩
  | start =>
    refine ⟨forall_mem_append.2 ⟨h.started, fun r hr ↦ ?_⟩, h.running, h.all, h.counted,
      h.requests, h.tasks⟩
    have hnow : r.now = w.now := by
      rw [Option.mem_toList, World.request.eq_def] at hr
      split at hr
      · obtain ⟨seq, -, rfl⟩ := map_eq_some_iff.1 hr
        rfl
      · cases hr
      · obtain rfl := some.inj hr
        rfl
    exact hnow.le
  | check => exact h.check hmeets
  | commit => exact h.commit hmeets
  | fail i =>
    have hnone : w.running[i]? = none := hmeets
    have hlen : w.running.length ≤ i := List.getElem?_eq_none_iff.1 hnone
    rw [World.step, hnone, eraseIdx_of_length_le hlen, toList_none, append_nil]
    exact h
  | move row =>
    refine ⟨h.started, h.running, h.all, h.counted, h.requests, fun n hn ↦ ?_⟩
    exact (Nat.add_le_add_right (concurrentTasks_move w.db row) _).trans (h.tasks n hn)

theorem Reached.sound {w₀ : World} (h : Reached agent (Meets agent) w₀ w) (hw₀ : w₀.Fresh agent) :
    w.Sound agent := by
  induction h with
  | refl =>
    refine ⟨by simp [hw₀.started], by simp [hw₀.running], fun m ↦ ?_, fun n _ m _ ↦ ?_,
      fun n _ m ↦ ?_, fun n hn ↦ ?_⟩
    · rw [hw₀.admitted, hw₀.finished, hw₀.running]
      rfl
    · rw [hw₀.windows, hw₀.finished]
      rfl
    · rw [hw₀.admitted]
      exact Nat.zero_le _
    · rw [hw₀.running]
      exact hw₀.tasks n hn
  | step l _ hl ih => exact ih.step hl

end

namespace Sample

def account : Uuid := ⟨"0f0f0f0f-0000-4000-8000-00000000000f", by decide⟩

def agent : Agent := ⟨"agent-1", account, account, { requestsPerMinute := some 1 }⟩

theorem fresh : World.Fresh agent {} := ⟨rfl, rfl, rfl, rfl, fun _ ↦ rfl, nofun⟩

def begun : World := ({} : World).step agent (.start .request none)

def passed : World := begun.step agent (.check 0 {})

theorem room : World.Room agent begun ⟨.request, 0, none, 0⟩ where
  minute n hn := by
    obtain rfl : 1 = n := some.inj hn
    decide
  recent := by decide
  tasks := nofun

theorem reached_passed : Reached agent (Meets agent) {} passed := by
  refine .step (.check 0 {}) (.step (.start .request none) .refl trivial) fun r hr _ ↦ ?_
  obtain rfl : ⟨.request, 0, none, 0⟩ = r := some.inj hr
  exact room

theorem meets_commit : Meets agent passed (.commit 0) := fun r hr ↦ by
  obtain rfl : ⟨.request, 0, none, 0⟩ = r := some.inj hr
  rfl

/-- Two requests have passed the check before one has committed. -/
def overlapping : World :=
  ((begun.step agent (.start .request none)).step agent (.check 0 {})).step agent (.check 0 {})

theorem inMinute_overlapping : inMinute 0 overlapping.admitted = 2 := by decide

end Sample

end AgentColab.Agents
