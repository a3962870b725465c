import AgentColab.Brainstorm.Accounting
import AgentColab.Brainstorm.Turns

/-!
# Who holds the turn

Between two deliveries the Agent whose turn it is has the item of the turn as long as nothing
changes either of them. A join seats another Agent and delivers nothing; the inbox ends the item and
makes no other; and once it has ended, a resume finds its key taken and delivers nothing.
-/

namespace AgentColab.Brainstorm

open List Option

open Work (ItemRow WorkItemState terminalStates)

/-! ## What is promised, and when it is kept -/

/-- The item that the next turn needs. -/
def isNext (b : Subject) (t : Tables) (item : ItemRow) : Prop :=
  item.idempotencyKey = turnKey b (t.row.turnNo + 1)

instance (b : Subject) (t : Tables) (item : ItemRow) : Decidable (isNext b t item) := by
  unfold isNext
  infer_instance

/-- Of the items that have not ended, one is for the next turn, of the Agent whose turn it is; the
others are for earlier turns. -/
structure Provided (b : Subject) (s : Session) : Prop where
  one : s.world.tables.row.status = .opened → ∀ agentId, s.world.tables.holder = some agentId →
    ∃ item, s.items.filter (fun i ↦ i.status ∉ terminalStates ∧
        turnOf i = some (s.world.tables.row.turnNo + 1 : ℤ)) = [item] ∧
      item.agentId = agentId ∧ item.kind = "brainstorm_turn" ∧
        item.brainstormId = some b.brainstormId
  others : ∀ i ∈ s.items, ∃ m : ℕ, turnOf i = some (m : ℤ) ∧ m ≤ s.world.tables.row.turnNo + 1

/-- The actions that end an item. -/
def endings : List Work.Action := [.result, .reject, .expire, .cancel]

def Command.resumes : Command → Bool
  | .resume .. => true
  | _ => false

/-- While the session is open, a join does not change whose turn it is, and nothing ends the item of
the next turn; a resume finds no ended one. -/
def Serves (b : Subject) (s : Session) : SessionLabel → Prop
  | .engine (.join account role agentId seat) _ =>
    s.world.tables.row.status = .opened → Tables.holder { s.world.tables with
        participants := addParticipant s.world.tables.participants account role agentId seat } =
          s.world.tables.holder
  | .engine l _ =>
    commits s.world Command.resumes l = true →
      ∀ i ∈ s.items, isNext b s.world.tables i → i.status ∉ terminalStates
  | .inbox workItemId action _ =>
    s.world.tables.row.status = .opened → ∀ i ∈ s.items, i.workItemId = workItemId →
      isNext b s.world.tables i → action ∉ endings
  | .sweep sw now =>
    s.world.tables.row.status = .opened → ∀ i ∈ s.items, covers sw i = true →
      isNext b s.world.tables i → (sw.decision now i).toOption.all (·.action ≠ .expire) = true

instance (b : Subject) (s : Session) (l : SessionLabel) : Decidable (Serves b s l) := by
  unfold Serves
  split <;> infer_instance

/-! ## The inbox -/

variable {action : Work.Action} {now : Time} {item : ItemRow}

theorem transition_open {state state' : WorkItemState}
    (h : Work.transition state action = .ok state') (hends : action ∉ endings) :
    state' ∉ terminalStates := by
  obtain ⟨-, htransition⟩ := Work.transition_eq_ok.1 h
  cases action <;> cases state <;> cases htransition <;> simp_all [endings, terminalStates]

def SameItem (i j : ItemRow) : Prop :=
  j.idempotencyKey = i.idempotencyKey ∧ j.agentId = i.agentId ∧ j.kind = i.kind ∧
    j.brainstormId = i.brainstormId ∧ turnOf j = turnOf i

theorem moved_same (action : Work.Action) (now : Time) (item : ItemRow) :
    SameItem item (moved action now item) := by
  unfold moved
  split <;> exact ⟨rfl, rfl, rfl, rfl, rfl⟩

theorem moved_open (h : item.status ∉ terminalStates) (hends : action ∉ endings) :
    (moved action now item).status ∉ terminalStates := by
  unfold moved
  split
  · rename_i status hstatus
    have hopen := transition_open hstatus hends
    cases action with
    | redeliver =>
      show WorkItemState.queued ∉ terminalStates
      decide
    | deliver | ack | start => exact hopen
    | result | reject | expire | cancel => exact absurd (by decide) hends
  · exact h

theorem swept_same (sw : Work.Sweep) (now : Time) (item : ItemRow) :
    SameItem item (swept sw now item) := by
  unfold swept
  split
  · split
    · exact ⟨rfl, rfl, rfl, rfl, rfl⟩
    · split
      · exact moved_same ..
      · exact moved_same ..
      · exact ⟨rfl, rfl, rfl, rfl, rfl⟩
  · exact ⟨rfl, rfl, rfl, rfl, rfl⟩

theorem swept_open {sw : Work.Sweep} (h : item.status ∉ terminalStates) (hdue : covers sw item =
    true → (sw.decision now item).toOption.all (·.action ≠ .expire) = true) :
    (swept sw now item).status ∉ terminalStates := by
  unfold swept
  split
  · rename_i hcovers
    split
    · exact h
    · rename_i d hd
      have hnot := hdue hcovers
      rw [hd] at hnot
      split
      · exact moved_open h (by decide)
      · rename_i hexpire
        simp [Except.toOption, hexpire] at hnot
      · exact h
  · exact h

/-! ## The invariant -/

/-- The items have keys of their own, and the Agent whose turn it is has the item of the turn. -/
structure Turned (b : Subject) (s : Session) : Prop where
  keys : (s.items.map ItemRow.idempotencyKey).Nodup
  shaped : ∀ i ∈ s.items, Shaped b s.world.tables.row.turnNo i
  held : s.world.tables.row.status = .opened → ∀ agentId, s.world.tables.holder = some agentId →
      ∃ i ∈ s.items, isNext b s.world.tables i ∧ i.agentId = agentId ∧ i.status ∉ terminalStates

section

variable {b : Subject} {s s' : Session}

theorem Turned.items (h : Turned b s) {f : ItemRow → ItemRow}
    (hsame : ∀ i, SameItem i (f i))
    (hopen : s.world.tables.row.status = .opened → ∀ i ∈ s.items, isNext b s.world.tables i →
      i.status ∉ terminalStates → (f i).status ∉ terminalStates) :
    Turned b { s with items := s.items.map f } where
  keys := by
    have hkeys : (s.items.map f).map ItemRow.idempotencyKey =
        s.items.map ItemRow.idempotencyKey := by
      rw [List.map_map]
      exact map_congr_left fun i _ ↦ (hsame i).1
    rw [hkeys]
    exact h.keys
  shaped := by
    intro j hj
    obtain ⟨i, hi, rfl⟩ := List.mem_map.1 hj
    obtain ⟨m, hm, hkey, hturn, hkind, hsession⟩ := h.shaped i hi
    obtain ⟨hkey', -, hkind', hsession', hturn'⟩ := hsame i
    exact ⟨m, hm, hkey'.trans hkey, hturn'.trans hturn, hkind'.trans hkind,
      hsession'.trans hsession⟩
  held := by
    intro hstatus agentId hholder
    obtain ⟨i, hi, hnext, hagent, hi'⟩ := h.held hstatus agentId hholder
    obtain ⟨hkey', hagent', -⟩ := hsame i
    exact ⟨f i, List.mem_map_of_mem hi, hkey'.trans hnext, hagent'.trans hagent,
      hopen hstatus i hi hnext hi'⟩

variable {w : World} {l : Label} {t t' : Tables} {read : State} {command : Command} {c : Context}
    {items : List ItemRow} {n : ℕ}

theorem step_tables {w' : World} (h : w.step l = some w') :
    ((∀ P, commits w P l = false) ∧ w'.tables = w.tables) ∨
      (∃ account role agentId seat, l = .join account role agentId seat ∧
        w'.tables = { w.tables with
          participants := addParticipant w.tables.participants account role agentId seat }) ∨
      ∃ i command read, l = .commit i ∧ (∀ P, commits w P l = P command) ∧
        w.tables.write read command = some w'.tables := by
  cases l with
  | begin | loadRow | loadParticipants =>
    simp only [World.step] at h
    split at h
    · obtain rfl := some.inj h
      exact .inl ⟨fun _ ↦ rfl, rfl⟩
    · cases h
  | readStream =>
    simp only [World.step] at h
    split at h
    · split at h
      · cases h
      · obtain rfl := some.inj h
        exact .inl ⟨fun _ ↦ rfl, rfl⟩
    · cases h
  | commit i =>
    simp only [World.step] at h
    split at h
    · rename_i command row participants streamLength hx
      split_ifs at h
      obtain ⟨t, hwrite, rfl⟩ := map_eq_some_iff.1 h
      refine .inr (.inr ⟨i, command, ⟨row, participants⟩, rfl, fun P ↦ ?_, hwrite⟩)
      simp [commits, hx]
    · cases h
  | stop =>
    obtain rfl := some.inj h
    exact .inl ⟨fun _ ↦ rfl, rfl⟩
  | join account role agentId seat =>
    obtain rfl := some.inj h
    exact .inr (.inl ⟨account, role, agentId, seat, rfl, rfl⟩)

theorem write_delivers (h : t.write read command = some t') (hdelivers : command.delivers = true) :
    t'.row.turnNo = t.row.turnNo + 1 ∨ t'.row.turnNo = t.row.turnNo ∧ command.resumes = true := by
  cases command with
  | contribute =>
    simp only [Tables.write] at h
    split_ifs at h
    obtain rfl := some.inj h
    exact .inl rfl
  | resume =>
    simp only [Tables.write] at h
    split at h
    · cases h
    · obtain rfl := some.inj h
      exact .inr ⟨rfl, rfl⟩
  | pause | pauseOnBreach | close | summarize => cases hdelivers

theorem write_silent (h : t.write read command = some t') (hdelivers : command.delivers = false) :
    t'.row.turnNo = t.row.turnNo ∧
      (t'.row.status = .opened → t.row.status = .opened ∧ t'.holder = t.holder) := by
  cases command with
  | contribute => cases hdelivers
  | resume => cases hdelivers
  | pause | pauseOnBreach | close =>
    obtain rfl := some.inj h
    exact ⟨rfl, fun hopen ↦ by cases hopen⟩
  | summarize =>
    obtain rfl := some.inj h
    exact ⟨rfl, fun hopen ↦ ⟨hopen, rfl⟩⟩

theorem turned_of_delivery {items' : List ItemRow}
    (hkeys : (items.map ItemRow.idempotencyKey).Nodup) (hshaped : ∀ i ∈ items, Shaped b n i)
    (hn : n ≤ w.tables.row.turnNo)
    (hopen : ∀ i ∈ items, isNext b w.tables i → i.status ∉ terminalStates)
    (h : deliverNextTurn b c w.tables items = .ok items') : Turned b ⟨w, items'⟩ := by
  obtain ⟨hitems, hheld⟩ := deliverNextTurn_ok h
  have hold : ∀ i ∈ items, Shaped b w.tables.row.turnNo i := by
    intro i hi
    obtain ⟨m, hm, hrest⟩ := hshaped i hi
    exact ⟨m, hm.trans (Nat.add_le_add_right hn 1), hrest⟩
  rcases hitems with rfl | ⟨item, rfl, hnew, hitem, hqueued⟩
  · refine ⟨hkeys, hold, fun hstatus agentId hholder ↦ ?_⟩
    obtain ⟨i, hi, hkey, hagent⟩ := hheld hstatus agentId hholder
    exact ⟨i, hi, hkey, hagent, hopen i hi hkey⟩
  · refine ⟨?_, ?_, fun hstatus agentId hholder ↦ ?_⟩
    · rw [map_append, nodup_append]
      refine ⟨hkeys, by simp, fun x hx y hy ↦ ?_⟩
      obtain ⟨i, hi, rfl⟩ := List.mem_map.1 hx
      obtain rfl : y = item.idempotencyKey := by simpa using hy
      exact hnew i hi
    · intro i hi
      rcases mem_append.1 hi with hi | hi
      · exact hold i hi
      · rw [mem_singleton.1 hi]
        exact hitem
    · obtain ⟨i, hi, hkey, hagent⟩ := hheld hstatus agentId hholder
      refine ⟨i, hi, hkey, hagent, ?_⟩
      rcases mem_append.1 hi with hi | hi
      · exact hopen i hi hkey
      · rw [mem_singleton.1 hi, hqueued]
        decide

theorem not_isNext_of_shaped {i : ItemRow} (h : Shaped b n i) (hn : t.row.turnNo = n + 1) :
    ¬isNext b t i := by
  obtain ⟨m, hm, hkey, -⟩ := h
  intro hnext
  have heq := turnKey_injective b (hkey.symm.trans hnext)
  omega

theorem Turned.engine (h : Turned b s) (hserves : Serves b s (.engine l c))
    (hstep : s.step b (.engine l c) = some s') : Turned b s' := by
  simp only [Session.step] at hstep
  split at hstep
  · cases hstep
  rename_i w hw
  rcases step_tables hw with ⟨hcommits, htables⟩ | ⟨account, role, agentId, seat, rfl, htables⟩ |
    ⟨i, command, read, rfl, hcommits, hwrite⟩
  · rw [hcommits, if_neg Bool.false_ne_true] at hstep
    obtain rfl := some.inj hstep
    refine ⟨h.keys, ?_, ?_⟩
    · rw [htables]
      exact h.shaped
    · rw [htables]
      exact h.held
  · obtain rfl := some.inj hstep
    refine ⟨h.keys, ?_, ?_⟩
    · rw [htables]
      exact h.shaped
    · -- the join leaves the turn where it is
      intro hstatus a hholder
      rw [htables] at hstatus hholder
      rw [hserves hstatus] at hholder
      obtain ⟨i, hi, hnext, hrest⟩ := h.held hstatus a hholder
      refine ⟨i, hi, ?_, hrest⟩
      rw [htables]
      exact hnext
  · cases hdelivers : command.delivers with
    | true =>
      rw [hcommits, if_pos hdelivers] at hstep
      cases hdelivery : deliverNextTurn b c w.tables s.items with
      | error =>
        rw [hdelivery] at hstep
        cases hstep
      | ok =>
        rw [hdelivery] at hstep
        obtain rfl := some.inj hstep
        rcases write_delivers hwrite hdelivers with hturn | ⟨hturn, hresumes⟩
        · exact turned_of_delivery h.keys h.shaped (by omega)
            (fun i hi hnext ↦ absurd hnext (not_isNext_of_shaped (h.shaped i hi) hturn)) hdelivery
        · refine turned_of_delivery h.keys h.shaped hturn.ge (fun i hi hnext ↦ ?_) hdelivery
          have hnext' : isNext b s.world.tables i := by
            rw [isNext, ← hturn]
            exact hnext
          exact hserves ((hcommits _).trans hresumes) i hi hnext'
    | false =>
      rw [hcommits, hdelivers, if_neg Bool.false_ne_true] at hstep
      obtain rfl := some.inj hstep
      obtain ⟨hturn, hopen⟩ := write_silent hwrite hdelivers
      refine ⟨h.keys, ?_, fun hstatus a hholder ↦ ?_⟩
      · rw [hturn]
        exact h.shaped
      · obtain ⟨hstatus', hsame⟩ := hopen hstatus
        rw [hsame] at hholder
        obtain ⟨i, hi, hnext, hrest⟩ := h.held hstatus' a hholder
        refine ⟨i, hi, ?_, hrest⟩
        rw [isNext, hturn]
        exact hnext

theorem Turned.step (h : Turned b s) {l : SessionLabel} (hserves : Serves b s l)
    (hstep : s.step b l = some s') : Turned b s' := by
  cases l with
  | engine => exact h.engine hserves hstep
  | inbox workItemId action now =>
    obtain rfl := some.inj hstep
    refine h.items (fun i ↦ ?_) fun hstatus i hi hnext hopen ↦ ?_
    · split
      · exact moved_same ..
      · exact ⟨rfl, rfl, rfl, rfl, rfl⟩
    · split
      · rename_i hid
        exact moved_open hopen (hserves hstatus i hi hid hnext)
      · exact hopen
  | sweep sw now =>
    obtain rfl := some.inj hstep
    refine h.items (swept_same sw now) fun hstatus i hi hnext hopen ↦ ?_
    exact swept_open hopen fun hcovers ↦ hserves hstatus i hi hcovers hnext

theorem turned_start {facilitator : Account} {limits : Limits}
    {participants : List (Account × Role × Option String)}
    (h : Session.start b c facilitator limits participants = .ok s) : Turned b s := by
  unfold Session.start at h
  dsimp only at h
  cases hdelivery : deliverNextTurn b c (start facilitator limits participants c.now) [] with
  | error =>
    rw [hdelivery] at h
    cases h
  | ok =>
    rw [hdelivery] at h
    obtain rfl := Except.ok.inj h
    have hnil : (([] : List ItemRow).map ItemRow.idempotencyKey).Nodup := nodup_nil
    exact turned_of_delivery (w := ⟨_, fun _ ↦ none⟩) hnil (forall_mem_nil _)
      (Nat.zero_le _) (forall_mem_nil _) hdelivery

/-! ## Runs -/

theorem filter_eq_singleton {P : ItemRow → Bool} (hkeys : (items.map ItemRow.idempotencyKey).Nodup)
    (hmem : item ∈ items) (hP : P item = true)
    (hsame : ∀ i ∈ items, P i = true → i.idempotencyKey = item.idempotencyKey) :
    items.filter P = [item] := by
  have hall : ∀ i ∈ items.filter P, i = item := by
    intro i hi
    obtain ⟨hi, hPi⟩ := mem_filter.1 hi
    exact inj_on_of_nodup_map hkeys hi hmem (hsame i hi hPi)
  have hnodup : (items.filter P).Nodup := hkeys.of_map.filter _
  rw [eq_replicate_of_mem hall] at hnodup ⊢
  have hle := nodup_replicate.1 hnodup
  have hpos := length_pos_of_mem (mem_filter.2 ⟨hmem, hP⟩)
  rw [show (items.filter P).length = 1 by omega]
  rfl

theorem Turned.provided (h : Turned b s) : Provided b s where
  one := by
    intro hstatus agentId hholder
    obtain ⟨item, hmem, hnext, hagent, hopen⟩ := h.held hstatus agentId hholder
    obtain ⟨m, hm, hkey, hturn, hkind, hsession⟩ := h.shaped item hmem
    have heq := turnKey_injective b (hkey.symm.trans hnext)
    refine ⟨item, filter_eq_singleton h.keys hmem ?_ fun i hi hi' ↦ ?_, hagent, hkind, hsession⟩
    · rw [hturn, heq]
      simpa using hopen
    · obtain ⟨n, -, hkey', hturn', -⟩ := h.shaped i hi
      rw [hturn'] at hi'
      have hn : n = m := by
        have := (of_decide_eq_true hi').2
        have := some.inj this
        omega
      rw [hkey', hkey, hn]
  others := by
    intro i hi
    obtain ⟨m, hm, -, hturn, -⟩ := h.shaped i hi
    exact ⟨m, hturn, hm⟩

end

/-- In every run whose steps serve the turn holder, the Agent whose turn it is has one item that has
not ended, for the next turn. -/
theorem turn_holder_has_work {b : Subject} {s : Session}
    (h : Session.Reachable b (Serves b) s) : Provided b s := by
  have hturned : Turned b s := by
    induction h with
    | start c _ _ _ h => exact turned_start h
    | step l _ hC hstep ih => exact ih.step hC hstep
  exact hturned.provided

/-! ## A session with two Agents -/

/-- The run of a list of steps that all meet a condition. -/
def Session.runLabels (b : Subject) (C : Session → SessionLabel → Prop) [∀ s l, Decidable (C s l)]
    (s : Session) : List SessionLabel → Option Session
  | [] => some s
  | l :: ls => if C s l then (s.step b l).bind fun s₁ ↦ s₁.runLabels b C ls else none

theorem Session.Reachable.runLabels {b : Subject} {C : Session → SessionLabel → Prop}
    [∀ s l, Decidable (C s l)] {ls : List SessionLabel} :
    ∀ {s s' : Session}, Session.Reachable b C s → s.runLabels b C ls = some s' →
      Session.Reachable b C s' := by
  induction ls with
  | nil =>
    intro s s' h hrun
    obtain rfl := some.inj hrun
    exact h
  | cons l _ ih =>
    intro s s' h hrun
    rw [Session.runLabels] at hrun
    split_ifs at hrun with hC
    obtain ⟨s₁, hstep, hrest⟩ := bind_eq_some_iff.1 hrun
    exact ih (.step l h hC hstep) hrest

namespace Sample

def subject : Subject := ⟨"ws-1", "bs-1", "ch-1", "pricing"⟩

def context (n : ℕ) : Context := ⟨"wi-" ++ toString n, "corr-1", "facilitator", 0⟩

def seated : Except Work.WorkItemError Session :=
  Session.start subject (context 1) "facilitator" limits
    [("writer", .agent, some "agent-w"), ("reader", .agent, some "agent-r")]

def turn (n : ℕ) (command : Command) : List SessionLabel :=
  (alone command).map fun l ↦ .engine l (context n)

/-- The writer takes a turn, and its item ends. Then the session is paused and resumed, and a sweep
comes before the deadline. -/
def served : List SessionLabel :=
  turn 2 (.contribute "writer" (some "IDEA") "one") ++
    [.inbox "wi-1" .deliver 1, .inbox "wi-1" .ack 2, .inbox "wi-1" .result 3] ++
    turn 3 (.pause "facilitator" "FACILITATOR_PAUSE") ++ turn 4 (.resume "facilitator" []) ++
    [.sweep { actorAccountId := "system" } 100000000,
      .engine (.join "guest" .human none 2) (context 5)]

def expiredInPause : List SessionLabel :=
  turn 2 (.pause "facilitator" "FACILITATOR_PAUSE") ++
    [.sweep { actorAccountId := "system" } 600000000] ++ turn 3 (.resume "facilitator" [])

theorem reachable_of_run {C : Session → SessionLabel → Prop} [∀ s l, Decidable (C s l)]
    {ls : List SessionLabel} {P : Session → Bool}
    (h : (seated.toOption.bind fun s ↦ s.runLabels subject C ls).any P = true) :
    ∃ s, Session.Reachable subject C s ∧ P s = true := by
  obtain ⟨s, hs, hP⟩ := (Option.any_eq_true _ _).1 h
  obtain ⟨s₀, hs₀, hrun⟩ := bind_eq_some_iff.1 hs
  cases hstart : seated with
  | error =>
    rw [hstart] at hs₀
    cases hs₀
  | ok =>
    rw [hstart] at hs₀
    obtain rfl := some.inj hs₀
    exact ⟨s, Session.Reachable.runLabels (.start _ _ _ _ hstart) hrun, hP⟩

end Sample

open Sample

theorem turn_holder_has_work_served : ∃ s, Session.Reachable subject (Serves subject) s ∧
      s.world.tables.row.status = .opened ∧ s.world.tables.holder = some "agent-r" ∧
      s.items.map ItemRow.agentId = ["agent-w", "agent-r"] ∧ Provided subject s := by
  have hrun : ((seated.toOption.bind fun s ↦
      s.runLabels subject (Serves subject) served).any fun s ↦
        s.world.tables.row.status = .opened ∧ s.world.tables.holder = some "agent-r" ∧
          s.items.map ItemRow.agentId = ["agent-w", "agent-r"]) = true := by decide +kernel
  obtain ⟨s, h, hfacts⟩ := reachable_of_run hrun
  obtain ⟨hstatus, hholder, hitems⟩ := of_decide_eq_true hfacts
  exact ⟨s, h, hstatus, hholder, hitems, turn_holder_has_work h⟩

/-- After the resume, the key of the first turn is taken by an item that has ended. -/
theorem resume_delivers_nothing :
    ¬∀ (b : Subject) (s : Session), Session.Reachable b (fun _ _ ↦ True) s → Provided b s := by
  intro hall
  have hrun : ((seated.toOption.bind fun s ↦
      s.runLabels subject (fun _ _ ↦ True) expiredInPause).any fun s ↦
        s.world.tables.row.status = .opened ∧ s.world.tables.holder = some "agent-w" ∧
          s.items.map ItemRow.status = [.expired]) = true := by decide +kernel
  obtain ⟨s, h, hfacts⟩ := reachable_of_run hrun
  obtain ⟨hstatus, hholder, hitems⟩ := of_decide_eq_true hfacts
  obtain ⟨item, hfilter, -⟩ := (hall _ s h).one hstatus _ hholder
  have hmem : item ∈ s.items.filter (fun i ↦ i.status ∉ terminalStates ∧
      turnOf i = some (s.world.tables.row.turnNo + 1 : ℤ)) := by
    rw [hfilter]
    exact mem_singleton_self _
  obtain ⟨hitem, hopen⟩ := mem_filter.1 hmem
  have hexpired : item.status ∈ s.items.map ItemRow.status := List.mem_map_of_mem hitem
  rw [hitems, mem_singleton] at hexpired
  exact (of_decide_eq_true hopen).1 (by rw [hexpired]; decide)

end AgentColab.Brainstorm
