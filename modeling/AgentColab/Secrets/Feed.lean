import AgentColab.Enumeration.Cut
import AgentColab.Secrets.Sidecar
import Mathlib.Data.Finset.Max

/-!
# The revocation feed

A revocation takes its sequence number when it is inserted and is visible when its transaction
commits. A poll reads a page of what is visible after the cursor, keeps what touches the Agent, and
moves the cursor to the last number it kept; so does the stream with what it has sent.
-/

namespace AgentColab.Secrets.Feed

open List

/-- A row of `secret_revocations`. The leases of a revocation of kind `agent` are those of that
Agent. -/
structure Row (owner : String → Option String) where
  seq : ℕ
  workspaceId : String
  kind : Kind
  targetId : String
  leaseIds : List String
  reason : String
  ofAgent : kind = .agent → ∀ id ∈ leaseIds, owner id = some targetId
deriving DecidableEq

open Row (seq)

/-- Who polls: the Agent behind the sidecar, and its workspace. -/
structure Caller where
  workspaceId : String
  agentId : String

section

variable {owner : String → Option String}

/-- `revocations_since`: the page is cut before it is filtered. -/
def revocationsSince (rows : List (Row owner)) (seq : ℕ) (workspaceId : String) (limit : ℕ) :
    List (Row owner) :=
  ((rows.filter fun r ↦ seq < r.seq ∧ r.workspaceId = workspaceId).insertionSort
    fun a b ↦ a.seq ≤ b.seq).take limit

/-- `_touches_agent` -/
def touchesAgent (r : Row owner) (agentId : String) : Bool :=
  r.leaseIds.any fun id ↦ owner id = some agentId

/-- What `_read_revocations` keeps of a page. -/
def kept (caller : Caller) (r : Row owner) : Bool :=
  (r.kind ≠ .agent ∧ touchesAgent r caller.agentId = true) ∨ r.targetId = caller.agentId

/-- The default of `limit`. -/
def pageLimit : ℕ := 200

/-- `_read_revocations` -/
def readRevocations (rows : List (Row owner)) (caller : Caller) (since : ℕ) : List (Row owner) :=
  (revocationsSince rows since caller.workspaceId pageLimit).filter (kept caller)

/-- The `next_since` of an answer. -/
def nextSince (items : List (Row owner)) (since : ℕ) : ℕ := (items.getLast?.map seq).getD since

/-- `_revocations_from`: one revocation for each lease that an item lists. -/
def revocationsFrom (r : Row owner) : List Revocation :=
  r.leaseIds.map fun id ↦ ⟨r.seq, id, r.reason, r.kind.value⟩

/-! ## The world -/

/-- The sequence, the rows of transactions that are open, those that are committed, and the
sidecar. -/
structure World (owner : String → Option String) where
  nextSeq : ℕ
  pending : List (Row owner)
  rows : List (Row owner)
  watched : Watched

/-- The cursor that the sidecar was last given. -/
def World.cursor (w : World owner) : ℕ := w.watched.lastSeq

def World.items (w : World owner) (caller : Caller) : List (Row owner) :=
  readRevocations w.rows caller w.cursor

/-- `poll_once` over the answer of the API, with the cursor that `poll_revocations` returns. -/
def World.poll (w : World owner) (caller : Caller) (clock : Time) : World owner :=
  let items := w.items caller
  let revocations := items.flatMap revocationsFrom
  let next := (revocations.map Revocation.seq).foldl max (max (nextSince items w.cursor) w.cursor)
  { w with watched := w.watched.pollOnce revocations next clock }

/-- A row is inserted; its transaction commits it or rolls it back at any later time; the sidecar
polls at any time. -/
inductive Label (owner : String → Option String) where
  | insert (r : Row owner)
  | commit (r : Row owner)
  | rollback (r : Row owner)
  | poll (clock : Time)

/-- A row gets the next number, and only a transaction that is open ends. -/
def World.Enabled (w : World owner) : Label owner → Prop
  | .insert r => r.seq = w.nextSeq
  | .commit r => r ∈ w.pending
  | .rollback r => r ∈ w.pending
  | .poll _ => True

def World.step (caller : Caller) (w : World owner) : Label owner → World owner
  | .insert r => { w with nextSeq := w.nextSeq + 1, pending := r :: w.pending }
  | .commit r => { w with pending := w.pending.erase r, rows := r :: w.rows }
  | .rollback r => { w with pending := w.pending.erase r }
  | .poll clock => w.poll caller clock

/-- A run all of whose steps meet a condition on the world and the label. -/
inductive Run (caller : Caller) (C : World owner → Label owner → Prop) :
    World owner → List (Label owner) → World owner → Prop
  | nil (w : World owner) : Run caller C w [] w
  | cons {w w' : World owner} {l : Label owner} {ls : List (Label owner)} (henabled : w.Enabled l)
      (hC : C w l) (h : Run caller C (w.step caller l) ls w') : Run caller C w (l :: ls) w'

def Label.isPoll : Label owner → Bool
  | .poll _ => true
  | _ => false

/-- Nothing has been revoked, and the sidecar starts at zero. -/
def World.start (owner : String → Option String) (store : SecretStore) : World owner where
  nextSeq := 1
  pending := []
  rows := []
  watched := ⟨store, 0, []⟩

/-- The revocation covers a lease of the Agent. -/
def Covers (caller : Caller) (r : Row owner) : Prop :=
  r.workspaceId = caller.workspaceId ∧ ∃ id ∈ r.leaseIds, owner id = some caller.agentId

instance (caller : Caller) (r : Row owner) : Decidable (Covers caller r) := by
  unfold Covers
  infer_instance

/-- The sidecar has been given the revocation, with every lease that it lists. -/
def Delivered (w : World owner) (r : Row owner) : Prop :=
  ∀ revocation ∈ revocationsFrom r, revocation ∈ w.watched.handled

instance (w : World owner) (r : Row owner) : Decidable (Delivered w r) := by
  unfold Delivered
  infer_instance

variable {r : Row owner}

theorem Covers.kept {caller : Caller} (h : Covers caller r) : kept caller r = true := by
  obtain ⟨-, id, hid, howner⟩ := h
  simp only [Feed.kept, decide_eq_true_eq]
  by_cases hkind : r.kind = .agent
  · have := (r.ofAgent hkind id hid).symm.trans howner
    exact .inr (Option.some.inj this)
  · exact .inl ⟨hkind, List.any_eq_true.2 ⟨id, hid, by simpa using howner⟩⟩

/-! ## What a poll returns -/

variable {rows : List (Row owner)} {caller : Caller} {since : ℕ}

theorem pairwise_seq (hnodup : (rows.map seq).Nodup) (p : Row owner → Bool) :
    (((rows.filter p).insertionSort fun a b ↦ a.seq ≤ b.seq).map seq).Pairwise (· < ·) := by
  let le : Row owner → Row owner → Prop := fun a b ↦ a.seq ≤ b.seq
  have : Std.Total le := ⟨fun a b ↦ le_total a.seq b.seq⟩
  have : IsTrans (Row owner) le := ⟨fun _ _ _ hab hbc ↦ le_trans hab hbc⟩
  have hsorted : ((rows.filter p).insertionSort le).Pairwise le := pairwise_insertionSort le _
  have hdistinct : (((rows.filter p).insertionSort le).map seq).Nodup :=
    ((perm_insertionSort le _).map seq).nodup_iff.2 (hnodup.sublist (filter_sublist.map seq))
  rw [pairwise_map]
  exact (hsorted.and (pairwise_map.1 hdistinct)).imp fun h ↦ lt_of_le_of_ne h.1 h.2

theorem mem_revocationsSince (hnodup : (rows.map seq).Nodup) {workspaceId : String}
    {limit : ℕ} : r ∈ revocationsSince rows since workspaceId limit ↔
      (r ∈ rows ∧ since < r.seq ∧ r.workspaceId = workspaceId) ∧
        (((rows.filter fun q ↦ since < q.seq ∧ q.workspaceId = workspaceId).insertionSort
          fun a b ↦ a.seq ≤ b.seq).filter fun q ↦ q.seq < r.seq).length < limit := by
  rw [revocationsSince, Enumeration.mem_take_iff (pairwise_seq hnodup _),
    (perm_insertionSort _ _).mem_iff, mem_filter, decide_eq_true_eq]

theorem pairwise_readRevocations (hnodup : (rows.map seq).Nodup) :
    ((readRevocations rows caller since).map seq).Pairwise (· < ·) :=
  (pairwise_seq hnodup _).sublist ((filter_sublist.trans (take_sublist _ _)).map seq)

theorem mem_readRevocations : r ∈ readRevocations rows caller since ↔
      r ∈ revocationsSince rows since caller.workspaceId pageLimit ∧ kept caller r = true :=
  mem_filter

theorem le_nextSince {items : List (Row owner)} (hs : (items.map seq).Pairwise (· < ·))
    (hr : r ∈ items) : r.seq ≤ nextSince items since := by
  obtain ⟨init, last, rfl⟩ := eq_nil_or_concat items |>.resolve_left (ne_nil_of_mem hr)
  rw [nextSince, concat_eq_append, List.getLast?_append]
  rw [concat_eq_append] at hr hs
  rcases mem_append.1 hr with hinit | hlast
  · rw [map_append, pairwise_append] at hs
    exact (hs.2.2 r.seq (List.mem_map_of_mem hinit) last.seq (by simp)).le
  · rw [mem_singleton.1 hlast]
    simp

theorem nextSince_eq (items : List (Row owner)) (since : ℕ) :
    items = [] ∧ nextSince items since = since ∨ ∃ r ∈ items, nextSince items since = r.seq := by
  unfold nextSince
  cases hlast : items.getLast? with
  | none => exact .inl ⟨List.getLast?_eq_none_iff.1 hlast, rfl⟩
  | some r => exact .inr ⟨r, mem_of_getLast? hlast, rfl⟩

theorem mem_readRevocations_of_le (hnodup : (rows.map seq).Nodup) {q : Row owner}
    (hq : q ∈ readRevocations rows caller since) (hr : r ∈ rows) (hcovers : Covers caller r)
    (hsince : since < r.seq) (hle : r.seq ≤ q.seq) : r ∈ readRevocations rows caller since := by
  rw [mem_readRevocations, mem_revocationsSince hnodup] at hq ⊢
  refine ⟨⟨⟨hr, hsince, hcovers.1⟩, lt_of_le_of_lt ?_ hq.1.2⟩, hcovers.kept⟩
  refine (monotone_filter_right _ fun p hp ↦ ?_).length_le
  simp only [decide_eq_true_eq] at hp ⊢
  exact lt_of_lt_of_le hp hle

/-! ## What a poll leaves -/

theorem foldl_max_eq {l : List ℕ} {a : ℕ} (h : ∀ x ∈ l, x ≤ a) : l.foldl max a = a := by
  induction l with
  | nil => rfl
  | cons x l ih =>
    rw [foldl_cons, max_eq_left (h x mem_cons_self)]
    exact ih fun y hy ↦ h y (mem_cons_of_mem _ hy)

theorem handled_handleAll (items : List Revocation) (w : Watched) :
    (items.foldl Watched.handle w).handled = w.handled ++ items := by
  induction items generalizing w with
  | nil => simp
  | cons _ _ ih => simp [ih, Watched.handle]

theorem lastSeq_handleAll_le {items : List Revocation} {b : ℕ} (h : ∀ x ∈ items, x.seq ≤ b) :
    ∀ {w : Watched}, w.lastSeq ≤ b → (items.foldl Watched.handle w).lastSeq ≤ b := by
  induction items with
  | nil => exact fun hw ↦ hw
  | cons item _ ih =>
    intro w hw
    exact ih (fun x hx ↦ h x (mem_cons_of_mem _ hx)) (w := w.handle item)
      (max_le hw (h item mem_cons_self))

theorem handled_poll (w : World owner) (caller : Caller) (clock : Time) :
    (w.poll caller clock).watched.handled =
      w.watched.handled ++ (w.items caller).flatMap revocationsFrom :=
  handled_handleAll _ _

variable {w : World owner}

theorem cursor_poll (hnodup : (w.rows.map seq).Nodup) (caller : Caller) (clock : Time) :
    (w.poll caller clock).cursor = max (nextSince (w.items caller) w.cursor) w.cursor := by
  have hseq : ∀ x ∈ (w.items caller).flatMap revocationsFrom,
      x.seq ≤ max (nextSince (w.items caller) w.cursor) w.cursor := by
    intro x hx
    obtain ⟨r, hr, hx⟩ := mem_flatMap.1 hx
    obtain ⟨id, -, rfl⟩ := List.mem_map.1 hx
    exact le_max_of_le_left (le_nextSince (pairwise_readRevocations hnodup) hr)
  have hnext := foldl_max_eq (l := ((w.items caller).flatMap revocationsFrom).map Revocation.seq)
    fun x hx ↦ by
      obtain ⟨y, hy, rfl⟩ := List.mem_map.1 hx
      exact hseq y hy
  have hlast := lastSeq_handleAll_le hseq (w := w.watched) (le_max_right _ _)
  change max _ _ = _
  rw [hnext]
  exact max_eq_right hlast

theorem Delivered.poll (h : Delivered w r) (caller : Caller) (clock : Time) :
    Delivered (w.poll caller clock) r := by
  intro revocation hmem
  rw [handled_poll]
  exact mem_append_left _ (h revocation hmem)

theorem delivered_of_mem_items (h : r ∈ w.items caller) (clock : Time) :
    Delivered (w.poll caller clock) r := by
  intro revocation hmem
  rw [handled_poll]
  exact mem_append_right _ (mem_flatMap.2 ⟨r, h, hmem⟩)

/-! ## The invariant -/

/-- The rows have numbers of their own, which the sequence has handed out. -/
structure Numbered (w : World owner) : Prop where
  below : ∀ r ∈ w.pending ++ w.rows, r.seq < w.nextSeq
  nodup : ((w.pending ++ w.rows).map seq).Nodup

/-- The cursor is behind every revocation that covers a lease of the Agent and is not delivered. -/
def Behind (caller : Caller) (w : World owner) : Prop :=
  ∀ r ∈ w.rows, Covers caller r → Delivered w r ∨ w.cursor < r.seq

/-- The rows that a poll reads before a row and leaves out. -/
def World.foreignBefore (w : World owner) (caller : Caller) (r : Row owner) : ℕ :=
  (w.rows.filter fun q ↦ (w.cursor < q.seq ∧ q.workspaceId = caller.workspaceId) ∧
    q.seq < r.seq ∧ kept caller q = false).length

/-- Where a revocation of the Agent is ahead of the cursor, one that a poll keeps is behind fewer
foreign rows than a page holds. -/
def Unblocked (caller : Caller) (w : World owner) : Prop :=
  (∃ r ∈ w.rows, Covers caller r ∧ w.cursor < r.seq) →
    ∃ r ∈ w.rows, (w.cursor < r.seq ∧ r.workspaceId = caller.workspaceId) ∧
      kept caller r = true ∧ w.foreignBefore caller r < pageLimit

/-- A revocation of the Agent commits before a poll has returned a later one, and no poll finds only
foreign rows before it. -/
def Timely (caller : Caller) (w : World owner) : Label owner → Prop
  | .commit r => Covers caller r → w.cursor < r.seq
  | .poll _ => Unblocked caller w
  | .insert _ => True
  | .rollback _ => True

theorem Numbered.nodup_rows (h : Numbered w) : (w.rows.map seq).Nodup :=
  h.nodup.sublist ((sublist_append_right _ _).map seq)

variable {l : Label owner}

theorem Numbered.step (h : Numbered w) (henabled : w.Enabled l) : Numbered (w.step caller l) := by
  cases l with
  | insert r =>
    have hr : r.seq = w.nextSeq := henabled
    constructor
    · intro q hq
      rcases mem_cons.1 hq with rfl | hq
      · exact hr ▸ Nat.lt_succ_self _
      · exact Nat.lt_succ_of_lt (h.below q hq)
    · refine nodup_cons.2 ⟨fun hmem ↦ ?_, h.nodup⟩
      obtain ⟨q, hq, heq⟩ := List.mem_map.1 hmem
      exact absurd (h.below q hq) (by rw [heq, hr]; exact lt_irrefl _)
  | commit r =>
    have hperm : (w.pending.erase r ++ r :: w.rows).Perm (w.pending ++ w.rows) :=
      perm_middle.trans ((perm_cons_erase henabled).symm.append_right _)
    exact ⟨fun q hq ↦ h.below q (hperm.mem_iff.1 hq), (hperm.map _).nodup_iff.2 h.nodup⟩
  | rollback r =>
    have hsub : (w.pending.erase r ++ w.rows).Sublist (w.pending ++ w.rows) :=
      erase_sublist.append_right _
    exact ⟨fun q hq ↦ h.below q (hsub.subset hq), h.nodup.sublist (hsub.map _)⟩
  | poll => exact ⟨h.below, h.nodup⟩

theorem cursor_lt_poll (h : Numbered w) (hun : Unblocked caller w) (hr : r ∈ w.rows)
    (hcovers : Covers caller r) (hlt : w.cursor < r.seq) (clock : Time) :
    w.cursor < (w.poll caller clock).cursor := by
  obtain ⟨q, hq, hahead, hkept, hfew⟩ := hun ⟨r, hr, hcovers, hlt⟩
  -- the first row that the poll keeps is behind foreign rows only
  let ahead := w.rows.filter fun p ↦
    (w.cursor < p.seq ∧ p.workspaceId = caller.workspaceId) ∧ kept caller p = true
  obtain ⟨p, hp, hmin⟩ := Finset.exists_min_image ahead.toFinset seq
    ⟨q, List.mem_toFinset.2 (mem_filter.2 ⟨hq, by simpa using ⟨hahead, hkept⟩⟩)⟩
  simp only [ahead, List.mem_toFinset, mem_filter, decide_eq_true_eq] at hp hmin
  have hitem : p ∈ w.items caller := by
    refine mem_readRevocations.2 ⟨(mem_revocationsSince h.nodup_rows).2 ⟨⟨hp.1, hp.2.1⟩, ?_⟩, hp.2.2⟩
    refine lt_of_le_of_lt ?_ hfew
    rw [((perm_insertionSort _ _).filter _).length_eq, List.filter_filter,
      World.foreignBefore, ← countP_eq_length_filter, ← countP_eq_length_filter]
    refine countP_mono_left fun x hx hbefore ↦ ?_
    simp only [Bool.and_eq_true, decide_eq_true_eq] at hbefore ⊢
    have hforeign : kept caller x = false := by
      by_contra hkeptx
      exact absurd (hmin x ⟨hx, hbefore.2, by simpa using hkeptx⟩) (not_le.2 hbefore.1)
    exact ⟨hbefore.2, lt_of_lt_of_le hbefore.1 (hmin q ⟨hq, hahead, hkept⟩), hforeign⟩
  rw [cursor_poll h.nodup_rows]
  exact lt_max_of_lt_left (lt_of_lt_of_le hp.2.1.1
    (le_nextSince (pairwise_readRevocations h.nodup_rows) hitem))

theorem cursor_le_step (h : Numbered w) (l : Label owner) :
    w.cursor ≤ (w.step caller l).cursor := by
  cases l with
  | poll clock => exact (cursor_poll h.nodup_rows caller clock).symm ▸ le_max_right _ _
  | _ => exact le_rfl

theorem Behind.step (h : Behind caller w) (hn : Numbered w) (htimely : Timely caller w l) :
    Behind caller (w.step caller l) := by
  intro r hr hcovers
  cases l with
  | insert => exact h r hr hcovers
  | rollback => exact h r hr hcovers
  | commit =>
    rcases mem_cons.1 hr with rfl | hr
    · exact .inr (htimely hcovers)
    · exact h r hr hcovers
  | poll clock =>
    rcases h r hr hcovers with hdelivered | hahead
    · exact .inl (hdelivered.poll caller clock)
    -- the cursor has moved past the row only when the row, or a later one, is an item
    by_cases hpast : (w.poll caller clock).cursor < r.seq
    · exact .inr hpast
    rw [cursor_poll hn.nodup_rows, max_lt_iff, not_and'] at hpast
    have hnext := not_lt.1 (hpast hahead)
    rcases nextSince_eq (w.items caller) w.cursor with ⟨-, heq⟩ | ⟨q, hq, heq⟩
    · exact absurd (heq ▸ hnext) (not_le.2 hahead)
    · exact .inl (delivered_of_mem_items
        (mem_readRevocations_of_le hn.nodup_rows hq hr hcovers hahead (heq ▸ hnext)) clock)

theorem mem_rows_step (h : r ∈ w.rows) (l : Label owner) : r ∈ (w.step caller l).rows := by
  cases l with
  | commit => exact mem_cons_of_mem _ h
  | _ => exact h

variable {ls : List (Label owner)}

variable {w' : World owner}

theorem Run.behind (hrun : Run caller (Timely caller) w ls w') (hn : Numbered w)
    (h : Behind caller w) : Numbered w' ∧ Behind caller w' := by
  induction hrun with
  | nil => exact ⟨hn, h⟩
  | cons henabled htimely _ ih => exact ih (hn.step henabled) (h.step hn htimely)

/-- While a revocation of the Agent is not delivered, every poll of a run takes the cursor further
towards it. -/
theorem Run.delivers (hrun : Run caller (Timely caller) w ls w') (hn : Numbered w)
    (h : Behind caller w) (hr : r ∈ w.rows) (hcovers : Covers caller r)
    (hpolls : r.seq ≤ w.cursor + ls.countP Label.isPoll) : Delivered w' r := by
  induction hrun with
  | nil =>
    exact (h r hr hcovers).resolve_right (not_lt.2 hpolls)
  | @cons w _ l _ henabled htimely _ ih =>
    refine ih (hn.step henabled) (h.step hn htimely) (mem_rows_step hr l) ?_
    have hle : w.cursor ≤ (w.step caller l).cursor := cursor_le_step hn l
    cases l with
    | poll clock =>
      rw [countP_cons_of_pos rfl] at hpolls
      by_cases hahead : w.cursor < r.seq
      · have hlt : w.cursor < (w.step caller (.poll clock)).cursor :=
          cursor_lt_poll hn htimely hr hcovers hahead clock
        omega
      · omega
    | insert | commit | rollback =>
      rw [countP_cons_of_neg (by simp [Label.isPoll])] at hpolls
      omega

theorem numbered_start (store : SecretStore) : Numbered (World.start owner store) :=
  ⟨nofun, nodup_nil⟩

/-- In every run whose commits and polls are timely, the cursor is never past a committed
revocation that covers a lease of the Agent and has not been returned, and such a revocation is
returned by the next polls, at the latest by as many as its number is ahead of the cursor. -/
theorem feed_skips_nothing {store : SecretStore} {w : World owner} {ls : List (Label owner)}
    (hrun : Run caller (Timely caller) (World.start owner store) ls w) :
    (∀ r ∈ w.rows, Covers caller r → Delivered w r ∨ w.cursor < r.seq) ∧
      ∀ ls' w', Run caller (Timely caller) w ls' w' → ∀ r ∈ w.rows, Covers caller r →
        r.seq ≤ w.cursor + ls'.countP Label.isPoll → Delivered w' r := by
  obtain ⟨hn, h⟩ := hrun.behind (numbered_start store) nofun
  exact ⟨h, fun _ _ hrun' r hr hcovers hpolls ↦ hrun'.delivers hn h hr hcovers hpolls⟩

end

/-! ## Two revocations of one Agent -/

namespace Sample

def owner (id : String) : Option String :=
  if id ∈ ["lease-1", "lease-2"] then some "agent-1" else none

def caller : Caller := ⟨"ws", "agent-1"⟩

def row (n : ℕ) (id : String) : Row owner :=
  { seq := n, workspaceId := "ws", kind := .task, targetId := "task-1", leaseIds := [id],
    reason := "TASK_ENDED", ofAgent := nofun }

def inserted : World owner where
  nextSeq := 3
  pending := [row 2 "lease-2", row 1 "lease-1"]
  rows := []
  watched := ⟨.empty, 0, []⟩

theorem run_inserted {C : World owner → Label owner → Prop} {ls : List (Label owner)}
    {w : World owner} (hC : ∀ w r, C w (.insert r)) (h : Run caller C inserted ls w) :
    Run caller C (World.start owner .empty)
      (.insert (row 1 "lease-1") :: .insert (row 2 "lease-2") :: ls) w :=
  .cons rfl (hC _ _) (.cons rfl (hC _ _) h)

def committed : World owner := inserted.step caller (.commit (row 1 "lease-1"))

theorem run_committed : Run caller (Timely caller) (World.start owner .empty)
    [.insert (row 1 "lease-1"), .insert (row 2 "lease-2"), .commit (row 1 "lease-1")] committed :=
  run_inserted (fun _ _ ↦ trivial)
    (.cons (mem_cons_of_mem _ mem_cons_self) (fun _ ↦ by decide) (.nil _))

theorem unblocked_committed : Unblocked caller committed := fun _ ↦
  ⟨row 1 "lease-1", mem_cons_self, by decide, by decide, by decide⟩

/-- The second revocation commits first and is polled, and then the first one commits. -/
def skipped : World owner :=
  ((inserted.step caller (.commit (row 2 "lease-2"))).step caller (.poll 0)).step caller
    (.commit (row 1 "lease-1"))

end Sample

open Sample

/-- A revocation that commits before the poll is returned by it. -/
theorem feed_skips_nothing_next_poll :
    Delivered (committed.step Sample.caller (.poll 0)) (row 1 "lease-1") :=
  (feed_skips_nothing run_committed).2 [.poll 0] _
    (.cons trivial unblocked_committed (.nil _)) _ mem_cons_self (by decide)
    (by decide)

/-- The revocation that takes the first number and commits after a poll has returned the second one
is never returned. -/
theorem late_commit_skipped : Run Sample.caller (fun _ _ ↦ True) (World.start Sample.owner .empty)
      [.insert (row 1 "lease-1"), .insert (row 2 "lease-2"),
        .commit (row 2 "lease-2"), .poll 0, .commit (row 1 "lease-1")]
      skipped ∧ row 1 "lease-1" ∈ skipped.rows ∧ Covers Sample.caller (row 1 "lease-1") ∧
    ¬(Delivered skipped (row 1 "lease-1") ∨ skipped.cursor < (row 1 "lease-1").seq) := by
  refine ⟨?_, mem_cons_self, by decide, by decide⟩
  refine run_inserted (fun _ _ ↦ trivial) ?_
  refine .cons mem_cons_self trivial (.cons trivial trivial (.cons ?_ trivial (.nil _)))
  exact mem_of_mem_erase (a := row 1 "lease-1") (b := row 2 "lease-2")
    (by decide)

end AgentColab.Secrets.Feed
