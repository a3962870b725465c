import AgentColab.Outbox.Drain

/-!
# One send for a key, across rollbacks and restarts

A pass of the channel drain is one transaction. What has been sent lives in the memory of the
process: a pass that is rolled back leaves its rows pending, and the process answers them from its
memory; one that does not remember them sends them again.
-/

namespace AgentColab.Outbox

open List

/-! ## Providers with a memory -/

/-- The channel provider of Mattermost, unlike those of the bridge, also looks for a post that is
recorded as sent. -/
inductive ProviderKind where
  | bridge
  | channel

/-- `delivered` of the providers of a process, by the prefix of the provider and the key. -/
abbrev Memory := List ((String × String) × String)

/-- What becomes of a request: the outside accepts it and the answer arrives, it accepts it and the
call raises, or it does not accept it. -/
inductive Outcome where
  | accepted (postId : String)
  | lost (error : String)
  | refused (error : String)

/-- The result of an earlier send of this row, where the provider knows one. -/
def prior (kind : ProviderKind) (t : Tables) (memory : Memory) (r : Row) : Option String :=
  match memory.lookup (destinationPrefix r.destination, r.dedupeKey) with
  | some postId => some postId
  | none =>
    match kind with
    | .bridge => none
    | .channel =>
      (t.posts.find? fun p ↦ p.dedupeKey = r.dedupeKey ∧ p.status = .sent ∧
        p.postId.isSome).bind (·.postId)

/-- What a call of `deliver` returns, what the process remembers afterwards, and the keys that the
outside has accepted. -/
def deliver (kind : ProviderKind) (t : Tables) (memory : Memory) (r : Row) (outcome : Outcome) :
    Except String String × Memory × List String :=
  match prior kind t memory r with
  | some postId => (.ok postId, memory, [])
  | none =>
    match outcome with
    | .accepted postId =>
      (.ok postId, ((destinationPrefix r.destination, r.dedupeKey), postId) :: memory,
        [r.dedupeKey])
    | .lost error => (.error error, memory, [r.dedupeKey])
    | .refused error => (.error error, memory, [])

/-! ## Passes -/

/-- A pass in progress, with the memory of its process and the log of what was accepted. -/
structure Sending where
  pass : Pass
  memory : Memory
  accepted : List String

section

variable (installed : String → Option ProviderKind)

/-- The call for one row; `t` are the tables that other transactions see. -/
def callRow (t : Tables) (outcome : Row → Outcome) (memory : Memory) (r : Row) :
    Except String String × Memory × List String :=
  match installed (destinationPrefix r.destination) with
  | none => (.error "", memory, [])
  | some kind =>
    if startsWith r.kind channelKinds then deliver kind t memory r (outcome r)
    else (.error "", memory, [])

/-- The body of the loop of `drain_channels` over providers with a memory. -/
def sendRow (inp : Input) (t : Tables) (outcome : Row → Outcome) (s : Sending) (r : Row) :
    Sending :=
  let call := callRow installed t outcome s.memory r
  { pass := deliverRow inp .channel
      (fun key ↦ (installed key).map fun _ ↦ fun _ ↦ call.1) channelKinds s.pass r
    memory := call.2.1
    accepted := s.accepted ++ call.2.2 }

/-- A pass commits after its last row, or it is rolled back when it has reached some of them. -/
inductive Ending where
  | commit
  | rollback (reached : ℕ)

def reachedRows (t : Tables) (inp : Input) : Ending → List Row
  | .commit => t.select inp
  | .rollback reached => (t.select inp).take reached

/-- The table, the memory of each process, and the keys that the outside has accepted, in order. -/
structure World where
  tables : Tables
  memory : ℕ → Memory
  accepted : List String

/-- A pass of a process, a restart of a process, and the writes of everything else. -/
inductive Label where
  | pass (process : ℕ) (inp : Input) (outcome : Row → Outcome) (ending : Ending)
  | restart (process : ℕ)
  | write (t : Tables)

/-- The unique index of the table. -/
def UniqueKeys (t : Tables) : Prop := (t.rows.map (·.dedupeKey)).Nodup

def World.sending (w : World) (process : ℕ) (inp : Input) (outcome : Row → Outcome)
    (ending : Ending) : Sending :=
  (reachedRows w.tables inp ending).foldl (sendRow installed inp w.tables outcome)
    ⟨⟨w.tables, {}, []⟩, w.memory process, w.accepted⟩

def World.step (w : World) : Label → World
  | .pass process inp outcome ending =>
    let s := w.sending installed process inp outcome ending
    { tables :=
        match ending with
        | .commit => s.pass.tables
        | .rollback _ => w.tables
      memory := Function.update w.memory process s.memory
      accepted := s.accepted }
  | .restart process => { w with memory := Function.update w.memory process [] }
  | .write t => { w with tables := t }

/-- What is written keeps the unique index. -/
def Label.Enabled : Label → Prop
  | .write t => UniqueKeys t
  | _ => True

def Hands (r : Row) (kind : ProviderKind) : Prop :=
  installed (destinationPrefix r.destination) = some kind ∧ startsWith r.kind channelKinds = true

/-- A process that drains remembers the keys that were accepted, among the rows that it reaches. -/
def Remembers (w : World) : Label → Prop
  | .pass process inp _ ending =>
    ∀ r ∈ reachedRows w.tables inp ending, ∀ kind, Hands installed r kind →
      r.dedupeKey ∈ w.accepted → (prior kind w.tables (w.memory process) r).isSome = true
  | .restart _ => True
  | .write _ => True

inductive SendRun (C : World → Label → Prop) : World → List Label → World → Prop
  | nil (w : World) : SendRun C w [] w
  | cons {w w' : World} {l : Label} {ls : List Label} (henabled : l.Enabled) (hC : C w l)
      (h : SendRun C (w.step installed l) ls w') : SendRun C w (l :: ls) w'

/-- Nothing has been sent, and no process remembers anything. -/
def World.start (t : Tables) : World := ⟨t, fun _ ↦ [], []⟩

end

/-! ## One row -/

section

variable {installed : String → Option ProviderKind} {inp : Input} {t : Tables}
  {outcome : Row → Outcome}

/-- A memory that has grown still knows what it knew. -/
def Memory.Extends (m m' : Memory) : Prop :=
  ∀ key, (m.lookup key).isSome = true → (m'.lookup key).isSome = true

variable {m : Memory} {w : World}

theorem prior_extends {m' : Memory} (h : m.Extends m') {kind : ProviderKind} {r : Row}
    (hprior : (prior kind t m r).isSome = true) : (prior kind t m' r).isSome = true := by
  unfold prior at hprior ⊢
  cases hm' : m'.lookup (destinationPrefix r.destination, r.dedupeKey) with
  | some => rfl
  | none =>
    have hm : m.lookup (destinationPrefix r.destination, r.dedupeKey) = none := by
      by_contra hne
      have := h _ (Option.isSome_iff_ne_none.2 hne)
      rw [hm'] at this
      cases this
    rwa [hm] at hprior

theorem deliver_extends (kind : ProviderKind) (m : Memory) (r : Row) (o : Outcome) :
    m.Extends (deliver kind t m r o).2.1 := by
  unfold deliver
  split
  · exact fun _ h ↦ h
  · split
    · intro key h
      rw [lookup_cons]
      split
      · rfl
      · exact h
    · exact fun _ h ↦ h
    · exact fun _ h ↦ h

theorem callRow_extends (m : Memory) (r : Row) :
    m.Extends (callRow installed t outcome m r).2.1 := by
  unfold callRow
  split
  · exact fun _ h ↦ h
  · split_ifs
    · exact deliver_extends _ _ _ _
    · exact fun _ h ↦ h

/-- What a call adds to the log is the key of its row, and nothing when the row is remembered. -/
theorem callRow_accepted (installed : String → Option ProviderKind) (t : Tables)
    (outcome : Row → Outcome) (m : Memory) (r : Row) : (callRow installed t outcome m r).2.2 = [] ∨
      ∃ kind, Hands installed r kind ∧ (prior kind t m r).isSome = false ∧
        (callRow installed t outcome m r).2.2 = [r.dedupeKey] := by
  unfold callRow
  split
  · exact .inl rfl
  · rename_i kind hkind
    split_ifs with hstarts
    · unfold deliver
      cases hprior : prior kind t m r with
      | some => exact .inl rfl
      | none =>
        cases outcome r with
        | accepted => exact .inr ⟨kind, ⟨hkind, hstarts⟩, by rw [hprior]; rfl, rfl⟩
        | lost => exact .inr ⟨kind, ⟨hkind, hstarts⟩, by rw [hprior]; rfl, rfl⟩
        | refused => exact .inl rfl
    · exact .inl rfl

/-! ## A pass -/

theorem nodup_sendRows (rows : List Row) :
    ∀ {s : Sending}, (rows.map (·.dedupeKey)).Nodup → m.Extends s.memory → s.accepted.Nodup →
      (∀ r ∈ rows, ∀ kind, Hands installed r kind → r.dedupeKey ∈ s.accepted →
        (prior kind w.tables m r).isSome = true) →
      (rows.foldl (sendRow installed inp w.tables outcome) s).accepted.Nodup := by
  induction rows with
  | nil => exact fun _ _ h _ ↦ h
  | cons r _ ih =>
    intro s hkeys hext hnodup hremembers
    obtain ⟨hr, hkeys⟩ := nodup_cons.1 hkeys
    have hext' : m.Extends (sendRow installed inp w.tables outcome s r).memory :=
      fun key h ↦ callRow_extends s.memory r key (hext key h)
    refine ih hkeys hext' ?_ fun q hq kind hhands hmem ↦ ?_
    · change (s.accepted ++ _).Nodup
      rcases callRow_accepted installed w.tables outcome s.memory r with hnone | ⟨kind, hhands, hprior, hone⟩
      · rwa [hnone, append_nil]
      · rw [hone, nodup_append_comm, singleton_append, nodup_cons]
        refine ⟨fun hmem ↦ ?_, hnodup⟩
        -- a key that was accepted before is remembered, so there was no call
        have := prior_extends hext (hremembers r mem_cons_self kind hhands hmem)
        rw [hprior] at this
        cases this
    · have hmem' : q.dedupeKey ∈ s.accepted ∨ q.dedupeKey ∈
          (callRow installed w.tables outcome s.memory r).2.2 := mem_append.1 hmem
      refine hremembers q (mem_cons_of_mem _ hq) kind hhands (hmem'.resolve_right fun hnew ↦ ?_)
      rcases callRow_accepted installed w.tables outcome s.memory r with hnone | ⟨_, -, -, hone⟩
      · rw [hnone] at hnew
        cases hnew
      · rw [hone, mem_singleton] at hnew
        exact hr (List.mem_map.2 ⟨q, hq, hnew⟩)

theorem nodup_keys_select (h : UniqueKeys t) : ((t.select inp).map (·.dedupeKey)).Nodup := by
  have hperm : (t.due inp).Perm (t.rows.filter fun r ↦ r.Due inp) := perm_insertionSort _ _
  have hdue : ((t.due inp).map (·.dedupeKey)).Nodup :=
    (hperm.map _).nodup_iff.2 (h.sublist (filter_sublist.map _))
  exact hdue.sublist ((take_sublist _ _).map _)

theorem nodup_keys_reachedRows (h : UniqueKeys t) (ending : Ending) :
    ((reachedRows t inp ending).map (·.dedupeKey)).Nodup := by
  cases ending with
  | commit => exact nodup_keys_select h
  | rollback => exact (nodup_keys_select h).sublist ((take_sublist _ _).map _)

theorem keys_update (i : ℕ) (f : Delivery → Delivery) :
    ((t.update i f).rows.map (·.dedupeKey)) = t.rows.map (·.dedupeKey) := by
  rw [Tables.update, List.map_map]
  refine map_congr_left fun r _ ↦ ?_
  simp only [Function.comp_apply]
  split <;> rfl

theorem keys_deliverRow {family : Family} {providers : String → Option ChannelProvider}
    {kinds : List String} (p : Pass) (r : Row) :
    (deliverRow inp family providers kinds p r).tables.rows.map (·.dedupeKey) =
      p.tables.rows.map (·.dedupeKey) := by
  unfold deliverRow
  split
  · rfl
  · split
    · rfl
    · split
      · dsimp only
        split_ifs <;> exact keys_update _ _
      · exact keys_update _ _

theorem keys_sendRows (rows : List Row) (t : Tables) :
    ∀ {s : Sending}, (rows.foldl (sendRow installed inp t outcome) s).pass.tables.rows.map
      (·.dedupeKey) = s.pass.tables.rows.map (·.dedupeKey) := by
  induction rows with
  | nil => exact rfl
  | cons r _ ih => exact ih.trans (keys_deliverRow _ r)

/-! ## Runs -/

/-- The keys are unique in the table, and none is twice in the log. -/
structure SentOnce (w : World) : Prop where
  unique : UniqueKeys w.tables
  once : w.accepted.Nodup

theorem SentOnce.step (h : SentOnce w) {l : Label} (henabled : l.Enabled)
    (hremembers : Remembers installed w l) : SentOnce (w.step installed l) := by
  cases l with
  | restart => exact ⟨h.unique, h.once⟩
  | write => exact ⟨henabled, h.once⟩
  | pass process inp outcome ending =>
    constructor
    · cases ending with
      | commit =>
        change ((w.sending installed process inp outcome .commit).pass.tables.rows.map _).Nodup
        rw [World.sending, keys_sendRows]
        exact h.unique
      | rollback => exact h.unique
    · exact nodup_sendRows _ (nodup_keys_reachedRows h.unique ending) (fun _ h ↦ h) h.once
        hremembers

theorem SentOnce.run {w' : World} {ls : List Label} (h : SentOnce w)
    (hrun : SendRun installed (Remembers installed) w ls w') : SentOnce w' := by
  induction hrun with
  | nil => exact h
  | cons henabled hremembers _ ih => exact ih (h.step henabled hremembers)

/-- In every run whose passes remember what was accepted among the rows they reach, no key is
accepted twice. -/
theorem one_send_per_key {t : Tables} {w : World} {ls : List Label} (hunique : UniqueKeys t)
    (hrun : SendRun installed (Remembers installed) (.start t) ls w) : w.accepted.Nodup :=
  (SentOnce.run ⟨hunique, nodup_nil⟩ hrun).once

end

/-! ## A rollback and a restart -/

namespace Sample

def installedBridges (key : String) : Option ProviderKind :=
  if key = "mattermost" then some .bridge else none

def cardRow : Row where
  id := 1
  outboxId := "obx-1"
  workspaceId := "ws"
  kind := "mattermost.post"
  destination := "mattermost:town"
  dedupeKey := "card:task-1"
  createdAt := 0
  delivery := { nextAttemptAt := 0 }

def cards : Tables := { rows := [cardRow] }

def cardPass (process : ℕ) (ending : Ending) : Label :=
  .pass process { workspaceId := "ws", now := 0, batch := 100 } (fun _ ↦ .accepted "post-1") ending

/-- The card has been sent by a pass that was rolled back. -/
def rolledBack : World := (World.start cards).step installedBridges (cardPass 0 (.rollback 1))

theorem remembers_rolledBack : Remembers installedBridges rolledBack (cardPass 0 .commit) := by
  intro r hr kind hhands _
  have hcard : r = cardRow := mem_singleton.1 hr
  subst hcard
  have hkind : kind = .bridge := (Option.some.inj hhands.1).symm
  subst hkind
  decide

end Sample

open Sample

/-- The process that has sent the card answers it from its memory after the rollback. -/
theorem one_send_after_rollback :
    (rolledBack.step installedBridges (cardPass 0 .commit)).accepted.Nodup := by
  have hrun : SendRun installedBridges (Remembers installedBridges)
      (.start cards) [cardPass 0 (.rollback 1), cardPass 0 .commit] _ :=
    .cons trivial (fun _ _ _ _ h ↦ absurd h not_mem_nil)
      (.cons trivial remembers_rolledBack (.nil _))
  exact one_send_per_key (t := cards) (nodup_singleton _) hrun

/-- A pass is rolled back after the send, the process restarts, and the next pass sends again. -/
theorem restart_sends_twice : ∃ w, SendRun installedBridges (fun _ _ ↦ True) (.start cards)
        [cardPass 0 (.rollback 1), .restart 0, cardPass 0 .commit] w ∧
      w.accepted = ["card:task-1", "card:task-1"] ∧ ¬w.accepted.Nodup :=
  ⟨_, .cons trivial trivial (.cons trivial trivial (.cons trivial trivial (.nil _))),
    by decide, by decide⟩

end AgentColab.Outbox
