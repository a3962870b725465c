import AgentColab.Domain.Computation
import AgentColab.Enumeration.Cut
import AgentColab.Retention.Effect

/-!
# Holds and starvation

A pass selects, which locks the messages that it selects, and commits later. Policies can be set in
between, by transactions that do not wait for it.
-/

namespace AgentColab.Retention

open AgentColab Ledger List

/-! ## Passes under way -/

/-- A pass that has selected and not committed, with the tables that its selection read and the
messages that others had locked. -/
structure Pass where
  input : JobInput
  tables : Store
  locked : List String

def Pass.rows (p : Pass) : List Selected := p.tables.select p.input p.locked

def Pass.ids (p : Pass) : List String := p.rows.map (·.message.messageId)

structure World where
  db : Store
  now : Time
  passes : List Pass := []

def World.locked (w : World) : List String := w.passes.flatMap Pass.ids

inductive Label where
  | tick (d : ℕ)
  | setRetention (r : SetRetention)
  /-- The hold of a single message is set or lifted. -/
  | hold (messageId : String) (legalHold : Bool)
  /-- `others` are messages that other transactions have locked. -/
  | start (workspaceId : Uuid) (actorAccountId : String) (batch : ℕ) (others : List String)
  | finish (i : ℕ) (clocks : Clocks)
  | abort (i : ℕ)

def Message.setHold (messageId : String) (legalHold : Bool) (m : Message) : Message :=
  if m.messageId = messageId then { m with legalHold := legalHold } else m

def Store.setHold (s : Store) (messageId : String) (legalHold : Bool) : Store :=
  { s with
    messages := s.messages.map (Message.setHold messageId legalHold)
    messageIds := by
      have hids : (fun m : Message ↦ m.messageId) ∘ Message.setHold messageId legalHold =
          (·.messageId) := funext fun m ↦ by
        rw [Function.comp_apply, Message.setHold]
        split <;> rfl
      rw [List.map_map, hids]
      exact s.messageIds }

def World.pass (w : World) (workspaceId : Uuid) (actorAccountId : String) (batch : ℕ)
    (others : List String) : Pass :=
  ⟨⟨workspaceId, actorAccountId, w.now, batch⟩, w.db, w.locked ++ others⟩

variable (H : Hashes)

/-- What a pass leaves: a pass that raises is rolled back. -/
def Pass.run (p : Pass) (clocks : Clocks) (db : Store) : Store :=
  match retainRows H p.input clocks p.rows db {} with
  | .ok (db, _) => db
  | .error _ => db

def World.step (w : World) : Label → World
  | .tick d => { w with now := w.now + d }
  | .setRetention r =>
    match Retention.setRetention r w.db with
    | .ok db => { w with db := db }
    | .error _ => w
  | .hold messageId legalHold =>
    if messageId ∈ w.locked then w else { w with db := w.db.setHold messageId legalHold }
  | .start workspaceId actorAccountId batch others =>
    { w with passes := w.passes ++ [w.pass workspaceId actorAccountId batch others] }
  | .finish i clocks =>
    match w.passes[i]? with
    | none => w
    | some p => { w with db := p.run H clocks w.db, passes := w.passes.eraseIdx i }
  | .abort i => { w with passes := w.passes.eraseIdx i }

/-- The worlds that are reached by steps that satisfy `C`. -/
inductive Reached (C : World → Label → Prop) (w₀ : World) : World → Prop
  | refl : Reached C w₀ w₀
  | step {w : World} (l : Label) (hw : Reached C w₀ w) (hl : C w l) :
      Reached C w₀ (w.step H l)

variable {H}

/-! ## What a pass should do -/

/-- A message of the Workspace that is expired and not held. -/
structure Store.Waiting (s : Store) (inp : JobInput) (m : Message) : Prop where
  mem : m ∈ s.messages
  workspaceId : m.workspaceId = inp.workspaceId
  deletedAt : m.deletedAt = none
  expired : s.Expired inp.now m
  free : ¬s.Held m

/-- From one state to the next a message is deleted. -/
structure Deleted (s s' : Store) (m : Message) : Prop where
  mem : m ∈ s.messages
  deletedAt : m.deletedAt = none
  gone : ∃ m' ∈ s'.messages, m'.messageId = m.messageId ∧ m'.deletedAt ≠ none

/-- What is deleted is expired and not held by the tables at the commit. -/
def Respects (now : Time) (s s' : Store) : Prop :=
  ∀ m, Deleted s s' m → s.Expired now m ∧ ¬s.Held m

/-- If a message was waiting when the pass selected, the pass deletes one and destroys its key. -/
def Progresses (p : Pass) (s s' : Store) : Prop :=
  (∃ m, p.tables.Waiting p.input m) → ∃ m, Deleted s s' m ∧
    ∀ keyRef, m.bodyKeyRef.filter (· ≠ "") = some keyRef → s'.keys.Shredded keyRef

/-! ## When it does -/

/-- The number of messages that a selection has before this one. -/
def Store.blockers (s : Store) (inp : JobInput) (locked : List String) (m : Message) : ℕ :=
  ((s.messages.filter fun q ↦ q.Open inp locked).filter fun q ↦ q.rank < m.rank).length

/-- Where something is waiting, one of it is not locked and not behind a whole batch of messages. -/
def Unblocked (p : Pass) : Prop :=
  (∃ m, p.tables.Waiting p.input m) → ∃ m, p.tables.Waiting p.input m ∧
    m.messageId ∉ p.locked ∧ p.tables.blockers p.input p.locked m < p.input.batch

/-- The step does not reach what the job misses: a policy that is set leaves the messages that a
pass is about to destroy expired and free, a pass that starts is not blocked, and one that commits
can destroy the keys that it comes to. -/
def Meets (w : World) : Label → Prop
  | .setRetention r => ∀ db, setRetention r w.db = .ok db → ∀ p ∈ w.passes, ∀ x ∈ p.rows,
    x.Due p.input → parseUuid r.channelId = some x.message.channelId →
      r.legalHold = false ∧ x.message.receivedAt + days r.retentionDays < p.input.now
  | .start workspaceId actorAccountId batch others =>
    Unblocked (w.pass workspaceId actorAccountId batch others)
  | .finish i _ => ∀ p ∈ w.passes[i]?, ∀ x ∈ p.rows, x.Due p.input → CanDestroy p.input w.db x
  | _ => True

/-! ## The selection -/

section Selection

variable {s : Store} {inp : JobInput} {locked : List String}

/-- The messages that may be selected, in their order. -/
def Store.openMessages (s : Store) (inp : JobInput) (locked : List String) : List Message :=
  (s.messages.filter fun m ↦ m.Open inp locked).insertionSort fun a b ↦ a.rank ≤ b.rank

theorem mem_openMessages {m : Message} :
    m ∈ s.openMessages inp locked ↔ m ∈ s.messages ∧ m.Open inp locked := by
  rw [Store.openMessages, mem_insertionSort, mem_filter, decide_eq_true_eq]

theorem nodup_openMessages (s : Store) (inp : JobInput) (locked : List String) :
    ((s.openMessages inp locked).map (·.messageId)).Nodup := by
  rw [Store.openMessages,
    ((perm_insertionSort (fun a b : Message ↦ a.rank ≤ b.rank) _).map _).nodup_iff]
  exact s.messageIds.sublist (filter_sublist.map _)

theorem pairwise_openMessages :
    ((s.openMessages inp locked).map Message.rank).Pairwise (· < ·) := by
  let le : Message → Message → Prop := fun a b ↦ a.rank ≤ b.rank
  have : Std.Total le := ⟨fun a b ↦ le_total a.rank b.rank⟩
  have : IsTrans Message le := ⟨fun _ _ _ hab hbc ↦ le_trans hab hbc⟩
  have hsorted : (s.openMessages inp locked).Pairwise le := pairwise_insertionSort le _
  have hnodup := pairwise_map.1 (nodup_openMessages s inp locked)
  rw [pairwise_map]
  refine (hsorted.and hnodup).imp fun ⟨hle, hne⟩ ↦ lt_of_le_of_ne hle fun h ↦ hne ?_
  exact congrArg Prod.snd (toLex_inj.1 h)

theorem mem_select {x : Selected} : x ∈ s.select inp locked ↔ ∃ m ∈ s.messages, m.Open inp locked ∧
      s.blockers inp locked m < inp.batch ∧ s.join m = x := by
  rw [Store.select, List.mem_map]
  refine exists_congr fun m ↦ ?_
  have htake : m ∈ (s.openMessages inp locked).take inp.batch ↔
      (m ∈ s.messages ∧ m.Open inp locked) ∧ s.blockers inp locked m < inp.batch := by
    rw [Enumeration.mem_take_iff pairwise_openMessages, mem_openMessages, Store.openMessages,
      ((perm_insertionSort (fun a b : Message ↦ a.rank ≤ b.rank) _).filter _).length_eq,
      Store.blockers]
  exact (and_congr_left' htake).trans (by tauto)

theorem nodup_select : ((s.select inp locked).map (·.message.messageId)).Nodup := by
  rw [Store.select, List.map_map]
  exact (nodup_openMessages ..).sublist ((take_sublist _ _).map _)

end Selection

variable {p q : Pass} {x : Selected} {db s s' : Store} {now : Time} {m : Message} {w : World}
    {r : SetRetention} {i : ℕ}

theorem exists_due_iff :
    (∃ x ∈ p.rows, x.Due p.input) ↔ ∃ m, p.tables.Waiting p.input m ∧ m.messageId ∉ p.locked ∧
      p.tables.blockers p.input p.locked m < p.input.batch := by
  constructor
  · rintro ⟨x, hx, hdue⟩
    obtain ⟨m, hm, ⟨hws, hdeleted, hlocked⟩, hblockers, rfl⟩ := mem_select.1 hx
    obtain ⟨hexpired, hfree⟩ := due_join.1 hdue
    exact ⟨m, ⟨hm, hws, hdeleted, hexpired, hfree⟩, hlocked, hblockers⟩
  · rintro ⟨m, hm, hlocked, hblockers⟩
    exact ⟨p.tables.join m,
      mem_select.2 ⟨m, hm.mem, ⟨hm.workspaceId, hm.deletedAt, hlocked⟩, hblockers, rfl⟩,
      due_join.2 ⟨hm.expired, hm.free⟩⟩

/-! ## What holds between the selection and the commit -/

/-- The messages of a pass are as it selected them, and those that it is about to destroy may still
be destroyed. -/
structure Pass.Sound (p : Pass) (now : Time) (db : Store) : Prop where
  now : p.input.now ≤ now
  rows : ∀ x ∈ p.rows, x.message ∈ db.messages
  due : ∀ x ∈ p.rows, x.Due p.input →
    db.Expired p.input.now x.message ∧ (db.policyFor x.message.channelId).legalHold = false
  some : (∃ m, p.tables.Waiting p.input m) → ∃ x ∈ p.rows, x.Due p.input

def Apart (p q : Pass) : Prop := ∀ messageId ∈ p.ids, messageId ∉ q.ids

theorem Apart.symm (h : Apart p q) : Apart q p := fun _ hq hp ↦ h _ hp hq

structure World.Sound (w : World) : Prop where
  passes : ∀ p ∈ w.passes, p.Sound w.now w.db
  apart : w.passes.Pairwise Apart

theorem Pass.message_open (h : x ∈ p.rows) :
    x.message.workspaceId = p.input.workspaceId ∧ x.message.deletedAt = none ∧
      x.message.messageId ∉ p.locked ∧ x.message ∈ p.tables.messages ∧
      p.tables.join x.message = x := by
  obtain ⟨m, hm, ⟨hws, hdeleted, hlocked⟩, -, rfl⟩ := mem_select.1 h
  exact ⟨hws, hdeleted, hlocked, hm, rfl⟩

theorem Pass.mem_ids (h : x ∈ p.rows) : x.message.messageId ∈ p.ids := List.mem_map.2 ⟨x, h, rfl⟩

theorem policyFor_congr (h : s'.policies = s.policies) (channelId : Uuid) :
    s'.policyFor channelId = s.policyFor channelId := by
  rw [Store.policyFor, Store.policyFor, h]

theorem expired_congr (h : s'.policies = s.policies) : s'.Expired now m ↔ s.Expired now m := by
  rw [Store.Expired, Store.Expired, policyFor_congr h]

theorem Pass.Sound.congr {now' : Time} {db' : Store} (h : p.Sound now db) (hnow : now ≤ now')
    (hpolicies : db'.policies = db.policies) (hrows : ∀ x ∈ p.rows, x.message ∈ db'.messages) :
    p.Sound now' db' where
  now := h.now.trans hnow
  rows := hrows
  due x hx hdue := by
    rw [expired_congr hpolicies, policyFor_congr hpolicies]
    exact h.due x hx hdue
  some := h.some

theorem World.Sound.start (h : w.Sound) {workspaceId : Uuid} {actor : String} {batch : ℕ}
    {others : List String} (hunblocked : Unblocked (w.pass workspaceId actor batch others)) :
    (w.step H (.start workspaceId actor batch others)).Sound where
  passes := forall_mem_append.2 ⟨h.passes, forall_mem_singleton.2 {
    now := le_rfl
    rows := fun _ hx ↦ (Pass.message_open hx).2.2.2.1
    due := fun x hx hdue ↦ by
      rw [← (Pass.message_open hx).2.2.2.2, due_join] at hdue
      exact ⟨hdue.1, Bool.eq_false_iff.2 fun hheld ↦ hdue.2 (.inl hheld)⟩
    some := fun hsome ↦ exists_due_iff.2 (hunblocked hsome) }⟩
  apart := by
    refine pairwise_append.2 ⟨h.apart, pairwise_singleton .., fun p hp q hq ↦ ?_⟩
    obtain rfl := mem_singleton.1 hq
    rintro messageId hheld hid
    obtain ⟨x, hx, rfl⟩ := List.mem_map.1 hid
    exact (Pass.message_open hx).2.2.1 (mem_append_left _ (mem_flatMap.2 ⟨p, hp, hheld⟩))

theorem World.Sound.erase (h : w.Sound) (i : ℕ) :
    ({ w with passes := w.passes.eraseIdx i } : World).Sound where
  passes p hp := h.passes p (mem_of_mem_eraseIdx hp)
  apart := h.apart.sublist (eraseIdx_sublist ..)

theorem World.Sound.hold (h : w.Sound) {messageId : String} {legalHold : Bool}
    (hfree : messageId ∉ w.locked) :
    ({ w with db := w.db.setHold messageId legalHold } : World).Sound where
  passes p hp := (h.passes p hp).congr le_rfl rfl fun x hx ↦ by
    refine List.mem_map.2 ⟨x.message, (h.passes p hp).rows x hx, ?_⟩
    rw [Message.setHold, if_neg]
    rintro rfl
    exact hfree (mem_flatMap.2 ⟨p, hp, Pass.mem_ids hx⟩)
  apart := h.apart

theorem setRetention_eq_ok (h : setRetention r s = .ok s') :
    ∃ channelId, parseUuid r.channelId = some channelId ∧ s'.messages = s.messages ∧
      s'.policies = Function.update s.policies channelId
        (some ⟨channelId, r.retentionDays, r.legalHold, r.documentationPolicy⟩) := by
  rw [setRetention] at h
  split at h
  · cases h
  split at h
  · cases h
  split at h
  · cases h
  rename_i channelId hchannel
  split at h
  · cases h
  split at h
  · cases h
  split at h
  · cases h
  split at h
  · obtain rfl := Except.ok.inj h
    exact ⟨channelId, hchannel, rfl, rfl⟩
  · split at h
    · cases h
    · obtain rfl := Except.ok.inj h
      exact ⟨channelId, hchannel, rfl, rfl⟩

theorem World.Sound.setRetention (h : w.Sound) (hdb : Retention.setRetention r w.db = .ok db)
    (hmeets : ∀ p ∈ w.passes, ∀ x ∈ p.rows, x.Due p.input → parseUuid r.channelId = some
    x.message.channelId → r.legalHold = false ∧ x.message.receivedAt + days r.retentionDays <
    p.input.now) : ({ w with db := db } : World).Sound where
  passes p hp := by
    obtain ⟨channelId, hchannel, hmessages, hpolicies⟩ := setRetention_eq_ok hdb
    have hp' := h.passes p hp
    refine ⟨hp'.now, fun x hx ↦ hmessages ▸ hp'.rows x hx, fun x hx hdue ↦ ?_, hp'.some⟩
    by_cases hsame : x.message.channelId = channelId
    · have hpolicy : db.policyFor x.message.channelId =
          ⟨channelId, r.retentionDays, r.legalHold, r.documentationPolicy⟩ := by
        rw [Store.policyFor, hpolicies, hsame, Function.update_self]
        rfl
      obtain ⟨hfree, hexpired⟩ := hmeets p hp x hx hdue (by rw [hchannel, hsame])
      rw [Store.Expired, hpolicy]
      exact ⟨hexpired, hfree⟩
    · have hpolicy : db.policyFor x.message.channelId = w.db.policyFor x.message.channelId := by
        rw [Store.policyFor, hpolicies, Function.update_of_ne hsame]
        rfl
      rw [Store.Expired, hpolicy]
      exact hp'.due x hx hdue
  apart := h.apart

theorem Pass.run_eq (p : Pass) (clocks : Clocks) (db : Store) :
    p.run H clocks db = db ∨ RetainedAll p.input p.rows db (p.run H clocks db) := by
  rw [Pass.run]
  split
  · rename_i hrun
    exact .inr (retainRows_eq_ok hrun)
  · exact .inl rfl

theorem World.Sound.apart_erase (h : w.Sound) (hp : w.passes[i]? = some p)
    (hq : q ∈ w.passes.eraseIdx i) : Apart p q := by
  obtain ⟨hi, rfl⟩ := List.getElem?_eq_some_iff.1 hp
  have hperm := (getElem_cons_eraseIdx_perm hi).symm
  have hpairs := (hperm.pairwise_iff fun h ↦ Apart.symm h).1 h.apart
  exact (pairwise_cons.1 hpairs).1 q hq

theorem World.Sound.finish (h : w.Sound) {clocks : Clocks} (hp : w.passes[i]? = some p) :
    ({ w with db := p.run H clocks w.db, passes := w.passes.eraseIdx i } : World).Sound := by
  have herase := h.erase i
  refine ⟨fun q hq ↦ ?_, herase.apart⟩
  obtain hsame | hrun := p.run_eq (H := H) clocks w.db
  · rw [hsame]
    exact herase.passes q hq
  · refine (herase.passes q hq).congr le_rfl hrun.policies fun x hx ↦ ?_
    refine hrun.kept _ ((herase.passes q hq).rows x hx) fun y hy _ hid ↦ ?_
    exact h.apart_erase hp hq _ (Pass.mem_ids hy) (hid ▸ Pass.mem_ids hx)

theorem World.Sound.step (h : w.Sound) {l : Label} (hmeets : Meets w l) : (w.step H l).Sound := by
  cases l with
  | tick d =>
    exact ⟨fun p hp ↦ (h.passes p hp).congr (Int.le_add_of_nonneg_right (Int.natCast_nonneg d)) rfl
      (h.passes p hp).rows, h.apart⟩
  | setRetention r =>
    rw [World.step]
    split
    · rename_i hdb
      exact h.setRetention hdb (hmeets _ hdb)
    · exact h
  | hold messageId legalHold =>
    rw [World.step]
    split
    · exact h
    · rename_i hfree
      exact h.hold hfree
  | start => exact h.start hmeets
  | finish i clocks =>
    rw [World.step]
    split
    · exact h
    · rename_i hp
      exact h.finish hp
  | abort i => exact h.erase i

theorem Reached.sound {w₀ : World} (h : Reached H Meets w₀ w) (hw₀ : w₀.passes = []) : w.Sound := by
  induction h with
  | refl => exact ⟨by rw [hw₀]; exact fun p hp ↦ absurd hp not_mem_nil, by simp [hw₀]⟩
  | step l _ hl ih => exact ih.step hl

/-! ## The commit -/

theorem RetainedAll.due_of_deleted (h : RetainedAll p.input p.rows s s')
    (hrows : ∀ x ∈ p.rows, x.message ∈ s.messages) (hm : Deleted s s' m) :
    ∃ x ∈ p.rows, x.Due p.input ∧ x.message = m := by
  by_contra hnone
  have hkept := h.kept m hm.mem fun x hx hdue hid ↦
    hnone ⟨x, hx, hdue, inj_on_of_nodup_map s.messageIds (hrows x hx) hm.mem hid⟩
  obtain ⟨m', hm', hid, hdeleted⟩ := hm.gone
  obtain rfl := inj_on_of_nodup_map s'.messageIds hm' hkept hid
  exact hdeleted hm.deletedAt

theorem Pass.Sound.respects (h : p.Sound now db) (clocks : Clocks) :
    Respects now db (p.run H clocks db) := by
  intro m hm
  obtain hsame | hrun := p.run_eq (H := H) clocks db
  · obtain ⟨m', hm', hid, hdeleted⟩ := hm.gone
    rw [hsame] at hm'
    obtain rfl := inj_on_of_nodup_map db.messageIds hm' hm.mem hid
    exact absurd hm.deletedAt hdeleted
  · obtain ⟨x, hx, hdue, rfl⟩ := hrun.due_of_deleted h.rows hm
    obtain ⟨hexpired, hfree⟩ := h.due x hx hdue
    refine ⟨lt_of_lt_of_le hexpired h.now, ?_⟩
    rintro (hheld | hheld)
    · exact Bool.false_ne_true (hfree.symm.trans hheld)
    · exact Bool.false_ne_true (hdue.2.2.symm.trans hheld)

theorem Pass.Sound.progresses (h : p.Sound now db) (clocks : Clocks)
    (hcan : ∀ x ∈ p.rows, x.Due p.input → CanDestroy p.input db x) :
    Progresses p db (p.run H clocks db) := by
  intro hsome
  obtain ⟨x, hx, hdue⟩ := h.some hsome
  obtain ⟨⟨db', report⟩, hrun⟩ := exists_retainRows (H := H) clocks {} nodup_select hcan
  have heq : p.run H clocks db = db' := by rw [Pass.run, Pass.rows, hrun]
  have hall := retainRows_eq_ok hrun
  rw [heq]
  exact ⟨x.message, ⟨h.rows x hx, (Pass.message_open hx).2.1,
    hall.redacted _ (h.rows x hx) ⟨x, hx, hdue, rfl⟩⟩, hall.shredded x hx hdue⟩

/-- **Along such steps, what a pass destroys is expired and free at its commit, and a pass destroys
something if anything was waiting for it.** -/
theorem pass_respects_and_progresses {w₀ w : World} (hw₀ : w₀.passes = [])
    (h : Reached H Meets w₀ w) {i : ℕ} {clocks : Clocks} {p : Pass} (hp : w.passes[i]? = some p)
    (hmeets : Meets w (.finish i clocks)) : Respects w.now w.db (w.step H (.finish i clocks)).db ∧
      Progresses p w.db (w.step H (.finish i clocks)).db := by
  have hsound := (h.sound hw₀).passes p (mem_of_getElem? hp)
  have hdb : (w.step H (.finish i clocks)).db = p.run H clocks w.db := by rw [World.step, hp]
  rw [hdb]
  exact ⟨hsound.respects clocks, hsound.progresses clocks (hmeets p hp)⟩

/-! ## What was destroyed is accounted for -/

/-- The tombstones are a chain, and a deleted message is redacted and names its tombstone. -/
structure Accounted (H : Hashes) (s : Store) : Prop where
  chained : Chained H.sha256 messageTombstoneChain none s.tombstones
  deleted : ∀ m ∈ s.messages, m.deletedAt ≠ none → m.bodyRedacted = "REDACTED_BY_RETENTION" ∧
    ∃ row ∈ s.tombstones, row.fields.messageId = m.messageId ∧
      m.tombstoneRef = some row.contentHash

/-- Nothing is deleted, and the tombstones stay. -/
theorem Accounted.congr {s s' : Store} (h : Accounted H s) (htombstones : s'.tombstones =
    s.tombstones) (hmessages : ∀ m' ∈ s'.messages, ∃ m ∈ s.messages, m'.messageId = m.messageId ∧
      m'.deletedAt = m.deletedAt ∧ m'.bodyRedacted = m.bodyRedacted ∧
      m'.tombstoneRef = m.tombstoneRef) : Accounted H s' where
  chained := by
    rw [htombstones]
    exact h.chained
  deleted m' hm' hdeleted := by
    obtain ⟨m, hm, hid, hat, hbody, href⟩ := hmessages m' hm'
    rw [hid, hbody, href, htombstones]
    exact h.deleted m hm (hat ▸ hdeleted)

theorem Accounted.row {inp : JobInput} {clocks : Clocks} {x : Selected} {s s' : Store}
    {report report' : RetentionReport} (h : Accounted H s)
    (hrow : retainRow H inp clocks x s report = .ok (s', report')) :
    Accounted H s' ∧ s.tombstones <+: s'.tombstones := by
  rw [retainRow] at hrow
  split at hrow
  · cases hrow
    exact ⟨h, prefix_rfl⟩
  split at hrow
  · cases hrow
    exact ⟨h, prefix_rfl⟩
  obtain ⟨keys, -, hrow⟩ := bind_eq_ok.1 hrow
  obtain ⟨⟨hash, s₁⟩, happend, hrow⟩ := bind_eq_ok.1 hrow
  cases hrow
  rw [appendTombstone] at happend
  split at happend
  · cases happend
  next hhash =>
    split at happend
    · cases happend
    · cases happend
      refine ⟨⟨?_, fun m hm hdeleted ↦ ?_⟩, prefix_append _ _⟩
      · refine chained_concat.2 ⟨h.chained, ?_, ?_⟩
        · rw [headHash, Option.or_none]
        · rw [headHash, Option.or_none]
          exact hhash
      · obtain ⟨m₀, hm₀, rfl⟩ := List.mem_map.1 hm
        rw [Message.redact] at hdeleted ⊢
        split_ifs at hdeleted ⊢ with hid
        · exact ⟨rfl, _, mem_append_right _ (mem_singleton_self _), hid.symm, rfl⟩
        · obtain ⟨hbody, row, hrow, hrest⟩ := h.deleted m₀ hm₀ hdeleted
          exact ⟨hbody, row, mem_append_left _ hrow, hrest⟩

theorem Accounted.rows {inp : JobInput} {clocks : Clocks} {rows : List Selected} {s s' : Store}
    {report report' : RetentionReport} (h : Accounted H s)
    (hrows : retainRows H inp clocks rows s report = .ok (s', report')) :
    Accounted H s' ∧ s.tombstones <+: s'.tombstones := by
  induction rows generalizing s report with
  | nil =>
    cases hrows
    exact ⟨h, prefix_rfl⟩
  | cons x _ ih =>
    obtain ⟨⟨s₁, report₁⟩, hrow, hrows⟩ := bind_eq_ok.1 hrows
    obtain ⟨hfirst, hgrown⟩ := h.row hrow
    obtain ⟨hlast, hgrown'⟩ := ih hfirst hrows
    exact ⟨hlast, hgrown.trans hgrown'⟩

theorem tombstones_setRetention {r : SetRetention} {s s' : Store} (h : setRetention r s = .ok s') :
    s'.tombstones = s.tombstones := by
  rw [setRetention] at h
  split_ifs at h
  repeat' split at h
  all_goals cases h <;> rfl

theorem Accounted.step {w : World} (h : Accounted H w.db) (l : Label) :
    Accounted H (w.step H l).db ∧ w.db.tombstones <+: (w.step H l).db.tombstones := by
  cases l with
  | tick | start | abort => exact ⟨h, prefix_rfl⟩
  | setRetention r =>
    rw [World.step]
    split
    next db hset =>
      obtain ⟨-, -, hmessages, -⟩ := setRetention_eq_ok hset
      have htombstones := tombstones_setRetention hset
      refine ⟨h.congr htombstones fun m hm ↦ ⟨m, hmessages ▸ hm, rfl, rfl, rfl, rfl⟩, ?_⟩
      rw [htombstones]
    next => exact ⟨h, prefix_rfl⟩
  | hold messageId legalHold =>
    rw [World.step]
    split_ifs
    · exact ⟨h, prefix_rfl⟩
    · refine ⟨h.congr rfl fun m' hm' ↦ ?_, prefix_rfl⟩
      obtain ⟨m, hm, rfl⟩ := List.mem_map.1 hm'
      refine ⟨m, hm, ?_⟩
      rw [Message.setHold]
      split_ifs <;> exact ⟨rfl, rfl, rfl, rfl⟩
  | finish i clocks =>
    rw [World.step]
    split
    · exact ⟨h, prefix_rfl⟩
    next p _ =>
      change Accounted H (p.run H clocks w.db) ∧ _ <+: (p.run H clocks w.db).tombstones
      rw [Pass.run]
      split
      next hrows => exact h.rows hrows
      next => exact ⟨h, prefix_rfl⟩

/-- **What retention has destroyed is accounted for**, in every interleaving of passes with holds
and settings: the chain of tombstones verifies and only grows, and every deleted message is redacted
and names a tombstone of its own. -/
theorem retention_accounted {w₀ w : World} (hw₀ : Accounted H w₀.db)
    (h : Reached H (fun _ _ ↦ True) w₀ w) :
    messageTombstoneChain.verifyChainFrom H.sha256 none w.db.tombstones = .ok [] ∧
      w₀.db.tombstones <+: w.db.tombstones ∧ Accounted H w.db := by
  suffices Accounted H w.db ∧ w₀.db.tombstones <+: w.db.tombstones from
    ⟨verifyChainFrom_eq_nil_iff.2 this.1.chained, this.2, this.1⟩
  induction h with
  | refl => exact ⟨hw₀, prefix_rfl⟩
  | step l _ _ ih =>
    obtain ⟨hstep, hgrown⟩ := ih.1.step l
    exact ⟨hstep, ih.2.trans hgrown⟩

namespace Sample

def workspace : Uuid := ⟨"1b1b1b1b-0000-4000-8000-00000000001b", by decide⟩

def channel : Uuid := ⟨"0c0c0c0c-0000-4000-8000-00000000000c", by decide⟩

def admin : Uuid := ⟨"0d0d0d0d-0000-4000-8000-00000000000d", by decide⟩

/-- A message without a key that was received at time zero. -/
def message : Message where
  messageId := "msg-1"
  workspaceId := workspace
  channelId := channel
  bodyRedacted := "hello"
  bodyKeyRef := none
  receivedAt := 0

def store : Store where
  channels := [⟨channel, workspace, 365, false⟩]
  messages := [message]
  keys := { workspaces := [workspace], accounts := [admin] }
  messageIds := by decide

def putOnHold : SetRetention where
  channelId := channel.text
  retentionDays := 365
  legalHold := true
  changedBy := admin.text

/-- A pass has started 400 days after the message was received. -/
def started : World :=
  (World.mk store (days 400) []).step Ledger.Sample.hashes (.start workspace admin.text 1000 [])

def held : World := started.step Ledger.Sample.hashes (.setRetention putOnHold)

def readings : Clocks := ⟨days 400, dateTime (days 400)⟩

def pass : Pass := (World.mk store (days 400) []).pass workspace admin.text 1000 []

theorem setRetention_putOnHold :
    setRetention putOnHold store = .ok (store.setPolicy putOnHold channel workspace) := by
  have hchannel : parseUuid putOnHold.channelId = some channel :=
    parseUuid_of_isUuidText channel.canonical
  have hadmin : parseUuid putOnHold.changedBy = some admin := parseUuid_of_isUuidText admin.canonical
  rw [setRetention, if_neg (by decide), if_neg (by decide), hchannel, hadmin]
  rfl

theorem db_held : held.db = store.setPolicy putOnHold channel workspace := by
  rw [held, World.step, show started.db = store from rfl, setRetention_putOnHold]

theorem due_pass : store.join message ∈ pass.rows ∧ (store.join message).Due pass.input := by
  refine ⟨mem_select.2 ⟨message, mem_cons_self, by decide, by decide, rfl⟩, ?_⟩
  exact ⟨by decide, rfl, rfl⟩

theorem passes_held : held.passes = [pass] := by
  rw [held, World.step, show started.db = store from rfl, setRetention_putOnHold]
  rfl

theorem canDestroy (db : Store) (h : db.tombstones = []) (hx : x ∈ pass.rows) :
    CanDestroy pass.input db x := by
  obtain ⟨m, hm, -, -, rfl⟩ := mem_select.1 hx
  obtain rfl := mem_singleton.1 hm
  exact ⟨nofun, by simp [h]⟩

theorem unblocked_pass : Unblocked pass := fun _ ↦
  exists_due_iff.1 ⟨store.join message, due_pass⟩

theorem deleted_message :
    Deleted held.db (pass.run Ledger.Sample.hashes readings held.db) message := by
  rw [db_held]
  obtain ⟨⟨db', report⟩, hrun⟩ := exists_retainRows (H := Ledger.Sample.hashes)
    (s := store.setPolicy putOnHold channel workspace) readings {} nodup_select
    fun x hx _ ↦ canDestroy _ rfl hx
  have heq : pass.run Ledger.Sample.hashes readings (store.setPolicy putOnHold channel workspace) =
      db' := by
    rw [Pass.run, Pass.rows, hrun]
  rw [heq]
  exact ⟨mem_cons_self, rfl, (retainRows_eq_ok hrun).redacted message mem_cons_self
    ⟨_, due_pass.1, due_pass.2, rfl⟩⟩

end Sample

open Sample in
theorem pass_respects_and_progresses_started :
    Respects (days 400) store (started.step Ledger.Sample.hashes (.finish 0 clocks)).db ∧
      Progresses pass store (started.step Ledger.Sample.hashes (.finish 0 clocks)).db :=
  pass_respects_and_progresses (w := started) rfl
    (.step (.start workspace admin.text 1000 []) .refl unblocked_pass) rfl
    fun p hp x hx _ ↦ by
      obtain rfl := Option.some.inj (Option.mem_def.1 hp)
      exact canDestroy _ rfl hx

open Sample in
/-- A hold that is set while a pass is under way does not keep it from destroying the message. -/
theorem not_pass_respects_and_progresses : ¬∀ (H : Hashes) (w₀ w : World) (i : ℕ) (clocks : Clocks)
    (p : Pass), w₀.passes = [] → Reached H (fun _ _ ↦ True) w₀ w → w.passes[i]? = some p →
      Respects w.now w.db (w.step H (.finish i clocks)).db ∧
        Progresses p w.db (w.step H (.finish i clocks)).db := by
  intro h
  have hpass : held.passes[0]? = some pass := by rw [passes_held]; rfl
  have hrespects := (h Ledger.Sample.hashes ⟨store, days 400, []⟩ held 0 clocks pass rfl
    (.step (.setRetention putOnHold) (.step (.start workspace admin.text 1000 []) .refl trivial)
      trivial) hpass).1
  rw [World.step, hpass] at hrespects
  refine (hrespects message deleted_message).2 (.inl ?_)
  rw [db_held]
  rfl

open Sample in
theorem retention_accounted_finished : Accounted Ledger.Sample.hashes
    (started.step Ledger.Sample.hashes (.finish 0 readings)).db :=
  have hstart : Accounted Ledger.Sample.hashes store := ⟨trivial, by decide⟩
  have hreached : Reached Ledger.Sample.hashes (fun _ _ ↦ True) ⟨store, days 400, []⟩ _ :=
    .step (.finish 0 readings) (.step (.start workspace admin.text 1000 []) .refl trivial) trivial
  (retention_accounted hstart hreached).2.2

end AgentColab.Retention
