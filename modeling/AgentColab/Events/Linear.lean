import AgentColab.Events.AppendProtocol
import Mathlib.Data.List.Pairwise

/-!
# `append` is linearizable per aggregate and idempotent per key

The invariant `Sound`: no two events share a key or a number in their aggregate, and every event is
the first of its aggregate or is linked to an event that is there. An open session keeps the same of
its view.
-/

namespace AgentColab

open Transaction List Option

/-! ## Events and redo logs -/

/-- The row that a write inserts into `events`. -/
def EventWrite.row? : EventWrite → Option EventRow
  | .insertEvent row => some row
  | .insertKey _ => none

/-- The rows that a redo log inserts into `events`. -/
def rowsOf (log : List EventWrite) : List EventRow := log.filterMap EventWrite.row?

@[simp] theorem rowsOf_nil : rowsOf [] = [] := rfl

@[simp] theorem rowsOf_append (l l' : List EventWrite) :
    rowsOf (l ++ l') = rowsOf l ++ rowsOf l' := filterMap_append

theorem view_events (db : EventTables) (log : List EventWrite) :
    (eventDatabase.view db log).events = db.events ++ rowsOf log := by
  induction log generalizing db with
  | nil => exact (append_nil _).symm
  | cons x log ih =>
    rw [Database.view_cons, ih]
    cases x with
    | insertEvent row => exact append_assoc db.events [row] (rowsOf log)
    | insertKey => rfl

variable {log log₀ : List EventWrite} {r row s : EventRow} {events events' new rows : List EventRow}
    {n : ℕ} {previous : Option String} {db : EventTables} {m : AppendKnown} {cfg : EventConfig}

theorem uniqueKeys_of_mem_rowsOf (h : row ∈ rowsOf log) : ∃ x ∈ log, x.keys = row.uniqueKeys := by
  obtain ⟨x, hx, hrow⟩ := mem_filterMap.1 h
  cases x with
  | insertEvent =>
    refine ⟨_, hx, ?_⟩
    rw [← some.inj hrow]
    rfl
  | insertKey => cases hrow

/-! ## Sound tables -/

/-- Two rows that a unique index of `events` keeps apart. -/
def EventRow.Apart (r s : EventRow) : Prop :=
  r.idemKey ≠ s.idemKey ∧ (r.aggregate = s.aggregate → r.aggregateSeq ≠ s.aggregateSeq)

theorem EventRow.Apart.symm (h : r.Apart s) : s.Apart r :=
  ⟨h.1.symm, fun ha hs ↦ h.2 ha.symm hs.symm⟩

instance : Std.Symm EventRow.Apart := ⟨fun _ _ h ↦ h.symm⟩

/-- Row `r` is the first of its aggregate or continues an event of `events`. -/
def EventRow.Continues (r : EventRow) (events : List EventRow) : Prop :=
  (r.aggregateSeq = 1 ∧ r.previousHash = none) ∨
    ∃ p ∈ events, p.aggregate = r.aggregate ∧ r.aggregateSeq = p.aggregateSeq + 1 ∧
      r.previousHash = some p.contentHash

theorem EventRow.Continues.mono (h : r.Continues events) (hsub : ∀ e ∈ events, e ∈ events') :
    r.Continues events' := by
  obtain h | ⟨p, hp, h⟩ := h
  · exact .inl h
  · exact .inr ⟨p, hsub p hp, h⟩

/-- **The invariant of the events.** -/
structure Sound (events : List EventRow) : Prop where
  apart : events.Pairwise EventRow.Apart
  continues : ∀ r ∈ events, r.Continues events

theorem sound_nil : Sound [] := ⟨.nil, by simp⟩

theorem Sound.append (h : Sound events) (hnew : new.Pairwise EventRow.Apart)
    (hcross : ∀ r ∈ events, ∀ s ∈ new, r.Apart s) (hcont : ∀ r ∈ new, r.Continues (events ++ new)) :
    Sound (events ++ new) := by
  refine ⟨pairwise_append.2 ⟨h.apart, hnew, hcross⟩, fun r hr ↦ ?_⟩
  rcases mem_append.1 hr with hr | hr
  · exact (h.continues r hr).mono fun e he ↦ mem_append_left new he
  · exact hcont r hr

theorem Sound.eq_of_idemKey (h : Sound events) (hr : r ∈ events) (hs : s ∈ events)
    (hkey : r.idemKey = s.idemKey) : r = s := by
  by_contra hne
  exact (h.apart.forall hr hs hne).1 hkey

theorem Sound.length_filter_le (h : Sound events) (k : IdemKey) :
    (events.filter (·.idemKey = k)).length ≤ 1 := by
  by_contra hlen
  obtain ⟨r, s, rest, hrest⟩ : ∃ r s rest, events.filter (·.idemKey = k) = r :: s :: rest := by
    cases hf : events.filter (·.idemKey = k) with
    | nil => simp [hf] at hlen
    | cons r l =>
      cases l with
      | nil => simp [hf] at hlen
      | cons s l => exact ⟨r, s, l, rfl⟩
  have hapart := h.apart.filter (·.idemKey = k)
  rw [hrest] at hapart
  have hkey : ∀ x ∈ events.filter (·.idemKey = k), x.idemKey = k := fun x hx ↦ by
    simpa using (mem_filter.1 hx).2
  rw [hrest] at hkey
  exact ((pairwise_cons.1 hapart).1 s (by simp)).1
    ((hkey r (by simp)).trans (hkey s (by simp)).symm)

/-! ## Streams of sound tables -/

theorem linked_of_sorted (hsorted : rows.Pairwise fun r s ↦ r.aggregateSeq < s.aggregateSeq)
    (hcont : ∀ r ∈ rows, (r.aggregateSeq = n ∧ r.previousHash = previous) ∨ ∃ p ∈ rows,
    r.aggregateSeq = p.aggregateSeq + 1 ∧ r.previousHash = some p.contentHash) :
    Linked n previous (rows.map rowToEvent) := by
  induction rows generalizing n previous with
  | nil => trivial
  | cons e _ ih =>
    obtain ⟨hmin, hsorted⟩ := pairwise_cons.1 hsorted
    -- The head has the least number, so no row of the list precedes it.
    have he : e.aggregateSeq = n ∧ e.previousHash = previous := by
      obtain h | ⟨p, hp, hseq, -⟩ := hcont e mem_cons_self
      · exact h
      · rcases mem_cons.1 hp with rfl | hp
        · omega
        · have := hmin p hp
          omega
    refine ⟨he.1, he.2, ih hsorted fun r hr ↦ ?_⟩
    have hlt := hmin r hr
    obtain ⟨hseq, -⟩ | ⟨p, hp, hseq, hprev⟩ := hcont r (mem_cons_of_mem e hr)
    · omega
    · rcases mem_cons.1 hp with rfl | hp
      · exact .inl ⟨by omega, hprev⟩
      · exact .inr ⟨p, hp, hseq, hprev⟩

/-- **The stream of every aggregate is linked**: numbers `1..n`, each event with the hash of the
one before it. -/
theorem Sound.linked (h : Sound db.events) (a : Aggregate) : Linked 1 none (db.stream a) := by
  let le : EventRow → EventRow → Prop := fun r s ↦ r.aggregateSeq ≤ s.aggregateSeq
  have : Std.Total le := ⟨fun r s ↦ le_total r.aggregateSeq s.aggregateSeq⟩
  have : IsTrans EventRow le := ⟨fun r s t hrs hst ↦ Nat.le_trans hrs hst⟩
  have hperm : (db.streamRows a).Perm (db.ofAggregate a) := perm_insertionSort le _
  have hmem : ∀ r, r ∈ db.streamRows a ↔ r ∈ db.events ∧ r.aggregate = a := fun r ↦ by
    rw [hperm.mem_iff, EventTables.ofAggregate, mem_filter, decide_eq_true_iff]
  have hapart : (db.streamRows a).Pairwise EventRow.Apart :=
    (h.apart.filter _).perm hperm.symm fun hrs ↦ hrs.symm
  refine linked_of_sorted ?_ fun r hr ↦ ?_
  · refine (hapart.and (pairwise_insertionSort le (db.ofAggregate a))).imp_of_mem ?_
    rintro r s hr hs ⟨hrs, hle⟩
    exact lt_of_le_of_ne hle (hrs.2 (((hmem r).1 hr).2.trans ((hmem s).1 hs).2.symm))
  · obtain ⟨hr, ha⟩ := (hmem r).1 hr
    obtain h | ⟨p, hp, hagg, hseq, hprev⟩ := h.continues r hr
    · exact .inl h
    · exact .inr ⟨p, (hmem p).2 ⟨hp, hagg.trans ha⟩, hseq, hprev⟩

theorem Sound.exists_of_le (h : Sound events) {e : EventRow} (he : e ∈ events) (hn : 1 ≤ n)
    (hle : n ≤ e.aggregateSeq) : ∃ p ∈ events, p.aggregate = e.aggregate ∧ p.aggregateSeq = n := by
  generalize hk : e.aggregateSeq - n = k
  induction k generalizing e with
  | zero => exact ⟨e, he, rfl, by omega⟩
  | succ k ih =>
    obtain ⟨hone, -⟩ | ⟨p, hp, hagg, hseq, -⟩ := h.continues e he
    · omega
    · obtain ⟨q, hq, hqagg, hqseq⟩ := ih hp (by omega) (by omega)
      exact ⟨q, hq, hqagg.trans hagg, hqseq⟩

theorem Linked.aggregateSeq {events : List Event} (h : Linked n previous events) :
    events.map (·.aggregateSeq) = List.range' n events.length := by
  induction events generalizing n previous with
  | nil => rfl
  | cons e _ ih =>
    rw [map_cons, length_cons, range'_succ, h.1, ih h.2.2]

theorem Sound.aggregateSeq_eq_length (h : Sound db.events) (hrow : row ∈ db.events)
    (hlast : ∀ e ∈ db.events, e.aggregate = row.aggregate → e.aggregateSeq ≤ row.aggregateSeq) :
    row.aggregateSeq = (db.ofAggregate row.aggregate).length := by
  have hperm : (db.streamRows row.aggregate).Perm (db.ofAggregate row.aggregate) :=
    perm_insertionSort _ _
  have hseq := (h.linked row.aggregate).aggregateSeq
  rw [EventTables.stream, List.map_map, length_map, hperm.length_eq] at hseq
  have hmem : ∀ n, n ∈ List.range' 1 (db.ofAggregate row.aggregate).length ↔
      ∃ e ∈ db.events, e.aggregate = row.aggregate ∧ e.aggregateSeq = n := by
    intro n
    rw [← hseq, List.mem_map]
    simp only [hperm.mem_iff, EventTables.ofAggregate, mem_filter, decide_eq_true_eq,
      Function.comp_apply, rowToEvent, and_assoc]
  obtain ⟨-, hle⟩ := mem_range'_1.1 ((hmem row.aggregateSeq).2 ⟨row, hrow, rfl, rfl⟩)
  have hpos : 0 < (db.ofAggregate row.aggregate).length :=
    length_pos_of_mem (mem_filter.2 ⟨hrow, by simp⟩)
  obtain ⟨e, he, hagg, hlen⟩ := (hmem (db.ofAggregate row.aggregate).length).1
    (mem_range'_1.2 ⟨by omega, by omega⟩)
  have := hlast e he hagg
  omega

/-! ## What a finished call did -/

/-- Row `row` is the event that request `r` asked for: the last of its aggregate, with the number
that was expected and a cause that exists. -/
structure AppendRequest.Yields (cfg : EventConfig) (r : AppendRequest) (db : EventTables)
    (row : EventRow) : Prop where
  key : r.idemKey? = some row.idemKey
  aggregate : r.aggregate? = some row.aggregate
  body : r.requestBodyHash cfg.sha256 = .ok row.requestBodyHash
  type : row.type = r.type
  payload : row.payload = r.payload.json.stored
  number : row.aggregateSeq = (db.ofAggregate row.aggregate).length
  expected : ∀ k, r.expectedSeq = some k → k = (row.aggregateSeq : ℤ)
  causedBy : row.causedBy = r.causedBy
  cause : ∀ e, r.causedBy = some e → ∃ p ∈ db.events, p.eventId = e ∧ p.workspaceId = row.workspaceId

/-- **What a finished call of `append` did.** A key that was visible at the start decides the
outcome. Otherwise a successful call has added the one row it returns or has found the original,
and a failed one has added nothing. -/
structure AppendLaw (cfg : EventConfig) (f : (eventSystem cfg).Finished) : Prop where
  repeated : ∀ row ∈ f.view₀.events, ∀ h, f.entry.idemKey? = some row.idemKey →
    f.entry.requestBodyHash cfg.sha256 = .ok h → f.outcome = replayOutcome row h ∧ f.log₁ = f.log₀
  replayed : ∀ res, f.outcome = .ok res → res.replayed = true →
    rowsOf f.log₁ = rowsOf f.log₀ ∧ ∃ row ∈ f.view₁.events, f.entry.idemKey? = some row.idemKey ∧
      f.entry.requestBodyHash cfg.sha256 = .ok row.requestBodyHash ∧
      f.outcome = replayOutcome row row.requestBodyHash
  appended : ∀ res, f.outcome = .ok res → res.replayed = false →
    ∃ row, rowsOf f.log₁ = rowsOf f.log₀ ++ [row] ∧ f.entry.Yields cfg f.view₁ row ∧
      res = appendedResult row
  failed : ∀ e, f.outcome = .error e → rowsOf f.log₁ = rowsOf f.log₀ ∧
    (f.entry.sensitive = none → f.log₁ = f.log₀)

/-! ## What a call in progress remembers -/

/-- What the knowledge `m` of a call says about the events of its view. The redo log has grown by
the inserted row. -/
structure Remembers (m : AppendKnown) (events events₀ : List EventRow)
    (log log₀ : List EventWrite) : Prop where
  start : ∀ e ∈ events₀, e ∈ events
  rows : rowsOf log = rowsOf log₀ ++ m.inserted.toList
  plain : m.encrypted = false → m.inserted = none → log = log₀
  sealed : m.encrypted = true → m.request.sensitive ≠ none
  inserted : ∀ row, m.inserted = some row → row ∈ events
  found : ∀ e, m.found = some e → e ∈ events ∧ m.request.idemKey? = some e.idemKey
  absent : m.absent = true → ∀ e ∈ events₀, m.request.idemKey? ≠ some e.idemKey
  head : ∀ n h, m.head = some (some (n, h)) → ∃ p ∈ events,
    m.request.aggregate? = some p.aggregate ∧ p.aggregateSeq = n ∧ p.contentHash = h
  cause : ∀ e ws, m.cause = some (e, ws) → ∃ p ∈ events, p.eventId = e ∧ p.workspaceId = ws

/-- The inserted row is the last event of its aggregate. -/
def AppendKnown.Last (m : AppendKnown) (events : List EventRow) : Prop :=
  ∀ row, m.inserted = some row → ∀ e ∈ events, e.aggregate = row.aggregate →
    e.aggregateSeq ≤ row.aggregateSeq

theorem Remembers.mono {events₀ : List EventRow} (h : Remembers m events events₀ log log₀)
    (hsub : ∀ e ∈ events, e ∈ events') : Remembers m events' events₀ log log₀ where
  start e he := hsub e (h.start e he)
  rows := h.rows
  plain := h.plain
  sealed := h.sealed
  inserted row hrow := hsub row (h.inserted row hrow)
  found e he := ⟨hsub e (h.found e he).1, (h.found e he).2⟩
  absent := h.absent
  head n hash hh := by
    obtain ⟨p, hp, hrest⟩ := h.head n hash hh
    exact ⟨p, hsub p hp, hrest⟩
  cause e ws hc := by
    obtain ⟨p, hp, hrest⟩ := h.cause e ws hc
    exact ⟨p, hsub p hp, hrest⟩

theorem remembers_start (r : AppendRequest) (events : List EventRow) (log : List EventWrite) :
    Remembers { request := r } events events log log where
  start _ he := he
  rows := (append_nil _).symm
  plain _ _ := rfl
  sealed h := nomatch h
  inserted _ h := nomatch h
  found _ h := nomatch h
  absent h := nomatch h
  head _ _ h := nomatch h
  cause _ _ h := nomatch h

theorem latest_mem (h : latest rows = some row) : row ∈ rows := by
  suffices hall : ∀ r, latest rows = some r → r ∈ rows from hall row h
  refine List.foldlRecOn (motive := fun best ↦ ∀ r, best = some r → r ∈ rows) rows _ (by simp)
    fun best hbest x hx r hr ↦ ?_
  cases best with
  | none => exact some.inj hr ▸ hx
  | some b =>
    dsimp only at hr
    split_ifs at hr
    · exact some.inj hr ▸ hx
    · exact hbest r hr

/-! ## One statement -/

section Exec

variable {cfg : EventConfig} {m : AppendKnown} {db : EventTables} {events₀ : List EventRow}
  {log log₀ : List EventWrite}

theorem Remembers.of_eq {m' : AppendKnown} (h : Remembers m db.events events₀ log log₀)
    (hr : m'.request = m.request) (hf : m'.found = m.found) (ha : m'.absent = m.absent)
    (hc : m'.cause = m.cause) (hh : m'.head = m.head) (he : m'.encrypted = m.encrypted)
    (hi : m'.inserted = m.inserted) : Remembers m' db.events events₀ (log ++ []) log₀ where
  start := h.start
  rows := by rw [append_nil, hi, h.rows]
  plain := by rw [append_nil, he, hi]; exact h.plain
  sealed := by rw [he, hr]; exact h.sealed
  inserted := by rw [hi]; exact h.inserted
  found := by rw [hf, hr]; exact h.found
  absent := by rw [ha, hr]; exact h.absent
  head := by rw [hh, hr]; exact h.head
  cause := by rw [hc]; exact h.cause

theorem Remembers.findIdempotent {key : IdemKey} (h : Remembers m db.events events₀ log log₀)
    (hmay : m.request.idemKey? = some key) :
    Remembers (m.next (.findIdempotent key) (db.findIdempotent key)) db.events events₀ (log ++ [])
      log₀ := by
  rw [append_nil]
  cases hfind : db.findIdempotent key with
  | none =>
    refine ⟨h.start, h.rows, h.plain, h.sealed, h.inserted, (fun _ he ↦ nomatch he), fun _ e he hkey ↦ ?_, h.head, h.cause⟩
    change m.request.idemKey? = some e.idemKey at hkey
    rw [hmay, some.injEq] at hkey
    have := List.find?_eq_none.1 hfind e (h.start e he)
    simp [hkey] at this
  | some row =>
    refine ⟨h.start, h.rows, h.plain, h.sealed, h.inserted, fun e he ↦ ?_, h.absent, h.head, h.cause⟩
    rw [← some.inj he]
    have hkey : row.idemKey = key := by simpa using List.find?_some hfind
    exact ⟨mem_of_find?_eq_some hfind, by rw [hkey]; exact hmay⟩

theorem Remembers.eventWorkspace {e : String} (h : Remembers m db.events events₀ log log₀) :
    Remembers (m.next (.eventWorkspace e)
      ((db.events.find? (·.eventId = e)).map (·.workspaceId))) db.events events₀ (log ++ []) log₀ := by
  cases hfind : db.events.find? (·.eventId = e) with
  | none => exact h.of_eq rfl rfl rfl rfl rfl rfl rfl
  | some row =>
    rw [append_nil]
    refine ⟨h.start, h.rows, h.plain, h.sealed, h.inserted, h.found, h.absent, h.head, fun e' ws hc ↦ ?_⟩
    obtain ⟨rfl, rfl⟩ := Prod.mk.inj (some.inj hc)
    exact ⟨row, mem_of_find?_eq_some hfind, by simpa using List.find?_some hfind, rfl⟩

theorem Remembers.head_read {a : Aggregate} (h : Remembers m db.events events₀ log log₀)
    (hmay : m.request.aggregate? = some a) : Remembers (m.next (.head a)
      ((latest (db.ofAggregate a)).map fun r ↦ (r.aggregateSeq, r.contentHash)))
      db.events events₀ (log ++ []) log₀ := by
  rw [append_nil]
  refine ⟨h.start, h.rows, h.plain, h.sealed, h.inserted, h.found, h.absent, fun n hash hh ↦ ?_, h.cause⟩
  obtain ⟨p, hp, hpair⟩ := map_eq_some_iff.1 (some.inj hh)
  obtain ⟨rfl, rfl⟩ := Prod.mk.inj hpair
  obtain ⟨hmem, hagg⟩ := mem_filter.1 (latest_mem hp)
  refine ⟨p, hmem, ?_, rfl, rfl⟩
  rw [of_decide_eq_true hagg]
  exact hmay

theorem Remembers.encrypt {ref : String} {res : Except CodedError (List UInt8)}
    {writes : List EventWrite} (h : Remembers m db.events events₀ log log₀)
    (hmay : m.request.sensitive ≠ none) (hwrites : rowsOf writes = []) :
    Remembers (m.next (.encrypt ref) res) db.events events₀ (log ++ writes) log₀ := by
  refine ⟨h.start, ?_, (fun he ↦ nomatch he), fun _ ↦ hmay, h.inserted, h.found, h.absent, h.head, h.cause⟩
  rw [rowsOf_append, hwrites, append_nil]
  exact h.rows

variable {row : EventRow} {n : ℕ}

theorem apart_of_violated (h : db.violated row = none) : ∀ e ∈ db.events, e.Apart row := by
  rw [EventTables.violated] at h
  split_ifs at h with h₁ h₂ h₃ h₄
  intro e he
  refine ⟨fun hkey ↦ h₄ ?_, fun hagg hseq ↦ h₃ ?_⟩
  · exact List.any_eq_true.2 ⟨e, he, by simpa using hkey⟩
  · exact List.any_eq_true.2 ⟨e, he, by simp [hagg, hseq]⟩

/-- **The insert.** A drafted row that is not refused keeps the view sound. -/
theorem Remembers.sound_insert (h : Remembers m db.events events₀ log log₀)
    (hsound : Sound db.events) (hd : Drafted cfg m row) (hv : db.violated row = none) :
    Sound (db.events ++ [row]) := by
  refine hsound.append (pairwise_singleton _ _) ?_ ?_
  · intro e he s hs
    rw [mem_singleton.1 hs]
    exact apart_of_violated hv e he
  · intro s hs
    rw [mem_singleton.1 hs]
    obtain ⟨last, hhead, hseq, hprev⟩ := hd.head
    cases last with
    | none => exact .inl ⟨hseq, hprev⟩
    | some last =>
      obtain ⟨n, hash⟩ := last
      obtain ⟨p, hp, hagg, rfl, rfl⟩ := h.head n hash hhead
      rw [hd.aggregate, some.injEq] at hagg
      exact .inr ⟨p, mem_append_left _ hp, hagg.symm, hseq, hprev⟩

theorem Remembers.insert {row : ℕ → EventRow} (h : Remembers m db.events events₀ log log₀)
    (hi : m.inserted = none) :
    Remembers (m.next (.insert row) (.inserted n)) (db.events ++ [row n]) events₀
      (log ++ [.insertEvent (row n)]) log₀ where
  start := (h.mono fun _ ↦ mem_append_left _).start
  rows := by
    rw [rowsOf_append, h.rows, hi, toList_none, append_nil]
    rfl
  plain _ hi' := nomatch hi'
  sealed := h.sealed
  inserted r hr := by
    rw [← some.inj hr]
    exact mem_append_right _ (mem_singleton_self _)
  found := (h.mono fun _ ↦ mem_append_left _).found
  absent := h.absent
  head := (h.mono fun _ ↦ mem_append_left _).head
  cause := (h.mono fun _ ↦ mem_append_left _).cause

/-- A row that is not refused is the last of its aggregate: below a later event there would be
one with the number of the row. -/
theorem last_of_violated (hsound : Sound db.events) (hone : 1 ≤ row.aggregateSeq)
    (hv : db.violated row = none) :
    ∀ e ∈ db.events ++ [row], e.aggregate = row.aggregate → e.aggregateSeq ≤ row.aggregateSeq := by
  intro e he hagg
  by_contra hlt
  rcases mem_append.1 he with he | he
  · obtain ⟨p, hp, hpagg, hpseq⟩ := hsound.exists_of_le he hone (by omega)
    exact (apart_of_violated hv p hp).2 (hpagg.trans hagg) hpseq
  · rw [mem_singleton.1 he] at hlt
    exact hlt le_rfl

variable (m db) in
theorem exec_cases (inp : EventInput) (n : ℕ) (o : EventStmt) :
    (∃ row, o = .insert row ∧ db.violated (row n) = none ∧
      execInsert n db row = ⟨.inserted n, [.insertEvent (row n)], (row n).uniqueKeys⟩) ∨
    (rowsOf (execEventStmt inp n db o).writes = [] ∧
      (m.next o (execEventStmt inp n db o).result).inserted = m.inserted) := by
  cases o with
  | findIdempotent key =>
    refine .inr ⟨rfl, ?_⟩
    simp only [execEventStmt]
    cases db.findIdempotent key <;> rfl
  | eventWorkspace e =>
    refine .inr ⟨rfl, ?_⟩
    simp only [execEventStmt]
    cases (db.events.find? (·.eventId = e)).map (·.workspaceId) <;> rfl
  | now reading => exact .inr ⟨rfl, by cases reading <;> rfl⟩
  | encrypt =>
    refine .inr ⟨?_, rfl⟩
    simp only [execEventStmt, execEncrypt]
    split <;> rfl
  | insert row =>
    simp only [execEventStmt, execInsert]
    split_ifs
    · exact .inr ⟨rfl, rfl⟩
    · cases hv : db.violated (row n) with
      | some => exact .inr ⟨rfl, rfl⟩
      | none => exact .inl ⟨row, rfl, hv, by simp_all⟩
  | _ => exact .inr ⟨rfl, rfl⟩

/-- **The step lemma.** A statement that may be issued keeps the view sound and the knowledge
true. -/
theorem Remembers.exec {inp : EventInput} (o : EventStmt) (hsound : Sound db.events)
    (h : Remembers m db.events events₀ log log₀) (hmay : m.may cfg o) :
    let eff := execEventStmt inp n db o
    Sound (db.events ++ rowsOf eff.writes) ∧
      Remembers (m.next o eff.result) (db.events ++ rowsOf eff.writes) events₀
        (log ++ eff.writes) log₀ := by
  have hnil : ∀ {m' : AppendKnown}, Remembers m' db.events events₀ (log ++ []) log₀ →
      Sound (db.events ++ []) ∧ Remembers m' (db.events ++ []) events₀ (log ++ []) log₀ := by
    intro m' h'
    rw [append_nil]
    exact ⟨hsound, h'⟩
  cases o with
  | advisoryLock | accountWorkspace | channelWorkspace | taskWorkspace | newUuid =>
    exact hnil (h.of_eq rfl rfl rfl rfl rfl rfl rfl)
  | findIdempotent => exact hnil (h.findIdempotent hmay)
  | eventWorkspace => exact hnil h.eventWorkspace
  | head => exact hnil (h.head_read hmay)
  | now reading =>
    cases reading with
    | hashed => exact hnil (h.of_eq rfl rfl rfl rfl rfl rfl rfl)
    | stored => exact hnil (h.of_eq rfl rfl rfl rfl rfl rfl rfl)
  | encrypt ref =>
    have hrows : rowsOf (execEncrypt inp db ref).writes = [] := by
      rw [execEncrypt]
      split <;> rfl
    intro eff
    change Sound (db.events ++ rowsOf (execEncrypt inp db ref).writes) ∧
      Remembers _ (db.events ++ rowsOf (execEncrypt inp db ref).writes) _ _ _
    rw [hrows, append_nil]
    exact ⟨hsound, h.encrypt hmay hrows⟩
  | insert row =>
    obtain ⟨hi, -, hrow⟩ := hmay
    intro eff
    change Sound (db.events ++ rowsOf (execInsert n db row).writes) ∧
      Remembers (m.next (.insert row) (execInsert n db row).result)
        (db.events ++ rowsOf (execInsert n db row).writes) events₀
        (log ++ (execInsert n db row).writes) log₀
    cases hv : db.violated (row n) with
    | some =>
      have heq : (execInsert n db row).writes = [] ∧
          m.next (.insert row) (execInsert n db row).result = m := by
        rw [execInsert]
        split_ifs
        · exact ⟨rfl, rfl⟩
        · rw [hv]
          exact ⟨rfl, rfl⟩
      rw [heq.1, heq.2]
      exact hnil (h.of_eq rfl rfl rfl rfl rfl rfl rfl)
    | none =>
      by_cases hstorable : (!(row n).payload.storable) = true
      · rw [execInsert, if_pos hstorable]
        exact hnil (h.of_eq rfl rfl rfl rfl rfl rfl rfl)
      · rw [execInsert, if_neg hstorable, hv]
        exact ⟨h.sound_insert hsound (hrow n).2 hv, h.insert hi⟩

theorem AppendKnown.Last.exec {inp : EventInput} {o : EventStmt} (hsound : Sound db.events)
    (h : m.Last db.events) (hmay : m.may cfg o) : (m.next o (execEventStmt inp n db o).result).Last
      (db.events ++ rowsOf (execEventStmt inp n db o).writes) := by
  obtain ⟨row, rfl, hv, heq⟩ | ⟨hrows, hins⟩ := exec_cases m db inp n o
  · obtain ⟨-, -, hrow⟩ := hmay
    obtain ⟨last, -, hseq, -⟩ := (hrow n).2.head
    have hone : 1 ≤ (row n).aggregateSeq := by
      rw [hseq]
      exact one_le_nextSeq last
    simp only [execEventStmt, heq]
    intro row' hrow'
    rw [← some.inj hrow']
    exact last_of_violated hsound hone hv
  · rw [hrows, append_nil]
    intro row hrow
    exact h row (hins ▸ hrow)

end Exec

/-! ## How calls end -/

theorem AppendLaw.of_ends {f : (eventSystem cfg).Finished} (hr : m.request = f.entry)
    (hsound : Sound f.view₁.events) (hlast : m.Last f.view₁.events)
    (h : Remembers m f.view₁.events f.view₀.events f.log₁ f.log₀) (he : m.Ends cfg f.outcome) :
    AppendLaw cfg f := by
  have hrows : m.inserted = none → rowsOf f.log₁ = rowsOf f.log₀ := fun hi ↦ by
    rw [h.rows, hi, toList_none, append_nil]
  have hnothing : m.inserted = none → rowsOf f.log₁ = rowsOf f.log₀ ∧
      (f.entry.sensitive = none → f.log₁ = f.log₀) := fun hi ↦ by
    refine ⟨hrows hi, fun hs ↦ h.plain ?_ hi⟩
    by_contra hen
    exact h.sealed (by simpa using hen) (hr ▸ hs)
  have habsent : m.absent = true → ∀ row ∈ f.view₀.events,
      f.entry.idemKey? = some row.idemKey → False := fun ha row hrow hkey ↦
    h.absent ha row hrow (hr ▸ hkey)
  -- A row found late is one the call returns; it is in the view at the end.
  have hfound : ∀ row bodyHash, m.found = some row →
      m.request.requestBodyHash cfg.sha256 = .ok bodyHash →
      ∀ res, replayOutcome row bodyHash = .ok res → ∃ row ∈ f.view₁.events,
        f.entry.idemKey? = some row.idemKey ∧
        f.entry.requestBodyHash cfg.sha256 = .ok row.requestBodyHash ∧
        (.ok res : Except AppendError AppendResult) = replayOutcome row row.requestBodyHash := by
    intro row bodyHash hf hb res hres
    obtain ⟨hmem, hkey⟩ := h.found row hf
    have heq : row.requestBodyHash = bodyHash := by
      by_contra hne
      rw [replayOutcome, if_pos hne] at hres
      cases hres
    rw [hr] at hkey hb
    exact ⟨row, hmem, hkey, heq ▸ hb, heq ▸ hres.symm⟩
  have hreplayed : ∀ row bodyHash res, replayOutcome row bodyHash = .ok res →
      res.replayed = true := by
    intro row bodyHash res hres
    rw [replayOutcome] at hres
    split at hres
    · cases hres
    · cases hres
      rfl
  generalize hx : f.outcome = x at he
  cases he with
  | refused hb hi =>
    refine ⟨fun row hrow bh hkey hbody ↦ ?_, fun res hres ↦ ?_, fun res hres ↦ ?_,
      fun e _ ↦ hnothing hi⟩
    · rw [hr] at hb
      obtain hb | ⟨c, hc⟩ := hb
      · rw [hb] at hkey
        cases hkey
      · rw [hc] at hbody
        cases hbody
    · rw [hx] at hres
      cases hres
    · rw [hx] at hres
      cases hres
  | @replayed row bodyHash hf hi hen hb =>
    refine ⟨fun row' hrow' bh hkey hbody ↦ ?_, fun res hres _ ↦ ⟨hrows hi, ?_⟩,
      fun res hres hfresh ↦ ?_, fun e _ ↦ hnothing hi⟩
    · obtain ⟨hmem, hkey'⟩ := h.found row hf
      rw [hr, hkey, some.injEq] at hkey'
      obtain rfl := hsound.eq_of_idemKey (h.start row' hrow') hmem hkey'
      rw [hr, hbody, Except.ok.injEq] at hb
      exact ⟨by rw [hx, hb], h.plain hen hi⟩
    · rw [hx] at hres ⊢
      rw [hres]
      exact hfound row bodyHash hf hb res hres
    · rw [hx] at hres
      rw [hreplayed _ _ _ hres] at hfresh
      cases hfresh
  | @appended row _ _ ha hi hd hr₀ hc hres =>
    refine ⟨fun row' hrow' _ hkey _ ↦ (habsent ha row' hrow' hkey).elim, fun res' hres' hrep ↦ ?_,
      fun res' hres' _ ↦ ⟨row, ?_, ?_, ?_⟩, fun e hx' ↦ ?_⟩
    · rw [hx, Except.ok.injEq] at hres'
      rw [← hres', hres] at hrep
      cases hrep
    · rw [h.rows, hi, toList_some]
    · rw [hr] at hr₀
      refine ⟨hr₀ ▸ hd.key, hr₀ ▸ hd.aggregate, hr₀ ▸ hd.body, hr₀ ▸ hd.type, hr₀ ▸ hd.payload,
        hsound.aggregateSeq_eq_length (h.inserted row hi) (hlast row hi), hr₀ ▸ hd.expected,
        hr₀ ▸ hd.causedBy, fun e he ↦ ?_⟩
      have hcause := hd.cause e (hr₀ ▸ he)
      rw [hc] at hcause
      exact h.cause e _ hcause
    · rw [hx, Except.ok.injEq] at hres'
      rw [← hres', hres]
    · rw [hx] at hx'
      cases hx'
  | @collided row bodyHash ha hf hi hb =>
    refine ⟨fun row' hrow' _ hkey _ ↦ (habsent ha row' hrow' hkey).elim,
      fun res hres _ ↦ ⟨hrows hi, ?_⟩, fun res hres hfresh ↦ ?_, fun e _ ↦ hnothing hi⟩
    · rw [hx] at hres ⊢
      rw [hres]
      exact hfound row bodyHash hf hb res hres
    · rw [hx] at hres
      rw [hreplayed _ _ _ hres] at hfresh
      cases hfresh
  | failed ha hi =>
    refine ⟨fun row' hrow' _ hkey _ ↦ (habsent ha row' hrow' hkey).elim, fun res hres ↦ ?_,
      fun res hres ↦ ?_, fun e _ ↦ hnothing hi⟩
    · rw [hx] at hres
      cases hres
    · rw [hx] at hres
      cases hres

/-! ## Runs -/

theorem AppendKnown.next_request (m : AppendKnown) (o : EventStmt) (res : EventRes o) :
    (m.next o res).request = m.request := by
  cases o with
  | findIdempotent | eventWorkspace | insert => cases res <;> rfl
  | now reading => cases reading <;> rfl
  | _ => rfl

/-- The invariant of the appends of any number of clients. -/
def appendShape (cfg : EventConfig) : System.Shape (eventSystem cfg) where
  G db := Sound db.events
  L db _ s := Sound (eventDatabase.view db s.log).events ∧ ∀ c, s.call = some c →
    ((appendProtocol cfg).known c).request = c.entry ∧
      ((appendProtocol cfg).known c).Last (eventDatabase.view db s.log).events ∧
      Remembers ((appendProtocol cfg).known c) (eventDatabase.view db s.log).events
        c.view₀.events s.log c.log₀
  R f := AppendLaw cfg f

theorem apart_of_held {log' : List EventWrite} {held : EventLock → Prop}
    (hheld : ∀ x ∈ log, ∀ k ∈ x.keys, held k) (hnot : ∀ x ∈ log', ∀ k ∈ x.keys, ¬held k) :
    ∀ r ∈ rowsOf log', ∀ s ∈ rowsOf log, r.Apart s := by
  intro r hr s hs
  obtain ⟨x, hx, hxk⟩ := uniqueKeys_of_mem_rowsOf hr
  obtain ⟨y, hy, hyk⟩ := uniqueKeys_of_mem_rowsOf hs
  have hdisj : ∀ k ∈ r.uniqueKeys, k ∉ s.uniqueKeys := fun k hk hk' ↦
    hnot x hx k (hxk ▸ hk) (hheld y hy k (hyk ▸ hk'))
  refine ⟨fun hkey ↦ hdisj (.idempotencyKey r.idemKey) ?_ ?_,
    fun hagg hseq ↦ hdisj (.aggregateSeq r.aggregate r.aggregateSeq) ?_ ?_⟩
  · simp [EventRow.uniqueKeys]
  · simp [EventRow.uniqueKeys, hkey]
  · simp [EventRow.uniqueKeys]
  · simp [EventRow.uniqueKeys, hagg, hseq]

theorem Sound.union {new' : List EventRow} (h : Sound (events ++ new)) (h' : Sound (events ++ new'))
    (hcross : ∀ r ∈ new, ∀ s ∈ new', r.Apart s) : Sound (events ++ new ++ new') := by
  refine h.append (pairwise_append.1 h'.apart).2.1 ?_ ?_
  · intro r hr s hs
    rcases mem_append.1 hr with hr | hr
    · exact (pairwise_append.1 h'.apart).2.2 r hr s hs
    · exact hcross r hr s hs
  · intro s hs
    refine (h'.continues s (mem_append_right _ hs)).mono fun e he ↦ ?_
    rcases mem_append.1 he with he | he
    · exact mem_append_left _ (mem_append_left _ he)
    · exact mem_append_right _ he

theorem AppendKnown.Last.others (h : m.Last (events ++ rowsOf log)) (hnew : Sound (events ++ new))
    (hlog : Sound (events ++ rowsOf log)) (hcross : ∀ r ∈ new, ∀ s ∈ rowsOf log, r.Apart s)
    (hrows : rowsOf log = rowsOf log₀ ++ m.inserted.toList) :
    m.Last (events ++ new ++ rowsOf log) := by
  intro row hrow e he hagg
  have hmem : row ∈ rowsOf log := by
    rw [hrows, hrow]
    simp
  have hold : e ∈ events ++ rowsOf log → e.aggregateSeq ≤ row.aggregateSeq := fun he' ↦
    h row hrow e he' hagg
  rcases mem_append.1 he with he | he
  · by_contra hlt
    have hone : 1 ≤ row.aggregateSeq := by
      obtain ⟨h, -⟩ | ⟨p, -, -, h, -⟩ := hlog.continues row (mem_append_right _ hmem) <;> omega
    obtain ⟨p, hp, hpagg, hpseq⟩ := hnew.exists_of_le he hone (by omega)
    rcases mem_append.1 hp with hp | hp
    · exact ((pairwise_append.1 hlog.apart).2.2 p hp row hmem).2 (hpagg.trans hagg) hpseq
    · exact (hcross p hp row hmem).2 (hpagg.trans hagg) hpseq
  · exact hold (mem_append_right _ he)

theorem append_local (cfg : EventConfig) :
    (appendProtocol cfg).Local (fun _ _ ↦ True) (appendShape cfg) where
  ok _ _ _ _ _ _ _ _ _ _ _ _ _ _ := trivial
  exec w i inp s c o k hI _ hs hc _ hmay _ _ := by
    obtain ⟨hsound, hcall⟩ := hI.session i s hs
    obtain ⟨hreq, hlast, hrem⟩ := hcall c hc
    have hlast' := @AppendKnown.Last.exec cfg _ _ w.nonce inp _ hsound hlast hmay
    obtain ⟨hsound', hrem'⟩ := @Remembers.exec cfg _ _ _ _ _ w.nonce inp o hsound hrem hmay
    have hview : (eventDatabase.view w.store (s.log ++ (w.effect i s inp o).writes)).events =
        (eventDatabase.view w.store s.log).events ++ rowsOf (w.effect i s inp o).writes := by
      rw [Database.view_append, view_events]
    refine ⟨?_, fun c' hc' ↦ ?_⟩
    · change Sound (eventDatabase.view w.store (s.log ++ (w.effect i s inp o).writes)).events
      rw [hview]
      exact hsound'
    · rw [← some.inj hc', (appendProtocol cfg).known_advance]
      refine ⟨(AppendKnown.next_request _ _ _).trans hreq, ?_⟩
      change AppendKnown.Last _
          (eventDatabase.view w.store (s.log ++ (w.effect i s inp o).writes)).events ∧
        Remembers _ (eventDatabase.view w.store (s.log ++ (w.effect i s inp o).writes)).events
          _ _ _
      rw [hview]
      exact ⟨hlast', hrem'⟩
  opened st hst := ⟨hst, fun c hc ↦ nomatch hc⟩
  call w i e s _ _ _ hL _ := by
    refine ⟨hL.1, fun c hc ↦ ?_⟩
    rw [← some.inj hc]
    exact ⟨rfl, (fun _ h ↦ nomatch h), remembers_start e _ _⟩
  finish w i s c x hI hs hc hfin := by
    obtain ⟨hsound, hcall⟩ := hI.session i s hs
    obtain ⟨hreq, hlast, hrem⟩ := hcall c hc
    exact ⟨⟨hsound, fun c' hc' ↦ nomatch hc'⟩, AppendLaw.of_ends hreq hsound hlast hrem hfin⟩
  commit st _ s _ hL _ _ := hL.1
  others st held held' s t _ hL hL' _ hheld hnot := by
    have hview : (eventDatabase.view (eventDatabase.view st t.log) s.log).events =
        st.events ++ rowsOf t.log ++ rowsOf s.log := by
      rw [view_events, view_events]
    have hs := hL.1
    have ht := hL'.1
    rw [view_events] at hs ht
    have hcross := apart_of_held hheld hnot
    refine ⟨?_, fun c hc ↦ ?_⟩
    · rw [hview]
      exact ht.union hs hcross
    obtain ⟨hreq, hlast, hrem⟩ := hL.2 c hc
    refine ⟨hreq, ?_, hrem.mono fun e he ↦ ?_⟩
    · rw [hview]
      rw [view_events] at hlast
      exact hlast.others ht hs hcross hrem.rows
    · rw [view_events] at he
      rw [hview]
      rcases mem_append.1 he with he | he
      · exact mem_append_left _ (mem_append_left _ he)
      · exact mem_append_right _ he

/-- A world with these accounts, channels, tasks and keys, no event and no open transaction. -/
def eventWorld (cfg : EventConfig) (db : EventTables) : (eventSystem cfg).World where
  store := { db with events := [] }
  aux := ()

/-- **The run lemma.** In every run the committed events are sound and every finished call obeys
its law. -/
theorem append_run {w : (eventSystem cfg).World}
    (hw : System.Run (fun _ _ ↦ True) (eventWorld cfg db) w) :
    Sound w.store.events ∧ ∀ f ∈ w.calls, AppendLaw cfg f := by
  have hinit : (appendShape cfg).Holds (eventWorld cfg db) :=
    ⟨sound_nil, (fun i s hs ↦ nomatch hs), fun f hf ↦ nomatch hf⟩
  obtain ⟨-, -, h⟩ := (append_local cfg).keeps.run (fun _ ↦ rfl) (fun _ ↦ rfl) hinit hw
  exact ⟨h.store, h.finished⟩

end AgentColab
