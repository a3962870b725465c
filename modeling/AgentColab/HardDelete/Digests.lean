import AgentColab.HardDelete.Execution

/-!
# The digests of an execution

The execution compares the digest of the Events of the workspace with the one before, from which its
own Events are left out. Both are of the same bytes exactly if nobody else has appended an Event of
the workspace in between, since every Event has bytes.
-/

namespace AgentColab.HardDelete

open AgentColab Approvals Ledger List

variable {H : Hashes} {fails : Statement → Bool} {ctx : ExecuteContext}

/-! ## Digests -/

/-- The number of bytes that the digest is of. -/
def size (rows : List LogRow) : ℕ := (digested rows).length

theorem size_cons (r : LogRow) (l : List LogRow) :
    size (r :: l) = (utf8 r.line).length + size l := by
  rw [size, digested, flatMap_cons, length_append]
  rfl

theorem size_append (l l' : List LogRow) : size (l ++ l') = size l + size l' := by
  rw [size, digested, flatMap_append, length_append]
  rfl

variable {l l' : List LogRow}

theorem size_perm (h : l.Perm l') : size l = size l' := (h.flatMap_right _).length_eq

theorem length_line_pos (r : LogRow) : 0 < (utf8 r.line).length := by
  have hsize : (utf8 r.line).length = r.line.utf8ByteSize := by
    rw [utf8, String.toUTF8_eq_toByteArray, ← String.size_toByteArray]
    rfl
  have hbreak : "\n".utf8ByteSize = 1 := by decide
  rw [hsize, LogRow.line, String.utf8ByteSize_append, hbreak]
  omega

theorem eq_nil_of_size (h : size l = 0) : l = [] := by
  cases l with
  | nil => rfl
  | cons r =>
    have hpos := length_line_pos r
    rw [size_cons] at h
    omega

theorem size_filter_le (q : LogRow → Bool) (l : List LogRow) : size (l.filter q) ≤ size l := by
  induction l with
  | nil => exact le_rfl
  | cons =>
    rw [filter_cons, size_cons]
    split
    · rw [size_cons]
      omega
    · omega

theorem forall_of_size_filter {q : LogRow → Bool} (h : size (l.filter q) = size l) :
    ∀ r ∈ l, q r = true := by
  induction l with
  | nil => exact fun r hr ↦ absurd hr not_mem_nil
  | cons r l ih =>
    have hle := size_filter_le q l
    have hpos := length_line_pos r
    rw [filter_cons, size_cons] at h
    split at h
    next hr =>
      rw [size_cons] at h
      rintro r' hr'
      rcases mem_cons.1 hr' with rfl | hr'
      · exact hr
      · exact ih (by omega) r' hr'
    next => omega

theorem filter_orderedInsert {α : Type} {r : α → α → Prop} [DecidableRel r]
    (htrans : ∀ a b c, r a b → r b c → r a c) (q : α → Bool) (a : α) {l : List α}
    (hl : l.Pairwise r) : (l.orderedInsert r a).filter q =
      if q a then (l.filter q).orderedInsert r a else l.filter q := by
  induction l with
  | nil =>
    rw [List.orderedInsert, filter_cons]
    rfl
  | cons b l ih =>
    rw [List.orderedInsert]
    split
    next hab =>
      rw [filter_cons]
      split
      next hqa =>
        have hhead : ∀ c ∈ (b :: l).filter q, r a c := fun c hc ↦ by
          rcases mem_cons.1 (mem_filter.1 hc).1 with rfl | hc
          · exact hab
          · exact htrans _ _ _ hab (rel_of_pairwise_cons hl hc)
        cases hfilter : (b :: l).filter q with
        | nil => rfl
        | cons c =>
          rw [List.orderedInsert, if_pos (hhead c (hfilter ▸ mem_cons_self))]
      next => rfl
    next hab =>
      rw [filter_cons, ih hl.of_cons, filter_cons]
      by_cases hqb : q b = true
      · rw [if_pos hqb, if_pos hqb]
        split
        · rw [List.orderedInsert, if_neg hab]
        · rfl
      · rw [if_neg hqb, if_neg hqb]

theorem filter_inOrder (workspace : Uuid) (q : LogRow → Bool) (log : List LogRow) :
    (inOrder workspace log).filter q = inOrder workspace (log.filter q) := by
  rw [inOrder, inOrder, filter_comm]
  generalize log.filter (·.workspaceId = workspace) = rows
  induction rows with
  | nil => rfl
  | cons r _ ih =>
    have htrans : ∀ a b c : LogRow, a.recordedSeq ≤ b.recordedSeq → b.recordedSeq ≤ c.recordedSeq →
        a.recordedSeq ≤ c.recordedSeq := fun _ _ _ ↦ le_trans
    have : IsTrans LogRow fun a b ↦ a.recordedSeq ≤ b.recordedSeq := ⟨htrans⟩
    have : Std.Total fun a b : LogRow ↦ a.recordedSeq ≤ b.recordedSeq :=
      ⟨fun a b ↦ le_total a.recordedSeq b.recordedSeq⟩
    rw [insertionSort_cons, filter_orderedInsert htrans q r (pairwise_insertionSort _ _),
      ih, filter_cons]
    split
    · rfl
    · rfl

def ofWorkspace (workspace : Uuid) (log : List LogRow) : List LogRow :=
  log.filter (·.workspaceId = workspace)

theorem size_inOrder (workspace : Uuid) (q : LogRow → Bool) (log : List LogRow) :
    size ((inOrder workspace log).filter q) = size ((ofWorkspace workspace log).filter q) :=
  size_perm ((perm_insertionSort _ _).filter q)

theorem ofWorkspace_append (workspace : Uuid) (l l' : List LogRow) :
    ofWorkspace workspace (l ++ l') = ofWorkspace workspace l ++ ofWorkspace workspace l' :=
  filter_append ..

theorem inOrder_congr {workspace : Uuid} (h : ofWorkspace workspace l = ofWorkspace workspace l') :
    inOrder workspace l = inOrder workspace l' :=
  congrArg (List.insertionSort fun a b : LogRow ↦ a.recordedSeq ≤ b.recordedSeq) h

theorem size_of_digest (hH : Function.Injective H.sha256)
    (h : H.sha256 (digested l) = H.sha256 (digested l')) : size l = size l' :=
  congrArg List.length (hH h)

theorem size_inOrder_all (workspace : Uuid) (log : List LogRow) :
    size (inOrder workspace log) = size (ofWorkspace workspace log) :=
  size_perm (perm_insertionSort _ _)

theorem eventChainDigest_append_iff (hH : Function.Injective H.sha256) {log others : List LogRow} :
    eventChainDigest H ctx (log ++ others) = eventChainDigest H ctx log ↔
      ofWorkspace ctx.workspace others = [] := by
  constructor
  · intro h
    have hsize := size_of_digest hH h
    rw [size_inOrder_all, size_inOrder_all, ofWorkspace_append, size_append] at hsize
    exact eq_nil_of_size (by omega)
  · intro h
    have hsame : ofWorkspace ctx.workspace (log ++ others) = ofWorkspace ctx.workspace log := by
      rw [ofWorkspace_append, h, append_nil]
    rw [eventChainDigest, eventChainDigest, inOrder_congr hsame]

/-! ## Events -/

section Events

variable {draft : Draft} {new : Sealed} {row : LogRow} {log log' own : List LogRow}

theorem appendEvent_eq_ok (h : appendEvent ctx draft new log = .ok (row, log')) :
    row.draft = draft ∧ ∃ own, log' = log ++ own ∧
      (own = [] ∧ row ∈ log ∨ own = [row] ∧ row.eventId = new.eventId) := by
  rw [appendEvent] at h
  split at h
  next prior hprior =>
    split at h
    next hdraft =>
      cases h
      exact ⟨hdraft, [], (append_nil _).symm, .inl ⟨rfl, mem_of_find?_eq_some hprior⟩⟩
    next => cases h
  next =>
    split at h
    next => cases h
    next =>
      cases h
      exact ⟨rfl, _, rfl, .inr ⟨rfl, rfl⟩⟩

theorem appendEvent_congr (h : appendEvent ctx draft new log = .ok (row, log ++ own))
    (hfind : log'.find? (sameKey ctx draft) = log.find? (sameKey ctx draft)) :
    appendEvent ctx draft new log' = .ok (row, log' ++ own) := by
  rw [appendEvent] at h ⊢
  rw [hfind]
  split at h
  next prior hprior =>
    split at h
    next hdraft =>
      rw [Except.ok.injEq, Prod.mk.injEq, self_eq_append_right] at h
      obtain ⟨rfl, rfl⟩ := h
      rw [if_pos hdraft, append_nil]
    next => cases h
  next =>
    split at h
    next => cases h
    next =>
      rw [Except.ok.injEq, Prod.mk.injEq, append_cancel_left_eq] at h
      obtain ⟨rfl, rfl⟩ := h
      rfl

end Events

/-! ## The end of the execution -/

theorem reach_eq_ok {s : Statement} {u : Unit} : reach fails s = .ok u ↔ fails s = false := by
  rw [reach]
  split
  next h => exact ⟨nofun, fun h' ↦ absurd (h.symm.trans h') (by decide)⟩
  next h => exact ⟨fun _ ↦ Bool.not_eq_true _ ▸ h, fun _ ↦ rfl⟩

section Conclude

variable {arrivals : Arrivals} {req : HardDeleteRequest} {before : String} {destroyed : List String}
  {rows : Rows} {warnings : List String} {log : List LogRow}

/-- **What the end of an execution that succeeds has come by.** -/
structure Concluded (H : Hashes) (ctx : ExecuteContext) (arrivals : Arrivals)
    (req : HardDeleteRequest) (before : String) (destroyed : List String) (rows : Rows)
    (log log₁ log₂ : List LogRow) (event : LogRow) : Prop where
  account : appendAccountEvent (fun _ ↦ false) ctx req (log ++ arrivals.accountEvent) = .ok log₁
  executed : appendEvent ctx (executedDraft ctx req destroyed rows) ctx.executedEvent
    (log₁ ++ arrivals.executedEvent) = .ok (event, log₂)
  unchanged : digestExcluding H ctx (event.eventId ::
      accountEventIds req (log₂ ++ arrivals.digestAfter ++ arrivals.accountEventIds))
    (log₂ ++ arrivals.digestAfter ++ arrivals.accountEventIds ++ arrivals.digestExcluding) = before
  first : req.requestId ∉ rows.deletions.map (·.requestId)

theorem settle_isOk {result : ExecuteResult} : (∃ x, settle (fun _ ↦ false) ctx req destroyed rows
    warnings result = .ok x) ↔ req.requestId ∉ rows.deletions.map (·.requestId) := by
  rw [settle]
  split
  next h => exact ⟨nofun, fun h' ↦ absurd h h'⟩
  next h => exact ⟨fun _ ↦ h, fun _ ↦ ⟨_, rfl⟩⟩

variable {x : ExecuteResult × Rows × List LogRow} {r : LogRow} {others : List LogRow}

/-- What the end of an execution has come by, when some statements fail. -/
theorem conclude_eq_ok
    (h : conclude H fails ctx arrivals req before destroyed rows warnings log = .ok x) :
    ∃ log₁ log₂ event result,
      appendAccountEvent fails ctx req (log ++ arrivals.accountEvent) = .ok log₁ ∧
      appendEvent ctx (executedDraft ctx req destroyed rows) ctx.executedEvent
        (log₁ ++ arrivals.executedEvent) = .ok (event, log₂) ∧
      digestExcluding H ctx (event.eventId ::
          accountEventIds req (log₂ ++ arrivals.digestAfter ++ arrivals.accountEventIds))
        (log₂ ++ arrivals.digestAfter ++ arrivals.accountEventIds ++ arrivals.digestExcluding) =
          before ∧ settle fails ctx req destroyed rows warnings result = .ok (x.1, x.2.1) := by
  rw [conclude] at h
  obtain ⟨log₁, haccount, h⟩ := bind_eq_ok.1 h
  obtain ⟨-, -, h⟩ := bind_eq_ok.1 h
  obtain ⟨-, -, h⟩ := bind_eq_ok.1 h
  obtain ⟨-, -, h⟩ := bind_eq_ok.1 h
  obtain ⟨⟨event, log₂⟩, hexecuted, h⟩ := bind_eq_ok.1 h
  obtain ⟨-, -, h⟩ := bind_eq_ok.1 h
  obtain ⟨-, -, h⟩ := bind_eq_ok.1 h
  obtain ⟨-, -, h⟩ := bind_eq_ok.1 h
  split at h
  next => cases h
  next hunchanged =>
    obtain ⟨-, -, h⟩ := bind_eq_ok.1 h
    obtain ⟨⟨result, rows'⟩, hsettle, h⟩ := bind_eq_ok.1 h
    cases h
    exact ⟨log₁, log₂, event, _, haccount, mapError_eq_ok.1 hexecuted, not_not.1 hunchanged,
      hsettle⟩

variable (warnings) in
theorem conclude_isOk : (∃ x, conclude H (fun _ ↦ false) ctx arrivals req before destroyed rows
    warnings log = .ok x) ↔
    ∃ log₁ log₂ event, Concluded H ctx arrivals req before destroyed rows log log₁ log₂ event := by
  constructor
  · rintro ⟨x, h⟩
    obtain ⟨log₁, log₂, event, result, haccount, hexecuted, hunchanged, hsettle⟩ := conclude_eq_ok h
    exact ⟨log₁, log₂, event, haccount, hexecuted, hunchanged, settle_isOk.1 ⟨_, hsettle⟩⟩
  · rintro ⟨log₁, log₂, event, haccount, hexecuted, hunchanged, hfirst⟩
    obtain ⟨y, hsettle⟩ := settle_isOk.2 hfirst
    rw [conclude]
    refine ⟨(y.1, y.2, log₂ ++ arrivals.digestAfter ++ arrivals.accountEventIds ++
      arrivals.digestExcluding), bind_eq_ok.2 ⟨log₁, haccount, bind_eq_ok.2 ⟨(), rfl,
        bind_eq_ok.2 ⟨(), rfl, bind_eq_ok.2 ⟨(), rfl,
          bind_eq_ok.2 ⟨(event, log₂), mapError_eq_ok.2 hexecuted, ?_⟩⟩⟩⟩⟩⟩
    refine bind_eq_ok.2 ⟨(), rfl, bind_eq_ok.2 ⟨(), rfl, bind_eq_ok.2 ⟨(), rfl, ?_⟩⟩⟩
    rw [if_neg (not_not.2 hunchanged)]
    exact bind_eq_ok.2 ⟨(), rfl, bind_eq_ok.2 ⟨y, hsettle, rfl⟩⟩

theorem conclude_commit
    (h : conclude H fails ctx arrivals req before destroyed rows warnings log = .ok x) :
    fails .commit = false := by
  obtain ⟨-, -, -, result, -, -, -, hsettle⟩ := conclude_eq_ok h
  rw [settle] at hsettle
  split at hsettle
  next => cases hsettle
  next =>
    obtain ⟨-, -, hsettle⟩ := bind_eq_ok.1 hsettle
    obtain ⟨-, -, hsettle⟩ := bind_eq_ok.1 hsettle
    obtain ⟨u, hreach, -⟩ := bind_eq_ok.1 hsettle
    exact reach_eq_ok.1 hreach

/-! ## Events of others -/

theorem Arrivals.mem_all : r ∈ arrivals.all ↔
    r ∈ arrivals.digestBefore ∨ r ∈ arrivals.accountEvent ∨ r ∈ arrivals.executedEvent ∨
      r ∈ arrivals.digestAfter ∨ r ∈ arrivals.accountEventIds ∨ r ∈ arrivals.digestExcluding := by
  simp only [Arrivals.all, Arrivals.between, mem_append, or_assoc]

/-- The Event is not one that this execution appends, nor the deletion of its target. -/
structure Foreign (ctx : ExecuteContext) (requestId : String) (log : List LogRow) (r : LogRow) :
    Prop where
  key : r.workspaceId = ctx.workspace → r.actorAccountId = ctx.account →
    (r.draft.scope, r.draft.key) ≠ ("hard_delete:execute", ctx.command.idempotencyKey) ∧
      (r.draft.scope, r.draft.key) ≠
        ("account:hard_delete", ctx.command.idempotencyKey ++ ":account")
  subject : r.draft.content.deletesAccount requestId = false
  /-- `event_id` is unique. -/
  fresh : r.eventId ∉ ctx.accountEvent.eventId :: ctx.executedEvent.eventId :: log.map (·.eventId)

theorem Foreign.account (h : Foreign ctx req.requestId log r) :
    sameKey ctx (accountDraft ctx req) r = false := by
  refine decide_eq_false ?_
  rintro ⟨hworkspace, haccount, hscope, hkey⟩
  exact (h.key hworkspace haccount).2 (Prod.ext hscope hkey)

theorem Foreign.executed (h : Foreign ctx req.requestId log r) :
    sameKey ctx (executedDraft ctx req destroyed rows) r = false := by
  refine decide_eq_false ?_
  rintro ⟨hworkspace, haccount, hscope, hkey⟩
  exact (h.key hworkspace haccount).1 (Prod.ext hscope hkey)

theorem Foreign.isAccountEvent (h : Foreign ctx req.requestId log r) :
    isAccountEvent req r = false := by
  refine decide_eq_false ?_
  rintro ⟨-, -, hdeletes⟩
  exact absurd (h.subject.symm.trans hdeletes) (by decide)

theorem appendAccountEvent_eq_ok {log' : List LogRow} :
    appendAccountEvent (fun _ ↦ false) ctx req log = .ok log' ↔ if req.targetType = .account then
        ∃ row, appendEvent ctx (accountDraft ctx req) ctx.accountEvent log = .ok (row, log')
      else log' = log := by
  rw [appendAccountEvent]
  split
  · constructor
    · intro h
      obtain ⟨-, -, h⟩ := bind_eq_ok.1 h
      obtain ⟨⟨row, log₁⟩, happend, h⟩ := bind_eq_ok.1 h
      cases h
      exact ⟨row, mapError_eq_ok.1 happend⟩
    · rintro ⟨row, happend⟩
      exact bind_eq_ok.2 ⟨(), rfl, bind_eq_ok.2 ⟨(row, log'), mapError_eq_ok.2 happend, rfl⟩⟩
  · exact ⟨fun h ↦ by cases h; rfl, fun h ↦ by rw [h]⟩

/-- **The Events that an execution appends**, and the Event that it returns. -/
structure Own (ctx : ExecuteContext) (req : HardDeleteRequest) (destroyed : List String)
    (rows : Rows) (log own₁ own₂ : List LogRow) (event : LogRow) : Prop where
  account : appendAccountEvent (fun _ ↦ false) ctx req log = .ok (log ++ own₁)
  executed : appendEvent ctx (executedDraft ctx req destroyed rows) ctx.executedEvent
    (log ++ own₁) = .ok (event, log ++ own₁ ++ own₂)
  deletes : ∀ r ∈ own₁, req.targetType = .account ∧ isAccountEvent req r = true ∧
    r.eventId = ctx.accountEvent.eventId
  returned : own₂ = [] ∧ event ∈ log ++ own₁ ∨
    own₂ = [event] ∧ event.eventId = ctx.executedEvent.eventId

theorem Concluded.own {log₁ log₂ : List LogRow} {event : LogRow}
    (h : Concluded H ctx {} req before destroyed rows log log₁ log₂ event) :
    ∃ own₁ own₂, log₁ = log ++ own₁ ∧ log₂ = log ++ own₁ ++ own₂ ∧
      Own ctx req destroyed rows log own₁ own₂ event := by
  have haccount := h.account
  have hexecuted := h.executed
  rw [append_nil] at haccount hexecuted
  obtain ⟨own₁, rfl, hdeletes⟩ : ∃ own₁, log₁ = log ++ own₁ ∧
      ∀ r ∈ own₁, req.targetType = .account ∧ isAccountEvent req r = true ∧
        r.eventId = ctx.accountEvent.eventId := by
    rw [appendAccountEvent_eq_ok] at haccount
    split at haccount
    next htype =>
      obtain ⟨row, happend⟩ := haccount
      obtain ⟨hdraft, own, hlog, ⟨hown, -⟩ | ⟨hown, hid⟩⟩ := appendEvent_eq_ok happend
      · exact ⟨own, hlog, fun r hr ↦ absurd (hown ▸ hr) not_mem_nil⟩
      · refine ⟨own, hlog, fun r hr ↦ ?_⟩
        rw [hown, mem_singleton] at hr
        rw [hr, isAccountEvent, hdraft]
        exact ⟨htype, by simp [accountDraft, Content.deletesAccount], hid⟩
    next => exact ⟨[], haccount.trans (append_nil _).symm, nofun⟩
  obtain ⟨-, own₂, rfl, hreturned⟩ := appendEvent_eq_ok hexecuted
  refine ⟨own₁, own₂, rfl, rfl, haccount, hexecuted, hdeletes, ?_⟩
  rcases hreturned with ⟨hnil, hmem⟩ | hnew
  · exact .inl ⟨hnil, hmem⟩
  · exact .inr hnew

def excluded (req : HardDeleteRequest) (event : LogRow) (log : List LogRow) : List String :=
  event.eventId :: accountEventIds req log

variable {own₁ own₂ : List LogRow} {event : LogRow}

theorem Own.left_out (h : Own ctx req destroyed rows log own₁ own₂ event) :
    ∀ r ∈ own₁ ++ own₂, r.eventId ∈ excluded req event (log ++ own₁ ++ own₂) := by
  intro r hr
  rcases mem_append.1 hr with hr | hr
  · obtain ⟨htype, hdeletes, -⟩ := h.deletes r hr
    refine mem_cons_of_mem _ ?_
    rw [accountEventIds, if_pos htype]
    exact List.mem_map_of_mem (mem_filter.2 ⟨mem_append_left _ (mem_append_right _ hr), hdeletes⟩)
  · rcases h.returned with ⟨hnil, -⟩ | ⟨hnew, -⟩
    · exact absurd (hnil ▸ hr) not_mem_nil
    · rw [hnew, mem_singleton] at hr
      exact hr ▸ mem_cons_self

theorem Own.eventId_of_left_out (h : Own ctx req destroyed rows log own₁ own₂ event)
    {eventId : String} (hid : eventId ∈ excluded req event (log ++ own₁ ++ own₂)) :
    eventId ∈ ctx.accountEvent.eventId :: ctx.executedEvent.eventId :: log.map (·.eventId) := by
  have hrow : ∀ r ∈ log ++ own₁ ++ own₂, r.eventId ∈
      ctx.accountEvent.eventId :: ctx.executedEvent.eventId :: log.map (·.eventId) := by
    intro r hr
    rcases mem_append.1 hr with hr | hr
    · rcases mem_append.1 hr with hr | hr
      · exact mem_cons_of_mem _ (mem_cons_of_mem _ (List.mem_map_of_mem hr))
      · rw [(h.deletes r hr).2.2]
        exact mem_cons_self
    · rcases h.returned with ⟨hnil, -⟩ | ⟨hnew, heventId⟩
      · exact absurd (hnil ▸ hr) not_mem_nil
      · rw [hnew, mem_singleton] at hr
        rw [hr, heventId]
        exact mem_cons_of_mem _ mem_cons_self
  rcases mem_cons.1 hid with rfl | hid
  · refine hrow event ?_
    rcases h.returned with ⟨-, hmem⟩ | ⟨hnew, -⟩
    · exact mem_append_left _ hmem
    · exact hnew ▸ mem_append_right _ mem_cons_self
  · rw [accountEventIds] at hid
    split at hid
    · obtain ⟨r, hr, rfl⟩ := List.mem_map.1 hid
      exact hrow r (mem_filter.1 hr).1
    · exact absurd hid not_mem_nil

theorem Own.kept (hH : Function.Injective H.sha256)
    (h : Own ctx req destroyed rows log own₁ own₂ event)
    (hdigest : digestExcluding H ctx (excluded req event (log ++ own₁ ++ own₂))
      (log ++ own₁ ++ own₂) = eventChainDigest H ctx log) :
    ∀ r ∈ ofWorkspace ctx.workspace log, r.eventId ∉ excluded req event (log ++ own₁ ++ own₂) := by
  have hout : (ofWorkspace ctx.workspace (own₁ ++ own₂)).filter
      (fun r ↦ r.eventId ∉ excluded req event (log ++ own₁ ++ own₂)) = [] :=
    filter_eq_nil_iff.2 fun r hr hkept ↦
      of_decide_eq_true hkept (h.left_out r (mem_filter.1 hr).1)
  have hsize := size_of_digest hH hdigest
  rw [size_inOrder, size_inOrder_all, append_assoc log, ofWorkspace_append,
    filter_append, ← append_assoc log, hout, append_nil] at hsize
  intro r hr
  exact of_decide_eq_true (forall_of_size_filter hsize r hr)

/-- **The second digest is of the log and of what others have appended.** -/
theorem Own.digestExcluding_eq (h : Own ctx req destroyed rows log own₁ own₂ event)
    (hkept : ∀ r ∈ ofWorkspace ctx.workspace log,
      r.eventId ∉ excluded req event (log ++ own₁ ++ own₂))
    (hforeign : ∀ r ∈ arrivals.all, Foreign ctx req.requestId log r) :
    digestExcluding H ctx (excluded req event (log ++ own₁ ++ own₂))
      (log ++ arrivals.digestBefore ++ arrivals.accountEvent ++ own₁ ++ arrivals.executedEvent ++
        own₂ ++ arrivals.digestAfter ++ arrivals.accountEventIds ++ arrivals.digestExcluding) =
      eventChainDigest H ctx (log ++ arrivals.digestBefore ++ arrivals.between) := by
  generalize hleft : excluded req event (log ++ own₁ ++ own₂) = left at hkept ⊢
  have hothers : ∀ others : List LogRow, (∀ r ∈ others, r ∈ arrivals.all) →
      others.filter (fun r ↦ r.eventId ∉ left) = others := by
    refine fun others hothers ↦ filter_eq_self.2 fun r hr ↦ decide_eq_true fun hid ↦ ?_
    exact (hforeign r (hothers r hr)).fresh (h.eventId_of_left_out (hleft ▸ hid))
  have hown : ∀ own : List LogRow, (∀ r ∈ own, r ∈ own₁ ++ own₂) →
      own.filter (fun r ↦ r.eventId ∉ left) = [] := by
    refine fun own hown ↦ filter_eq_nil_iff.2 fun r hr hkept ↦ ?_
    exact of_decide_eq_true hkept (hleft ▸ h.left_out r (hown r hr))
  have hlog : ofWorkspace ctx.workspace (log.filter fun r ↦ r.eventId ∉ left) =
      ofWorkspace ctx.workspace log := by
    refine (filter_comm ..).trans (filter_eq_self.2 fun r hr ↦ ?_)
    exact decide_eq_true (hkept r hr)
  rw [HardDelete.digestExcluding, eventChainDigest, filter_inOrder]
  refine congrArg (fun l ↦ H.sha256 (digested l)) (inOrder_congr ?_)
  have hfirst := hothers arrivals.digestBefore fun r hr ↦ Arrivals.mem_all.2 (by tauto)
  have haccount := hothers arrivals.accountEvent fun r hr ↦ Arrivals.mem_all.2 (by tauto)
  have hexecuted := hothers arrivals.executedEvent fun r hr ↦ Arrivals.mem_all.2 (by tauto)
  have hafter := hothers arrivals.digestAfter fun r hr ↦ Arrivals.mem_all.2 (by tauto)
  have hids := hothers arrivals.accountEventIds fun r hr ↦ Arrivals.mem_all.2 (by tauto)
  have hlast := hothers arrivals.digestExcluding fun r hr ↦ Arrivals.mem_all.2 (by tauto)
  have hown₁ := hown own₁ fun r hr ↦ mem_append_left _ hr
  have hown₂ := hown own₂ fun r hr ↦ mem_append_right _ hr
  simp only [filter_append, hfirst, haccount, hexecuted, hafter, hids, hlast, hown₁, hown₂]
  simp only [ofWorkspace_append, hlog, Arrivals.between, append_nil, append_assoc]

theorem find?_eq_none_of_forall {q : LogRow → Bool} (h : ∀ r ∈ others, q r = false) :
    others.find? q = none :=
  List.find?_eq_none.2 fun r hr ↦ by
    rw [h r hr]
    exact Bool.false_ne_true

theorem Own.account_arrivals (h : Own ctx req destroyed rows log own₁ own₂ event)
    (hforeign : ∀ r ∈ others, Foreign ctx req.requestId log r) :
    appendAccountEvent (fun _ ↦ false) ctx req (log ++ others) = .ok (log ++ others ++ own₁) := by
  have haccount := appendAccountEvent_eq_ok.1 h.account
  rw [appendAccountEvent_eq_ok]
  by_cases htype : req.targetType = .account
  · rw [if_pos htype] at haccount ⊢
    obtain ⟨row, happend⟩ := haccount
    refine ⟨row, appendEvent_congr happend ?_⟩
    rw [List.find?_append, find?_eq_none_of_forall fun r hr ↦ (hforeign r hr).account,
      Option.or_none]
  · rw [if_neg htype] at haccount ⊢
    rw [append_right_eq_self.1 haccount, append_nil]

theorem Own.executed_arrivals (h : Own ctx req destroyed rows log own₁ own₂ event)
    {others' : List LogRow} (hforeign : ∀ r ∈ others, Foreign ctx req.requestId log r)
    (hforeign' : ∀ r ∈ others', Foreign ctx req.requestId log r) :
    appendEvent ctx (executedDraft ctx req destroyed rows) ctx.executedEvent
      (log ++ others ++ own₁ ++ others') =
        .ok (event, log ++ others ++ own₁ ++ others' ++ own₂) := by
  refine appendEvent_congr h.executed ?_
  simp only [List.find?_append, Option.or_none,
    find?_eq_none_of_forall fun r hr ↦ (hforeign r hr).executed,
    find?_eq_none_of_forall fun r hr ↦ (hforeign' r hr).executed]

/-- **An execution that succeeds alone succeeds among Events of others if and only if none of them
is of the workspace** and comes between the digests. -/
theorem concluded_iff (hH : Function.Injective H.sha256)
    (hforeign : ∀ r ∈ arrivals.all, Foreign ctx req.requestId log r)
    (hquiet : ∃ log₁ log₂ event, Concluded H ctx {} req (eventChainDigest H ctx log) destroyed rows
      log log₁ log₂ event) : (∃ log₁ log₂ event, Concluded H ctx arrivals req
      (eventChainDigest H ctx (log ++ arrivals.digestBefore)) destroyed rows
      (log ++ arrivals.digestBefore) log₁ log₂ event) ↔
      ofWorkspace ctx.workspace arrivals.between = [] := by
  obtain ⟨log₁, log₂, event, hquiet⟩ := hquiet
  obtain ⟨own₁, own₂, rfl, rfl, hown⟩ := hquiet.own
  have hunchanged := hquiet.unchanged
  simp only [append_nil] at hunchanged
  have hkept := hown.kept hH hunchanged
  have hafter : ∀ r ∈ arrivals.digestAfter, Foreign ctx req.requestId log r :=
    fun r hr ↦ hforeign r (Arrivals.mem_all.2 (by tauto))
  have hids : ∀ r ∈ arrivals.accountEventIds, Foreign ctx req.requestId log r :=
    fun r hr ↦ hforeign r (Arrivals.mem_all.2 (by tauto))
  have hmiddle : ∀ r ∈ arrivals.executedEvent, Foreign ctx req.requestId log r :=
    fun r hr ↦ hforeign r (Arrivals.mem_all.2 (by tauto))
  have hfirst : ∀ r ∈ arrivals.digestBefore ++ arrivals.accountEvent,
      Foreign ctx req.requestId log r :=
    fun r hr ↦ hforeign r (Arrivals.mem_all.2 (by rw [mem_append] at hr; tauto))
  have haccount := hown.account_arrivals hfirst
  have hexecuted := hown.executed_arrivals hfirst hmiddle
  have hexcluded : excluded req event (log ++ arrivals.digestBefore ++ arrivals.accountEvent ++
      own₁ ++ arrivals.executedEvent ++ own₂ ++ arrivals.digestAfter ++ arrivals.accountEventIds) =
        excluded req event (log ++ own₁ ++ own₂) := by
    have hnone : ∀ others : List LogRow, (∀ r ∈ others, Foreign ctx req.requestId log r) →
        others.filter (isAccountEvent req) = [] := fun others hothers ↦
      filter_eq_nil_iff.2 fun r hr ↦ by
        rw [(hothers r hr).isAccountEvent]
        exact Bool.false_ne_true
    have hnone₁ := hnone _ hfirst
    rw [filter_append] at hnone₁
    obtain ⟨hnone₁, hnone₂⟩ := append_eq_nil_iff.1 hnone₁
    simp only [excluded, accountEventIds, filter_append, hnone₁, hnone₂, hnone _ hmiddle,
      hnone _ hafter, hnone _ hids, append_nil]
  have hdigest := hown.digestExcluding_eq (H := H) hkept hforeign
  rw [← append_assoc] at haccount hexecuted
  constructor
  · rintro ⟨log₁, log₂, event', h⟩
    obtain rfl := Except.ok.inj (h.account.symm.trans haccount)
    obtain ⟨rfl, rfl⟩ := Prod.mk.inj (Except.ok.inj (h.executed.symm.trans hexecuted))
    have hsame := h.unchanged
    rw [← excluded, hexcluded, hdigest] at hsame
    exact (eventChainDigest_append_iff hH).1 hsame
  · intro hnone
    refine ⟨_, _, event, haccount, hexecuted, ?_, hquiet.first⟩
    rw [← excluded, hexcluded, hdigest]
    exact (eventChainDigest_append_iff hH).2 hnone

end Conclude

end AgentColab.HardDelete
