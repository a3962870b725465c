import AgentColab.Work.Deliveries

/-!
# When delivered work can be answered

An item that is waiting in `QUEUED` takes no answer. A delivered item gets there when the sweep
re-queues it, and stays there until it is delivered again; the agent cannot see it. In every other
status that is not terminal, the acknowledgement of the owner and its result are accepted.
-/

namespace AgentColab.Work

open Transaction Database List Option
open Function (update_of_ne update_self)
open Sample (served requeued config clockAt)

variable {α β : Type} {cfg : Config} {inp : ℕ → WorkInput} {db db' : WorkTables} {n : ℕ}

/-! ## What is recorded of an open item -/

/-- An item with a result has ended, and the Events agree with the rows. -/
structure Recorded (db : WorkTables) : Prop where
  open' : ∀ wid row, db.item wid = some row → row.status ∉ terminalStates → db.results wid = []
  absent : ∀ wid, db.item wid = none → db.results wid = []
  closing : ∀ e ∈ db.events, e.type = .resultReceived → e.idempotencyKey = e.aggregateId ∧
    ∃ row, db.item e.aggregateId = some row ∧ row.status ∈ terminalStates
  acking : ∀ e ∈ db.events, e.type = .acked → e.idempotencyKey = e.aggregateId ∧
    e.payload = idPayload e.aggregateId ∧
      ∃ row, db.item e.aggregateId = some row ∧ row.taskId = e.taskId

section Turns

variable {item item' : ItemRow} {receipts : List ReceiptRow} {events : List Event}

theorem Turn.results (h : Turn db item item' receipts events db') (wid : String) :
    db'.results wid = db.results wid ++
      receipts.filter fun r ↦ r.workItemId = wid ∧ r.receiptKind = .result := by
  rw [WorkTables.results, h.receipts, filter_append]
  rfl

theorem Turn.kept (h : Turn db item item' receipts events db') {P : ItemRow → Prop}
    (hP : P item → P item') {wid : String} (hrow : ∃ row, db.item wid = some row ∧ P row) :
    ∃ row, db'.item wid = some row ∧ P row := by
  obtain ⟨row, hrow, hrow'⟩ := hrow
  rw [h.items]
  by_cases hwid : wid = item.workItemId
  · subst hwid
    obtain rfl := some.inj (h.found.symm.trans hrow)
    exact ⟨item', update_self .., hP hrow'⟩
  · exact ⟨row, by rw [update_of_ne hwid, hrow], hrow'⟩

variable {kinds : List ReceiptKind}

theorem Recorded.turn (hdb : Recorded db) (h : Turn db item item' receipts events db')
    (hown : Of item kinds receipts) (htask : item'.taskId = item.taskId)
    (hended : item.status ∈ terminalStates → item'.status ∈ terminalStates)
    (hresults : .result ∉ kinds ∨ item'.status ∈ terminalStates) (hclosing : ∀ e ∈ events, e.type =
    .resultReceived → e.idempotencyKey = e.aggregateId ∧ ∃ row, db'.item e.aggregateId = some row ∧
    row.status ∈ terminalStates) (hacking : ∀ e ∈ events, e.type = .acked → e.idempotencyKey =
    e.aggregateId ∧ e.payload = idPayload e.aggregateId ∧ ∃ row, db'.item e.aggregateId = some row
    ∧ row.taskId = e.taskId) : Recorded db' := by
  have hothers : ∀ wid, wid ≠ item.workItemId → db'.results wid = db.results wid := by
    intro wid hwid
    rw [h.results, filter_eq_nil_iff.2, append_nil]
    intro r hr
    simp [(hown r hr).1, hwid.symm]
  refine ⟨fun wid row hrow hopen ↦ ?_, fun wid hnone ↦ ?_, fun e he htype ↦ ?_, fun e he htype ↦ ?_⟩
  · rw [h.items] at hrow
    by_cases hwid : wid = item.workItemId
    · subst hwid
      rw [update_self] at hrow
      obtain rfl := some.inj hrow
      have hkind := hresults.resolve_right hopen
      rw [h.results, hdb.open' _ item h.found fun hwas ↦ hopen (hended hwas), nil_append,
        filter_eq_nil_iff]
      intro r hr hresult
      exact hkind ((of_decide_eq_true hresult).2 ▸ (hown r hr).2)
    · rw [update_of_ne hwid] at hrow
      rw [hothers wid hwid]
      exact hdb.open' wid row hrow hopen
  · rw [h.items] at hnone
    by_cases hwid : wid = item.workItemId
    · simp [hwid] at hnone
    · rw [update_of_ne hwid] at hnone
      rw [hothers wid hwid]
      exact hdb.absent wid hnone
  · rw [h.events] at he
    rcases mem_append.1 he with he | he
    · obtain ⟨hkey, hrow⟩ := hdb.closing e he htype
      exact ⟨hkey, h.kept hended hrow⟩
    · exact hclosing e he htype
  · rw [h.events] at he
    rcases mem_append.1 he with he | he
    · obtain ⟨hkey, hpayload, hrow⟩ := hdb.acking e he htype
      exact ⟨hkey, hpayload, h.kept (fun ht ↦ htask.trans ht) hrow⟩
    · exact hacking e he htype

theorem Recorded.quiet (hdb : Recorded db) (h : Turn db item item' receipts events db')
    (hown : Of item kinds receipts) (hkinds : .result ∉ kinds) (htask : item'.taskId = item.taskId)
    (hended : item.status ∈ terminalStates → item'.status ∈ terminalStates)
    (htype : ∀ e ∈ events, e.type ≠ .resultReceived ∧ e.type ≠ .acked) : Recorded db' :=
  hdb.turn h hown htask hended (.inl hkinds) (fun e he heq ↦ absurd heq (htype e he).1)
    fun e he heq ↦ absurd heq (htype e he).2

end Turns

variable {row : ItemRow} {actor digest ref : String} {r : SubmitResult}
    {Q : Except WorkItemError ResultOutcome → WorkTables → ℕ → Prop}

theorem Recorded.created (hdb : Recorded db) {events : List Event}
    (fresh : db.item row.workItemId = none)
    (items : db'.item = Function.update db.item row.workItemId (some row))
    (receipts : db'.receipts = db.receipts) (type : ∀ e ∈ events, e.type = .queued)
    (sent : db'.events = db.events ++ events) : Recorded db' := by
  have hsame : ∀ wid, db'.results wid = db.results wid := fun wid ↦ by
    rw [WorkTables.results, receipts]
    rfl
  have hkept : ∀ {P : ItemRow → Prop} {wid : String}, (∃ row, db.item wid = some row ∧ P row) →
      ∃ row, db'.item wid = some row ∧ P row := by
    rintro P wid ⟨row', hrow', hP⟩
    have hwid : wid ≠ row.workItemId := by
      rintro rfl
      rw [fresh] at hrow'
      cases hrow'
    exact ⟨row', by rw [items, update_of_ne hwid, hrow'], hP⟩
  refine ⟨fun wid row' hrow' hopen ↦ ?_, fun wid hnone ↦ ?_, fun e he htype ↦ ?_,
    fun e he htype ↦ ?_⟩
  · rw [hsame]
    by_cases hwid : wid = row.workItemId
    · exact hwid ▸ hdb.absent _ fresh
    · rw [items, update_of_ne hwid] at hrow'
      exact hdb.open' wid row' hrow' hopen
  · rw [hsame]
    by_cases hwid : wid = row.workItemId
    · exact hwid ▸ hdb.absent _ fresh
    · rw [items, update_of_ne hwid] at hnone
      exact hdb.absent wid hnone
  · rw [sent] at he
    rcases mem_append.1 he with he | he
    · exact ⟨(hdb.closing e he htype).1, hkept (hdb.closing e he htype).2⟩
    · exact absurd ((type e he).symm.trans htype) (by decide)
  · rw [sent] at he
    rcases mem_append.1 he with he | he
    · obtain ⟨hkey, hpayload, hrow⟩ := hdb.acking e he htype
      exact ⟨hkey, hpayload, hkept hrow⟩
    · exact absurd ((type e he).symm.trans htype) (by decide)

theorem Recorded.change (hdb : Recorded db) (h : Change db db') : Recorded db' := by
  cases h with
  | created _ _ fresh _ _ _ items receipts type sent =>
    exact hdb.created fresh items receipts type sent
  | delivered _ _ r _ waiting receipt type turn =>
    refine hdb.quiet turn receipt (by decide) rfl (fun hended ↦ ?_) fun e he ↦ by simp [type e he]
    rw [waiting] at hended
    exact absurd hended (by decide)
  | moved _ _ _ _ _ _ _ _ legal _ _ own other sent ack turn =>
    refine hdb.turn turn own rfl (fun hended ↦ absurd hended (transition_eq_ok.1 legal).1)
      (.inl (by decide)) (fun e he htype ↦ absurd ((sent.type e he).symm.trans htype) other)
      fun e he htype ↦ ⟨(sent.key e he).trans (sent.aggregateId e he).symm, ?_, ?_⟩
    · rw [sent.payload e he, sent.aggregateId e he]
      exact ack ((sent.type e he).symm.trans htype)
    · rw [sent.aggregateId e he, sent.taskId e he, turn.items]
      exact ⟨_, update_self .., rfl⟩
  | requeued item _ was _ turn =>
    have hown : Of item [] [] := fun r hr ↦ absurd hr not_mem_nil
    refine hdb.quiet turn hown (by decide) rfl (fun hended ↦ ?_)
      fun e he ↦ absurd he not_mem_nil
    rw [was] at hended
    exact absurd hended (by decide)
  | answered _ _ r _ _ _ _ receipt sent turn =>
    have hended : WorkItemState.resultReceived ∈ terminalStates := by decide
    refine hdb.turn turn receipt rfl (fun _ ↦ hended) (.inr hended)
      (fun e he _ ↦ ⟨(sent.key e he).trans (sent.aggregateId e he).symm, ?_⟩)
      fun e he htype ↦ absurd ((sent.type e he).symm.trans htype) (by decide)
    rw [sent.aggregateId e he, turn.items]
    exact ⟨_, update_self .., hended⟩
  | ignored _ _ own turn =>
    exact hdb.quiet turn own (by decide) rfl id fun e he ↦ absurd he not_mem_nil

theorem recorded_of_history {C : WorkTables → ℕ → WorkCall → (ℕ → WorkInput) → Prop} {m : ℕ}
    (h : workDatabase.History (workBody cfg) C {} m db n) : Indexed db ∧ Recorded db := by
  refine history_changes (I := Recorded) ⟨fun _ _ hrow ↦ ?_, fun _ _ ↦ rfl, fun e he ↦ ?_,
    fun e he ↦ ?_⟩ (fun _ _ _ hrecorded hchange ↦ hrecorded.change hchange) h
  · cases hrow
  · cases he
  · cases he

/-! ## Running a call -/

section Rules

variable {Q : Except WorkItemError α → WorkTables → ℕ → Prop}

theorem wp_read {o : Op} {f : Res o → Body α}
    (hread : (execStatement (inp n) n (fun _ ↦ false) db o).writes = [])
    (h : workDatabase.wp inp (f (execStatement (inp n) n (fun _ ↦ false) db o).result) Q db
      (n + 1)) : workDatabase.wp inp (ask o >>= f) Q db n := by
  refine wp_do (wp_issue.2 ?_)
  change workDatabase.wp inp _ Q
    (workDatabase.view db (execStatement (inp n) n (fun _ ↦ false) db o).writes) _
  rw [hread]
  exact h

variable {wid : String} {row : ItemRow}

theorem wp_load {forUpdate : Bool} {Q : Except WorkItemError ItemRow → WorkTables → ℕ → Prop}
    (hrow : db.item wid = some row) (h : Q (.ok row) db (n + 1)) :
    workDatabase.wp inp (load wid forUpdate) Q db n := by
  refine wp_read rfl ?_
  dsimp only [execStatement]
  rw [hrow]
  exact wp_ret.2 h

theorem wp_requireOwner {Q : Except WorkItemError Unit → WorkTables → ℕ → Prop}
    (h : Q (.ok ()) db n) : workDatabase.wp inp (requireOwner row row.agentId) Q db n := by
  rw [requireOwner, if_neg fun hne ↦ hne rfl]
  exact wp_ret.2 h

theorem wp_orRaise {x : Except WorkItemError α} (h : Q x db n) :
    workDatabase.wp inp (orRaise x) Q db n := by
  cases x with
  | error => exact wp_raise.2 h
  | ok => exact wp_ret.2 h

theorem wp_setColumns {cols : Columns} {now : Time} {f : Unit → Body α}
    (h : workDatabase.wp inp (f ()) Q (db.apply (.setColumns wid cols now)) (n + 1)) :
    workDatabase.wp inp (ask (.setColumns wid cols now) >>= f) Q db n :=
  wp_do (wp_issue.2 h)

theorem wp_recordReceipt {r : NewReceipt}
    {Q : Except WorkItemError (Option ReceiptRow) → WorkTables → ℕ → Prop}
    (hrow : db.item r.workItemId = some row)
    (hfree : r.receiptKind = .result → db.results r.workItemId = [])
    (h : Q (.ok (some ⟨r, n⟩)) { db with receipts := db.receipts ++ [⟨r, n⟩] } (n + 1)) :
    workDatabase.wp inp (recordReceipt r) Q db n := by
  have hnot : ¬((db.item r.workItemId).isNone ∨
      (r.receiptKind = .result ∧ db.results r.workItemId ≠ [])) := by
    rintro (hnone | ⟨hkind, hne⟩)
    · rw [hrow] at hnone
      cases hnone
    · exact hne (hfree hkind)
  refine wp_do (wp_issue.2 ?_)
  dsimp only [execStatement, execReceipt]
  simp only [if_neg hnot]
  exact wp_ret.2 h

theorem wp_append {item : ItemRow} {type : EventType} {actor key : String} {payload : Json}
    {Q : Except WorkItemError ℕ → WorkTables → ℕ → Prop} (hwilling : (inp n).appendError = none)
    (hsame : ∀ e ∈ db.events, e.type = type → e.idempotencyKey = key →
      e.aggregateId = item.workItemId ∧ e.payload = payload ∧ e.taskId = item.taskId)
    (h : ∀ id events, Sent item type key payload events →
      Q (.ok id) { db with events := db.events ++ events } (n + 1)) :
    workDatabase.wp inp (append item type actor key payload) Q db n := by
  refine wp_do (wp_issue.2 ?_)
  change workDatabase.wp inp (orRaise (execAppend (inp n) n db _).result) _
    (workDatabase.view db (execAppend (inp n) n db _).writes) (n + 1)
  rw [execAppend]
  split
  · next prior hprior =>
    have hkey := List.find?_some hprior
    simp only [Event.sameKey, Bool.and_eq_true, decide_eq_true_eq] at hkey
    obtain ⟨hagg, hpayload, htask⟩ := hsame prior (mem_of_find?_eq_some hprior) hkey.1.2 hkey.2
    rw [if_pos (by simp [Event.sameBody, hagg, hpayload, htask])]
    have hnone := h prior.eventId [] ⟨by simp, by simp, by simp, by simp, by simp⟩
    rw [append_nil] at hnone
    exact wp_ret.2 hnone
  · rw [hwilling]
    exact wp_ret.2 (h n [_] ⟨by simp, by simp, by simp, by simp, by simp⟩)

end Rules

/-! ## Acknowledgements -/

/-- The Event store refuses no Event. -/
def Willing (inp : ℕ → WorkInput) : Prop := ∀ n, (inp n).appendError = none

/-- The item has been acknowledged, and nothing else about it has changed. -/
structure Acked (db : WorkTables) (row row' : ItemRow) (db' : WorkTables) : Prop where
  item : db'.item row.workItemId = some row'
  status : row'.status ∈ [WorkItemState.acked, .inProgress]
  id : row'.workItemId = row.workItemId
  owner : row'.agentId = row.agentId
  results : db'.results row.workItemId = db.results row.workItemId
  answers : ∀ e ∈ db'.events, e.type = .resultReceived → e ∈ db.events

/-- The change of state of an item that leaves a receipt. -/
theorem wp_move {cols : Columns} {now : Time} {r : NewReceipt} {type : EventType} {payload : Json}
    {Q : Except WorkItemError ItemRow → WorkTables → ℕ → Prop} (hwilling : Willing inp)
    (hrow : db.item row.workItemId = some row) (hof : r.workItemId = row.workItemId)
    (hkind : r.receiptKind ≠ .result) (hsame : ∀ e ∈ db.events, e.type = type → e.idempotencyKey =
    row.workItemId → e.aggregateId = row.workItemId ∧ e.payload = payload ∧ e.taskId = row.taskId)
    (h : ∀ receipt events db' k, receipt.toNewReceipt = r → Sent row type row.workItemId payload
    events → Turn db row (row.set cols now) [receipt] events db' → Q (.ok (row.set cols now)) db'
    k) : workDatabase.wp inp (move row cols now (some r) type actor payload) Q db n := by
  have hset : (db.apply (.setColumns row.workItemId cols now)).item row.workItemId =
      some (row.set cols now) := by
    simp [WorkTables.apply, hrow]
  have hfound : (db.apply (.setColumns row.workItemId cols now)).item r.workItemId =
      some (row.set cols now) := by
    rw [hof, hset]
  refine wp_setColumns (wp_do (wp_do (wp_recordReceipt hfound (fun hresult ↦ absurd hresult hkind)
    (wp_ret.2 (wp_do (wp_append (hwilling _) hsame fun id events hsent ↦ ?_))))))
  exact wp_load hset (h ⟨r, n + 1⟩ events _ _ rfl hsent (.setColumns hrow))

/-- **An acknowledgement by the owner** is accepted in `DELIVERED`, and again afterwards. -/
theorem wp_ack {Q : Except WorkItemError ItemRow → WorkTables → ℕ → Prop} (hdb : Recorded db)
    (hwilling : Willing inp) (hrow : db.item row.workItemId = some row)
    (hstatus : row.status ∈ [WorkItemState.delivered, .acked, .inProgress])
    (h : ∀ row' db' k, Acked db row row' db' → Q (.ok row') db' k) :
    workDatabase.wp inp (ack row.workItemId row.agentId actor) Q db n := by
  refine wp_do (wp_load hrow (wp_do (wp_requireOwner ?_)))
  dsimp only
  by_cases hacked : row.status ∈ [WorkItemState.acked, .inProgress]
  · rw [if_pos hacked]
    exact wp_ret.2 (h row db _ ⟨hrow, hacked, rfl, rfl, rfl, fun _ he _ ↦ he⟩)
  rw [if_neg hacked]
  have hdelivered : row.status = .delivered := (mem_cons.1 hstatus).resolve_right hacked
  have hlegal : transition row.status .ack = .ok .acked := by
    rw [hdelivered]
    rfl
  refine wp_do (wp_orRaise ?_)
  rw [hlegal]
  refine wp_read rfl (wp_move hwilling hrow rfl (fun hkind ↦ nomatch hkind)
    (fun e he htype hkey ↦ ?_) fun receipt events db' k hreceipt hsent hturn ↦
      h _ db' k ⟨?_, ?_, rfl, rfl, ?_, fun e he htype ↦ ?_⟩)
  · -- an acknowledgement that was recorded before was one of this item
    obtain ⟨hown, hpayload, row', hrow', htask⟩ := hdb.acking e he htype
    have hagg := hown.symm.trans hkey
    rw [hagg, hrow] at hrow'
    obtain rfl := some.inj hrow'
    exact ⟨hagg, hagg ▸ hpayload, htask.symm⟩
  · rw [hturn.items, update_self]
  · simp
  · rw [hturn.results]
    simp [hreceipt]
  · rw [hturn.events] at he
    rcases mem_append.1 he with he | he
    · exact he
    · exact absurd ((hsent.type e he).symm.trans htype) (by decide)

/-! ## Results -/

/-- A submission by the owner that the schema allows, for this item. -/
structure Valid (cfg : Config) (row : ItemRow) (r : SubmitResult) : Prop where
  item : r.workItemId = row.workItemId
  owner : r.agentId = row.agentId
  schema : cfg.validate r.payload = none
  names : r.payload.members.lookup "work_item_id" = some (.str r.workItemId)
  status : ∃ status, r.payload.members.lookup "status" = some status
  canonical : ∃ bytes, canonicalJson r.payload.json = .ok bytes

theorem wp_concludeResult {status : Json} {receipt : ReceiptRow}
    (hitem : r.workItemId = row.workItemId) (hwilling : Willing inp)
    (hrow : db.item row.workItemId = some row)
    (hunanswered : ∀ e ∈ db.events, e.type = .resultReceived → e.idempotencyKey ≠ row.workItemId)
    (h : ∀ outcome db' k, outcome.code = .accepted → Q (.ok outcome) db' k) :
    workDatabase.wp inp (concludeResult r row .resultReceived status receipt ref) Q db n := by
  rw [concludeResult, hitem]
  refine wp_read rfl (wp_setColumns (wp_do (wp_append (hwilling _)
    (fun e he htype hkey ↦ absurd hkey (hunanswered e he htype)) fun id events hsent ↦ wp_do ?_)))
  have hset : ∀ cols now, (db.apply (.setColumns row.workItemId cols now)).item row.workItemId =
      some (row.set cols now) := by
    intro cols now
    simp [WorkTables.apply, hrow]
  rw [auditIdentity]
  split
  · exact wp_issue.2 (wp_do (wp_load (hset _ _) (wp_ret.2 (h _ _ _ rfl))))
  · exact wp_ret.2 (wp_do (wp_load (hset _ _) (wp_ret.2 (h _ _ _ rfl))))

/-- What is left of a submission for an item that has been acknowledged. -/
def submitAcked (r : SubmitResult) (item : ItemRow) (ref digest : String) : Body ResultOutcome := do
  let newState ← orRaise (transition item.status .result)
  let status ← statusOf r.payload
  recordResult r item newState status ref digest

theorem wp_submitAcked (hvalid : Valid cfg row r) (hwilling : Willing inp)
    (hrow : db.item row.workItemId = some row)
    (hstatus : row.status ∈ [WorkItemState.acked, .inProgress])
    (hresults : db.results row.workItemId = [])
    (hunanswered : ∀ e ∈ db.events, e.type = .resultReceived → e.idempotencyKey ≠ row.workItemId)
    (h : ∀ outcome db' k, outcome.code = .accepted → Q (.ok outcome) db' k) :
    workDatabase.wp inp (submitAcked r row ref digest) Q db n := by
  have hlegal : transition row.status .result = .ok .resultReceived := by
    rcases mem_pair.1 hstatus with hs | hs <;> rw [hs] <;> rfl
  obtain ⟨status, hs⟩ := hvalid.status
  refine wp_do (wp_orRaise ?_)
  rw [hlegal]
  refine wp_do ?_
  rw [statusOf, hs]
  refine wp_ret.2 (wp_do (wp_recordReceipt (hvalid.item ▸ hrow)
    (fun _ ↦ hvalid.item ▸ hresults) ?_))
  exact wp_concludeResult hvalid.item hwilling hrow hunanswered h

theorem wp_acceptResult (hdb : Recorded db) (hvalid : Valid cfg row r) (hwilling : Willing inp)
    (hrow : db.item row.workItemId = some row)
    (hstatus : row.status ∈ [WorkItemState.delivered, .acked, .inProgress])
    (hresults : db.results row.workItemId = [])
    (hunanswered : ∀ e ∈ db.events, e.type = .resultReceived → e.idempotencyKey ≠ row.workItemId)
    (h : ∀ outcome db' k, outcome.code = .accepted → Q (.ok outcome) db' k) :
    workDatabase.wp inp (acceptResult r row ref digest) Q db n := by
  have hrest : ∀ {row' db' k}, Acked db row row' db' →
      workDatabase.wp inp (submitAcked r row' ref digest) Q db' k := by
    rintro row' db' k ⟨hitem, hacked, hid, howner, hkept, hanswers⟩
    exact wp_submitAcked ⟨hvalid.item.trans hid.symm, hvalid.owner.trans howner.symm, hvalid.schema,
      hvalid.names, hvalid.status, hvalid.canonical⟩ hwilling (hid ▸ hitem) hacked
      (hid ▸ hkept.trans hresults)
      (fun e he htype ↦ hid ▸ hunanswered e (hanswers e he htype) htype) h
  rw [acceptResult]
  refine wp_do ?_
  rw [impliedAck]
  split
  · rw [hvalid.item, hvalid.owner]
    exact wp_do (wp_ack hdb hwilling hrow hstatus fun row' db' k hacked ↦
      wp_load hacked.item (hrest hacked))
  · next hne =>
    exact wp_ret.2 (hrest ⟨hrow, (mem_cons.1 hstatus).resolve_left hne, rfl, rfl, rfl,
      fun _ he _ ↦ he⟩)

theorem wp_result_open (hdb : Recorded db) (hvalid : Valid cfg row r)
    (hrow : db.item row.workItemId = some row) (hopen : row.status ∉ terminalStates)
    (h : ∀ ref digest k, workDatabase.wp inp (acceptResult r row ref digest) Q db k) :
    workDatabase.wp inp (result cfg r) Q db n := by
  obtain ⟨bytes, hbytes⟩ := hvalid.canonical
  refine wp_do ?_
  rw [validated, hvalid.schema]
  refine wp_ret.2 (wp_do ?_)
  rw [namesItem, hvalid.names]
  dsimp only
  rw [if_neg fun hne ↦ hne rfl, hvalid.item, hvalid.owner]
  refine wp_ret.2 (wp_do (wp_load hrow (wp_do (wp_requireOwner (wp_do ?_)))))
  rw [canonicalized, hbytes]
  refine wp_ret.2 (wp_read rfl ?_)
  dsimp only [execStatement]
  rw [hdb.open' _ row hrow hopen, if_neg]
  · exact h _ _ _
  · rintro (hsome | hended)
    · cases hsome
    · exact hopen hended

/-- **A result of the owner** is accepted for an open item that has been delivered. -/
theorem wp_result (hdb : Recorded db) (hvalid : Valid cfg row r) (hwilling : Willing inp)
    (hrow : db.item row.workItemId = some row) (hopen : row.status ∉ terminalStates)
    (hstatus : row.status ∈ [WorkItemState.delivered, .acked, .inProgress])
    (h : ∀ outcome db' k, outcome.code = .accepted → Q (.ok outcome) db' k) :
    workDatabase.wp inp (result cfg r) Q db n := by
  refine wp_result_open hdb hvalid hrow hopen fun ref digest k ↦ wp_acceptResult hdb hvalid hwilling
    hrow hstatus (hdb.open' _ row hrow hopen) (fun e he htype hkey ↦ ?_) h
  obtain ⟨hown, row', hrow', hended⟩ := hdb.closing e he htype
  rw [hown.symm.trans hkey, hrow] at hrow'
  exact hopen (some.inj hrow' ▸ hended)

/-! ## Which items can be answered -/

/-- The acknowledgement of the owner and its result are accepted. -/
structure Answerable (cfg : Config) (inp : ℕ → WorkInput) (db : WorkTables) (n : ℕ)
    (row : ItemRow) : Prop where
  ack : ∀ actor, ∃ row',
    (workDatabase.serial inp n db (ack row.workItemId row.agentId actor)).1 = .ok row' ∧
      row'.status ∈ [WorkItemState.acked, .inProgress]
  result : ∀ r, Valid cfg row r → ∃ outcome,
    (workDatabase.serial inp n db (result cfg r)).1 = .ok outcome ∧ outcome.code = .accepted

/-- Both are refused, because of the status. -/
structure Refused (cfg : Config) (inp : ℕ → WorkInput) (db : WorkTables) (n : ℕ) (row : ItemRow) :
    Prop where
  ack : ∀ actor, (workDatabase.serial inp n db (ack row.workItemId row.agentId actor)).1 =
    .error ⟨"WORK_ITEM_TRANSITION_INVALID", "ack from QUEUED"⟩
  result : ∀ r, Valid cfg row r → (workDatabase.serial inp n db (result cfg r)).1 =
    .error ⟨"WORK_ITEM_TRANSITION_INVALID", "result from QUEUED"⟩

theorem outcome_of_wp {p : Body α} {P : Except WorkItemError α → Prop}
    (h : workDatabase.wp inp p (fun x _ _ ↦ P x) db n) : P (workDatabase.serial inp n db p).1 := by
  rwa [wp] at h

theorem answerable_of_delivered (hdb : Recorded db) (hwilling : Willing inp)
    (hrow : db.item row.workItemId = some row) (hopen : row.status ∉ terminalStates)
    (hstatus : row.status ≠ .queued) : Answerable cfg inp db n row := by
  have hdelivered : row.status ∈ [WorkItemState.delivered, .acked, .inProgress] := by
    revert hopen hstatus
    cases row.status <;> decide
  constructor
  · intro actor
    refine outcome_of_wp (P := fun x ↦ ∃ row' : ItemRow, x = .ok row' ∧
      row'.status ∈ [WorkItemState.acked, .inProgress]) ?_
    exact wp_ack hdb hwilling hrow hdelivered fun row' db' k hacked ↦ ⟨row', rfl, hacked.status⟩
  · intro r hvalid
    refine outcome_of_wp (P := fun x ↦ ∃ outcome : ResultOutcome, x = .ok outcome ∧
      outcome.code = .accepted) ?_
    exact wp_result hdb hvalid hwilling hrow hopen hdelivered fun outcome _ _ hcode ↦
      ⟨outcome, rfl, hcode⟩

theorem refused_of_queued (hdb : Recorded db) (hrow : db.item row.workItemId = some row)
    (hqueued : row.status = .queued) : Refused cfg inp db n row := by
  constructor
  · intro actor
    refine outcome_of_wp (P := fun x ↦ x =
      .error ⟨"WORK_ITEM_TRANSITION_INVALID", "ack from QUEUED"⟩) ?_
    refine wp_do (wp_load hrow (wp_do (wp_requireOwner ?_)))
    dsimp only
    rw [if_neg (by rw [hqueued]; decide)]
    refine wp_do (wp_orRaise ?_)
    rw [hqueued]
    rfl
  · intro r hvalid
    refine outcome_of_wp (P := fun x ↦ x =
      .error ⟨"WORK_ITEM_TRANSITION_INVALID", "result from QUEUED"⟩) ?_
    refine wp_result_open hdb hvalid hrow (by rw [hqueued]; decide) fun ref digest k ↦ wp_do ?_
    rw [impliedAck, if_neg (by rw [hqueued]; decide)]
    refine wp_ret.2 (wp_do (wp_orRaise ?_))
    rw [hqueued]
    rfl

/-- **Which items can be answered.** After any sequence of calls of the inbox, an item that is not
terminal takes the acknowledgement and the result of its owner unless it is in `QUEUED`; there,
where a sweep puts a delivered item back, both are refused. -/
theorem answerable_unless_queued {m : ℕ}
    (h : workDatabase.History (workBody cfg) (fun _ _ _ _ ↦ True) {} m db n) {wid : String}
    {row : ItemRow} (hrow : db.item wid = some row) (hopen : row.status ∉ terminalStates)
    (hwilling : Willing inp) : (row.status ≠ .queued → Answerable cfg inp db n row) ∧
      (row.status = .queued → Refused cfg inp db n row) := by
  obtain ⟨hindexed, hdb⟩ := recorded_of_history h
  obtain rfl := hindexed.named wid row hrow
  exact ⟨answerable_of_delivered hdb hwilling hrow hopen, refused_of_queued hdb hrow⟩

/-- The item that was delivered and re-queued takes no answer. -/
theorem answerable_unless_queued_requeued : ∃ row,
    (served requeued).1.item "wi-00000001" = some row ∧ row.deliveryCount = 1 ∧
      Refused config (clockAt 2) (served requeued).1 (served requeued).2 row := by
  have hqueued : ((served requeued).1.item "wi-00000001").any
      (fun row ↦ row.status = .queued ∧ row.deliveryCount = 1) = true := by
    decide
  obtain ⟨row, hrow, hstatus⟩ := (Option.any_eq_true _ _).1 hqueued
  obtain ⟨hstatus, hcount⟩ := of_decide_eq_true hstatus
  refine ⟨row, hrow, hcount, ?_⟩
  refine (answerable_unless_queued (Sample.served_history requeued) hrow ?_ fun _ ↦ rfl).2 hstatus
  rw [hstatus]
  decide

/-- The owner of an item that was delivered cannot acknowledge it. -/
theorem delivered_not_answerable : ¬∀ (cfg : Config) (inp : ℕ → WorkInput) (m n : ℕ)
    (db : WorkTables) (wid : String) (row : ItemRow),
    workDatabase.History (workBody cfg) (fun _ _ _ _ ↦ True) {} m db n → db.item wid = some row →
      0 < row.deliveryCount → row.status ∉ terminalStates → Willing inp →
        Answerable cfg inp db n row := by
  intro h
  have hrefused : ((served requeued).1.item "wi-00000001").any (fun row ↦
      row.status = .queued ∧ row.deliveryCount = 1 ∧ (workDatabase.serial (clockAt 2)
        (served requeued).2 (served requeued).1
        (ack row.workItemId row.agentId "agent-account")).1.isOk = false) = true := by
    decide
  obtain ⟨row, hrow, hfacts⟩ := (Option.any_eq_true _ _).1 hrefused
  obtain ⟨hstatus, hcount, hack⟩ := of_decide_eq_true hfacts
  obtain ⟨row', hok, -⟩ := (h config (clockAt 2) _ _ _ _ row
    (Sample.served_history requeued) hrow (by omega) (by rw [hstatus]; decide)
    fun _ ↦ rfl).ack "agent-account"
  rw [hok] at hack
  cases hack

end AgentColab.Work
