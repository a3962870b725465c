import AgentColab.Digest.Sha256
import AgentColab.Work.Conformance

/-!
# A work item has one result

Whoever has locked a row and looked for its receipt knows both until the end of the transaction.
Between the receipt and the status a call is in debt, and no call ends in debt.
-/

namespace AgentColab.Work

open Transaction System List Option
open WorkKnown (initial rows_lock_self rows_lock_of_ne)

/-! ## The cell of an item -/

/-- The row of an item, its `result` receipts and their Events. -/
structure Cell where
  item : Option ItemRow
  results : List ReceiptRow
  events : List Event

def WorkTables.cell (db : WorkTables) (wid : String) : Cell :=
  ⟨db.item wid, db.results wid, db.resultEvents wid⟩

open WorkTables (cell results resultEvents)

structure Cell.Ledger (wid : String) (c : Cell) : Prop where
  absent : c.item = none → c.results = []
  id : ∀ row, c.item = some row → row.workItemId = wid
  unacked : ∀ row, c.item = some row → row.Unacked
  once : c.results.length ≤ 1
  named : ∀ rr ∈ c.results, ∃ ref, rr.resultRef = some ref ∧ ref ≠ ""
  sent : c.events.length ≤ c.results.length

/-- The status agrees with the receipts. -/
def Cell.Settled (c : Cell) : Prop :=
  ∀ row, c.item = some row → (row.status = .resultReceived ↔ c.results ≠ [])

variable {wid : String} {c : Cell}

theorem Cell.Ledger.results_eq (h : c.Ledger wid) : c.results = c.results.head?.toList := by
  have hlen := h.once
  cases hr : c.results with
  | nil => rfl
  | cons _ rest =>
    rw [hr, length_cons] at hlen
    obtain rfl : rest = [] := eq_nil_of_length_eq_zero (by omega)
    rfl

theorem Cell.Ledger.events_eq_nil (h : c.Ledger wid) (hr : c.results = []) : c.events = [] := by
  have hlen := h.sent
  rw [hr] at hlen
  exact eq_nil_of_length_eq_zero (Nat.le_zero.1 hlen)

section Apply

variable (db : WorkTables) (wid : String)

theorem cell_insertItem (row : ItemRow) : (db.apply (.insertItem row)).cell wid =
    if wid = row.workItemId then { db.cell wid with item := some ((db.item wid).getD row) }
    else db.cell wid := by
  by_cases h : wid = row.workItemId
  · subst h
    simp [cell, WorkTables.apply, results, resultEvents]
  · simp [cell, WorkTables.apply, results, resultEvents, h]

theorem cell_setColumns (wid' : String) (cols : Columns) (now : Time) :
    (db.apply (.setColumns wid' cols now)).cell wid =
      if wid = wid' then { db.cell wid with item := (db.item wid).map (·.set cols now) }
      else db.cell wid := by
  by_cases h : wid = wid'
  · subst h
    simp [cell, WorkTables.apply, results, resultEvents]
  · simp [cell, WorkTables.apply, results, resultEvents, h]

theorem cell_insertReceipt (row : ReceiptRow) : (db.apply (.insertReceipt row)).cell wid =
    if row.workItemId = wid ∧ row.receiptKind = .result then
      { db.cell wid with results := db.results wid ++ [row] }
    else db.cell wid := by
  split_ifs with h <;> simp [cell, WorkTables.apply, results, resultEvents, h]

theorem cell_insertEvent (event : Event) : (db.apply (.insertEvent event)).cell wid =
    if event.aggregateId = wid ∧ event.type = .resultReceived then
      { db.cell wid with events := db.resultEvents wid ++ [event] }
    else db.cell wid := by
  split_ifs with h <;> simp [cell, WorkTables.apply, results, resultEvents, h]

theorem cell_insertAudit (row : AuditRow) :
    (db.apply (.insertAudit row)).cell wid = db.cell wid := rfl

end Apply

/-- The cell of an item is the cell of the lock of its row. -/
def workCells : workDatabase.Cells String Cell where
  key := .item
  get := cell
  frame db x wid h := by
    cases x with
    | insertItem row =>
      have hne : wid ≠ row.workItemId := by simpa [WorkWrite.keys] using h
      exact (cell_insertItem db wid row).trans (if_neg hne)
    | setColumns wid' cols now =>
      have hne : wid ≠ wid' := by simpa [WorkWrite.keys] using h
      exact (cell_setColumns db wid wid' cols now).trans (if_neg hne)
    | insertReceipt row =>
      have hne : wid ≠ row.workItemId := by simpa [WorkWrite.keys] using h
      exact (cell_insertReceipt db wid row).trans (if_neg fun hc ↦ hne hc.1.symm)
    | insertEvent event =>
      have hne : wid ≠ event.aggregateId := by simpa [WorkWrite.keys] using h
      exact (cell_insertEvent db wid event).trans (if_neg fun hc ↦ hne hc.1.symm)
    | insertAudit => rfl
  congr db db' x wid h := by
    obtain ⟨hitem, hresults, hevents⟩ := Cell.mk.inj h
    cases x with
    | insertItem => simp only [cell_insertItem, h, hitem]
    | setColumns => simp only [cell_setColumns, h, hitem]
    | insertReceipt => simp only [cell_insertReceipt, h, hresults]
    | insertEvent => simp only [cell_insertEvent, h, hevents]
    | insertAudit => exact h

theorem item_ne_none_view {db : WorkTables} (h : db.item wid ≠ none) (log : List WorkWrite) :
    WorkTables.item (workDatabase.view db log) wid ≠ none := by
  induction log generalizing db with
  | nil => exact h
  | cons x _ ih =>
    rw [Database.view_cons]
    refine ih ?_
    cases x with
    | insertItem row =>
      by_cases hwid : wid = row.workItemId
      · simp [WorkTables.apply, hwid]
      · simpa [WorkTables.apply, hwid] using h
    | setColumns wid' =>
      by_cases hwid : wid = wid'
      · subst hwid
        simpa [WorkTables.apply] using h
      · simpa [WorkTables.apply, hwid] using h
    | _ => exact h

/-! ## Knowledge and the store -/

/-- Whether a write changes a row of `work_items`. -/
def WorkWrite.OfItem : WorkWrite → Prop
  | .insertItem _ => True
  | .setColumns _ _ _ => True
  | _ => False

/-- What a call knows is so in its view `v`, where `new` is what the call has written. -/
structure Fits (m : WorkKnown) (held : WorkLock → Prop) (new : List WorkWrite) (v : WorkTables) :
    Prop where
  ledger : ∀ wid, (v.cell wid).Ledger wid
  settled : ∀ wid, m.debt ≠ some wid → (v.cell wid).Settled
  owed : ∀ wid, m.debt = some wid → held (.item wid) ∧ v.results wid ≠ []
  rows : ∀ wid r, m.rows wid = some r → held (.item wid) ∧ v.item wid = r
  receipts : ∀ wid r, m.receipts wid = some r → held (.item wid) ∧ v.results wid = r.toList
  unsent : ∀ wid, m.unsent = some wid →
    held (.item wid) ∧ v.resultEvents wid = [] ∧ v.results wid ≠ []
  mine : ∀ rr ∈ m.mine, .insertReceipt rr ∈ new
  untouched : m.touched = false → ∀ x ∈ new, ¬x.OfItem
  batch : ∀ items, m.batch = some items → ∀ item ∈ items, v.item item.workItemId ≠ none

theorem Fits.of_cells (call : WorkCall) {held : WorkLock → Prop} {v : WorkTables}
    (h : ∀ wid, (v.cell wid).Ledger wid ∧ (v.cell wid).Settled) :
    Fits (initial call) held [] v where
  ledger wid := (h wid).1
  settled wid _ := (h wid).2
  owed wid hd := by cases call <;> cases hd
  rows wid r hr := by cases call <;> cases hr
  receipts wid r hr := by cases call <;> cases hr
  unsent wid hu := by cases call <;> cases hu
  mine rr hrr := by cases call <;> cases hrr
  untouched _ _ hx := by cases hx
  batch items hi := by cases call <;> cases hi

section Fitting

variable {m : WorkKnown} {held held' : WorkLock → Prop} {new : List WorkWrite} {v v' : WorkTables}

variable {writes : List WorkWrite}

theorem Fits.frame (h : Fits m held new v) (hcell : ∀ wid, v'.cell wid = v.cell wid)
    (hheld : ∀ k, held k → held' k) (hw : ∀ x ∈ writes, ¬x.OfItem) :
    Fits m held' (new ++ writes) v' where
  ledger wid := hcell wid ▸ h.ledger wid
  settled wid hd := hcell wid ▸ h.settled wid hd
  owed wid hd := ⟨hheld _ (h.owed wid hd).1, (Cell.mk.inj (hcell wid)).2.1 ▸ (h.owed wid hd).2⟩
  rows wid r hr := ⟨hheld _ (h.rows wid r hr).1, (Cell.mk.inj (hcell wid)).1.trans (h.rows wid r hr).2⟩
  receipts wid r hr := ⟨hheld _ (h.receipts wid r hr).1,
    (Cell.mk.inj (hcell wid)).2.1.trans (h.receipts wid r hr).2⟩
  unsent wid hu := by
    obtain ⟨hlock, hevents, hresults⟩ := h.unsent wid hu
    refine ⟨hheld _ hlock, (Cell.mk.inj (hcell wid)).2.2.trans hevents, ?_⟩
    rwa [(Cell.mk.inj (hcell wid)).2.1]
  mine rr hrr := mem_append_left _ (h.mine rr hrr)
  untouched ht x hx := (mem_append.1 hx).elim (h.untouched ht x) (hw x)
  batch items hi item hitem := by
    rw [(Cell.mk.inj (hcell item.workItemId)).1]
    exact h.batch items hi item hitem

theorem Fits.lock (h : Fits m held new v) {r : Option ItemRow} (hlock : held (.item wid))
    (hrow : v.item wid = r) : Fits (m.lock wid r) held new v :=
  { h with
    rows := by
      intro wid' r' hr'
      by_cases hwid : wid' = wid
      · subst hwid
        obtain rfl : r = r' := some.inj (rows_lock_self.symm.trans hr')
        exact ⟨hlock, hrow⟩
      · exact h.rows wid' r' ((rows_lock_of_ne hwid).symm.trans hr') }

/-- A view in which one cell has changed, a cell that is held. -/
structure Changed (held : WorkLock → Prop) (wid : String) (v v' : WorkTables) : Prop where
  held : held (.item wid)
  others : ∀ wid', wid' ≠ wid → v'.cell wid' = v.cell wid'
  kept : v.item wid ≠ none → v'.item wid ≠ none

/-- Knowledge after a change of one cell, with what is known of that cell. -/
theorem Fits.change {m' : WorkKnown} (h : Fits m held new v) (wid : String)
    (hc : Changed held' wid v v') (hheld : ∀ k, held k → held' k)
    (hledger : (v'.cell wid).Ledger wid) (hsettled : m'.debt ≠ some wid → (v'.cell wid).Settled)
    (hdebt : ∀ wid', wid' ≠ wid → (m'.debt = some wid' ↔ m.debt = some wid'))
    (howed : m'.debt = some wid → v'.results wid ≠ [])
    (hrows : ∀ wid', wid' ≠ wid → m'.rows wid' = m.rows wid')
    (hrow : ∀ r, m'.rows wid = some r → v'.item wid = r)
    (hreceipts : ∀ wid', wid' ≠ wid → m'.receipts wid' = m.receipts wid')
    (hreceipt : ∀ r, m'.receipts wid = some r → v'.results wid = r.toList)
    (hunsent : ∀ wid', wid' ≠ wid → m'.unsent = some wid' → m.unsent = some wid')
    (hunsent' : m'.unsent = some wid → v'.resultEvents wid = [] ∧ v'.results wid ≠ [])
    (hmine : ∀ rr ∈ m'.mine, rr ∈ m.mine ∨ .insertReceipt rr ∈ writes)
    (huntouched : m'.touched = false → m.touched = false ∧ ∀ x ∈ writes, ¬x.OfItem)
    (hbatch : m'.batch = m.batch) : Fits m' held' (new ++ writes) v' where
  ledger wid' := by
    by_cases hwid : wid' = wid
    · exact hwid ▸ hledger
    · exact hc.others wid' hwid ▸ h.ledger wid'
  settled wid' hd := by
    by_cases hwid : wid' = wid
    · subst hwid
      exact hsettled hd
    · exact hc.others wid' hwid ▸ h.settled wid' fun hm ↦ hd ((hdebt wid' hwid).2 hm)
  owed wid' hd := by
    by_cases hwid : wid' = wid
    · subst hwid
      exact ⟨hc.held, howed hd⟩
    · obtain ⟨hlock, hresults⟩ := h.owed wid' ((hdebt wid' hwid).1 hd)
      exact ⟨hheld _ hlock, (Cell.mk.inj (hc.others wid' hwid)).2.1 ▸ hresults⟩
  rows wid' r hr := by
    by_cases hwid : wid' = wid
    · subst hwid
      exact ⟨hc.held, hrow r hr⟩
    · obtain ⟨hlock, hrow⟩ := h.rows wid' r ((hrows wid' hwid).symm.trans hr)
      exact ⟨hheld _ hlock, (Cell.mk.inj (hc.others wid' hwid)).1.trans hrow⟩
  receipts wid' r hr := by
    by_cases hwid : wid' = wid
    · subst hwid
      exact ⟨hc.held, hreceipt r hr⟩
    · obtain ⟨hlock, hresults⟩ := h.receipts wid' r ((hreceipts wid' hwid).symm.trans hr)
      exact ⟨hheld _ hlock, (Cell.mk.inj (hc.others wid' hwid)).2.1.trans hresults⟩
  unsent wid' hu := by
    by_cases hwid : wid' = wid
    · subst hwid
      exact ⟨hc.held, hunsent' hu⟩
    · obtain ⟨hlock, hevents, hresults⟩ := h.unsent wid' (hunsent wid' hwid hu)
      obtain ⟨-, hres, hev⟩ := Cell.mk.inj (hc.others wid' hwid)
      exact ⟨hheld _ hlock, hev.trans hevents, hres ▸ hresults⟩
  mine rr hrr := (hmine rr hrr).elim (fun hm ↦ mem_append_left _ (h.mine rr hm))
    fun hw ↦ mem_append_right _ hw
  untouched ht x hx := (mem_append.1 hx).elim (h.untouched (huntouched ht).1 x)
    ((huntouched ht).2 x)
  batch items hi item hitem := by
    have hthere := h.batch items (hbatch ▸ hi) item hitem
    by_cases hwid : item.workItemId = wid
    · rw [hwid] at hthere ⊢
      exact hc.kept hthere
    · rwa [(Cell.mk.inj (hc.others _ hwid)).1]

end Fitting

/-! ## One statement -/

section Statement

variable {m : WorkKnown} {held : WorkLock → Prop} {new : List WorkWrite} {v : WorkTables}

variable {row : ItemRow} {wid : String}

theorem Fits.item_of_mem (h : Fits m held new v) (hrow : row ∈ v.items) :
    v.item row.workItemId = some row := by
  obtain ⟨wid, -, hwid⟩ := mem_filterMap.1 hrow
  rwa [(h.ledger wid).id row hwid]

theorem mem_of_mem_ordered {rows : List ItemRow} (h : row ∈ ordered rows) :
    row ∈ rows := (mem_insertionSort _).1 h

theorem mem_deliverableRows {lockedBy : WorkLock → Bool} {agentId : String} {limit : ℕ}
    (h : row ∈ deliverableRows lockedBy v agentId limit) :
    row ∈ v.items ∧ row.status ∈ waitingStates := by
  obtain ⟨hrow, hfilter⟩ := mem_filter.1 (mem_of_mem_ordered (mem_of_mem_take h))
  simp only [decide_eq_true_eq] at hfilter
  exact ⟨hrow, hfilter.2.1⟩

/-- **Results are possible.** What a statement returns is what the monitor says. -/
theorem Fits.ok (h : Fits m held new v) (inp : WorkInput) (n : ℕ) (lockedBy : WorkLock → Bool)
    (o : Op) (hmay : m.may o) : m.ok o (execStatement inp n lockedBy v o).result := by
  cases o with
  | load wid =>
    refine ⟨(h.ledger wid).id, (h.ledger wid).unacked, fun x hx ↦ (h.rows wid x hx).2, ?_⟩
    rintro items hi item hitem rfl
    exact h.batch items hi item hitem
  | deliverable => exact fun row hrow ↦ (mem_deliverableRows hrow).2
  | insertReceipt r =>
    obtain ⟨⟨row, hrow⟩, hresult⟩ := hmay
    have hitem : v.item r.workItemId = some row := (h.rows _ _ hrow).2
    have hfree : ¬((v.item r.workItemId).isNone = true ∨
        (r.receiptKind = .result ∧ v.results r.workItemId ≠ [])) := by
      rintro (hnone | ⟨hkind, hresults⟩)
      · simp [hitem] at hnone
      · exact hresults (h.receipts _ _ (hresult hkind).bare).2
    refine ⟨⟨r, n⟩, ?_, rfl⟩
    simp only [execStatement, execReceipt, if_neg hfree]
  | resultReceipt wid =>
    intro rr hrr
    exact (h.ledger wid).named rr (mem_of_mem_head? hrr)
  | _ => trivial

/-- What is known after a statement. -/
def Executed (m : WorkKnown) (held : WorkLock → Prop) (new : List WorkWrite) (v : WorkTables)
    (o : Op) (eff : Eff (Res o)) : Prop :=
  Fits (m.next o eff.result) (fun k ↦ k ∈ eff.locks ∨ held k) (new ++ eff.writes)
    (workDatabase.view v eff.writes)

theorem Fits.next_insertItem (h : Fits m held new v) (inp : WorkInput) (n : ℕ)
    (lockedBy : WorkLock → Bool) (hmay : m.may (.insertItem row)) :
    Executed m held new v (.insertItem row) (execStatement inp n lockedBy v (.insertItem row)) := by
  by_cases htaken : (v.item row.workItemId).isSome ∨
      v.items.any (·.idempotencyKey = row.idempotencyKey)
  · have heff : execStatement inp n lockedBy v (.insertItem row) =
        ⟨.error ⟨"IntegrityError", row.workItemId⟩, [],
          [.item row.workItemId, .key row.idempotencyKey]⟩ := if_pos htaken
    rw [heff]
    exact h.frame (fun _ ↦ rfl) (fun _ hk ↦ .inr hk) (by simp)
  · have heff : execStatement inp n lockedBy v (.insertItem row) =
        ⟨.ok (), [.insertItem row], [.item row.workItemId, .key row.idempotencyKey]⟩ :=
      if_neg htaken
    rw [heff]
    have hnone : v.item row.workItemId = none := by simpa using (not_or.1 htaken).1
    have hresults := (h.ledger row.workItemId).absent hnone
    have hcell := cell_insertItem v row.workItemId row
    rw [if_pos rfl, hnone, getD_none] at hcell
    obtain ⟨hitem, hres, -⟩ := Cell.mk.inj hcell
    refine h.change row.workItemId ⟨.inl (by simp), ?_, fun hn ↦ absurd hnone hn⟩
      (fun _ hk ↦ .inr hk) ?_ ?_ (fun _ _ ↦ Iff.rfl) ?_ ?_ ?_ (fun _ _ ↦ rfl) ?_
      (fun _ _ h ↦ h) ?_ (fun _ h ↦ .inl h) (fun ht ↦ nomatch ht) rfl
    · exact fun wid hwid ↦ (cell_insertItem v wid row).trans (if_neg hwid)
    · change ((v.apply (.insertItem row)).cell row.workItemId).Ledger row.workItemId
      rw [hcell]
      refine ⟨fun hn ↦ (nomatch hn), ?_, ?_, ?_, ?_, ?_⟩
      · exact fun row' hrow' ↦ by rw [← some.inj hrow']
      · exact fun row' hrow' _ ↦ by rw [← some.inj hrow', hmay.2]
      · exact (h.ledger row.workItemId).once
      · exact (h.ledger row.workItemId).named
      · exact (h.ledger row.workItemId).sent
    · intro _
      change ((v.apply (.insertItem row)).cell row.workItemId).Settled
      rw [hcell]
      intro row' hrow'
      rw [← some.inj hrow', hmay.1]
      exact iff_of_false (by simp) fun hne ↦ hne hresults
    · exact fun hd ↦ absurd hresults (h.owed _ hd).2
    · exact fun wid hwid ↦ rows_lock_of_ne hwid
    · exact fun r hr ↦ hitem.trans (some.inj (rows_lock_self.symm.trans hr))
    · exact fun r hr ↦ hres.trans (h.receipts _ r hr).2
    · exact fun hu ↦ absurd hresults (h.unsent _ hu).2.2

theorem Fits.next_setColumns (h : Fits m held new v) (inp : WorkInput) (n : ℕ)
    (lockedBy : WorkLock → Bool) {cols : Columns} {now : Time}
    (hmay : m.may (.setColumns wid cols now)) : Executed m held new v (.setColumns wid cols now)
      (execStatement inp n lockedBy v (.setColumns wid cols now)) := by
  obtain ⟨row, hrow, hlive, hdebt, hwait⟩ := hmay
  obtain ⟨hlock, hitem⟩ := h.rows wid _ hrow
  have hcell := cell_setColumns v wid wid cols now
  rw [if_pos rfl, hitem, map_some] at hcell
  have hled := h.ledger wid
  obtain ⟨hitem', hres, hev⟩ := Cell.mk.inj hcell
  refine h.change wid ⟨.inr hlock, ?_, ?_⟩ (fun _ hk ↦ .inr hk) ?_ ?_ ?_ nofun ?_ ?_
    (fun _ _ ↦ rfl) ?_ (fun _ _ h ↦ h) ?_ (fun _ h ↦ .inl h) (fun ht ↦ nomatch ht) rfl
  · exact fun wid' hwid ↦ (cell_setColumns v wid' wid cols now).trans (if_neg hwid)
  · exact fun _ hnone ↦ some_ne_none _ (hitem'.symm.trans hnone)
  · change ((v.apply (.setColumns wid cols now)).cell wid).Ledger wid
    rw [hcell]
    refine ⟨fun hn ↦ (nomatch hn), ?_, ?_, hled.once, hled.named, hled.sent⟩
    · exact fun row' hrow' ↦ by rw [← some.inj hrow', ItemRow.set_workItemId, hled.id row hitem]
    · intro row' hrow' hwaits
      rw [← some.inj hrow'] at hwaits ⊢
      obtain ⟨hwaits', hcols⟩ := hwait hwaits
      rw [ItemRow.set_ackedAt, hcols]
      exact hled.unacked row hitem hwaits'
  · intro _
    change ((v.apply (.setColumns wid cols now)).cell wid).Settled
    rw [hcell]
    intro row' hrow'
    rw [← some.inj hrow', ItemRow.set_status]
    by_cases hresult : cols.status = .resultReceived
    · rw [if_pos hresult] at hdebt
      exact iff_of_true hresult (h.owed wid hdebt).2
    · rw [if_neg hresult] at hdebt
      have hsettled := h.settled wid (by rw [hdebt]; simp) row hitem
      have hne : row.status ≠ .resultReceived := by
        intro heq
        simp [heq, terminalStates] at hlive
      exact iff_of_false hresult fun hres ↦ hne (hsettled.2 hres)
  · intro wid' hwid
    refine iff_of_false (by simp [WorkKnown.next, WorkKnown.put]) fun hd ↦ ?_
    rw [hdebt] at hd
    split at hd
    · exact hwid (some.inj hd).symm
    · cases hd
  · exact fun wid' hwid ↦ Function.update_of_ne hwid ..
  · intro r hr
    have hput : (m.put wid cols now).Has wid (row.set cols now) := WorkKnown.Has.put hrow cols now
    exact hitem'.trans (some.inj (hput.symm.trans hr))
  · exact fun r hr ↦ hres.trans (h.receipts wid r hr).2
  · exact fun hu ↦ ⟨hev.trans (h.unsent wid hu).2.1, hres ▸ (h.unsent wid hu).2.2⟩

theorem Fits.next_insertReceipt (h : Fits m held new v) (inp : WorkInput) (n : ℕ)
    (lockedBy : WorkLock → Bool) {r : NewReceipt} (hmay : m.may (.insertReceipt r)) :
    Executed m held new v (.insertReceipt r)
      (execStatement inp n lockedBy v (.insertReceipt r)) := by
  obtain ⟨⟨row, hrow⟩, hresult⟩ := hmay
  obtain ⟨hlock, hitem⟩ := h.rows _ _ hrow
  have hled := h.ledger r.workItemId
  by_cases hkind : r.receiptKind = .result
  · obtain ⟨hpaid, hbare, hlive, hnamed⟩ := hresult hkind
    have hresults : v.results r.workItemId = [] := (h.receipts _ _ hbare).2
    have hfree : ¬((v.item r.workItemId).isNone = true ∨
        (r.receiptKind = .result ∧ v.results r.workItemId ≠ [])) := by simp [hitem, hresults]
    have heff : execStatement inp n lockedBy v (.insertReceipt r) =
        ⟨some ⟨r, n⟩, [.insertReceipt ⟨r, n⟩], [.item r.workItemId]⟩ := if_neg hfree
    have hnext : m.next (.insertReceipt r) (some ⟨r, n⟩) = m.receive ⟨r, n⟩ := if_pos hkind
    have hevents : v.resultEvents r.workItemId = [] := hled.events_eq_nil hresults
    have hcell := cell_insertReceipt v r.workItemId ⟨r, n⟩
    rw [if_pos ⟨rfl, hkind⟩, hresults, nil_append] at hcell
    obtain ⟨hitem', hres, hev⟩ := Cell.mk.inj hcell
    rw [heff, Executed, hnext]
    refine h.change r.workItemId ⟨.inl (by simp), ?_, ?_⟩ (fun _ hk ↦ .inr hk) ?_ ?_ ?_ ?_
      (fun _ _ ↦ rfl) ?_ ?_ ?_ ?_ ?_ ?_ ?_ rfl
    · exact fun wid hwid ↦ (cell_insertReceipt v wid ⟨r, n⟩).trans (if_neg fun hc ↦ hwid hc.1.symm)
    · exact fun hn hnone ↦ hn (hitem'.symm.trans hnone)
    · change ((v.apply (.insertReceipt ⟨r, n⟩)).cell r.workItemId).Ledger r.workItemId
      rw [hcell]
      refine ⟨fun hn ↦ ?_, hled.id, hled.unacked, by simp, ?_, ?_⟩
      · exact absurd (hitem.symm.trans hn) (by simp)
      · exact fun rr hrr ↦ by rwa [mem_singleton.1 hrr]
      · exact (congrArg List.length hevents).trans_le (Nat.zero_le _)
    · exact fun hd ↦ absurd rfl hd
    · intro wid hwid
      refine iff_of_false (fun hd ↦ hwid (some.inj hd).symm) ?_
      rw [hpaid]
      simp
    · intro _ hnil
      exact absurd (hres.symm.trans hnil) (cons_ne_nil _ _)
    · exact fun r' hr' ↦ hitem'.trans (h.rows _ r' hr').2
    · exact fun wid hwid ↦ Function.update_of_ne hwid ..
    · intro r' hr'
      have hself : (m.receive ⟨r, n⟩).receipts r.workItemId = some (some ⟨r, n⟩) :=
        Function.update_self ..
      rw [← some.inj (hself.symm.trans hr')]
      exact hres
    · exact fun wid hwid hu ↦ absurd (some.inj hu).symm hwid
    · intro _
      refine ⟨hev.trans hevents, fun hnil ↦ ?_⟩
      exact absurd (hres.symm.trans hnil) (cons_ne_nil _ _)
    · intro rr hrr
      rcases mem_cons.1 hrr with rfl | hrr
      · exact .inr mem_cons_self
      · exact .inl hrr
    · exact fun ht ↦ ⟨ht, by simp [WorkWrite.OfItem]⟩
  · have hfree : ¬((v.item r.workItemId).isNone = true ∨
        (r.receiptKind = .result ∧ v.results r.workItemId ≠ [])) := by simp [hitem, hkind]
    have heff : execStatement inp n lockedBy v (.insertReceipt r) =
        ⟨some ⟨r, n⟩, [.insertReceipt ⟨r, n⟩], [.item r.workItemId]⟩ := if_neg hfree
    have hnext : m.next (.insertReceipt r) (some ⟨r, n⟩) = m := if_neg hkind
    rw [heff, Executed, hnext]
    refine h.frame (fun wid ↦ ?_) (fun _ hk ↦ .inr hk) (by simp [WorkWrite.OfItem])
    exact (cell_insertReceipt v wid ⟨r, n⟩).trans (if_neg fun hc ↦ hkind hc.2)

theorem execAppend_cases (inp : WorkInput) (n : ℕ) (db : WorkTables) (r : AppendRequest) :
    ((execAppend inp n db r).writes = [] ∨ ((execAppend inp n db r).result = .ok n ∧
      (execAppend inp n db r).writes = [.insertEvent ⟨r, n⟩])) := by
  rw [execAppend]
  cases db.events.find? (·.sameKey r) with
  | some => exact .inl (by dsimp only; split_ifs <;> rfl)
  | none =>
    cases inp.appendError with
    | some => exact .inl rfl
    | none => exact .inr ⟨rfl, rfl⟩

theorem Fits.next_append (h : Fits m held new v) (inp : WorkInput) (n : ℕ)
    (lockedBy : WorkLock → Bool) {r : AppendRequest} (hmay : m.may (.append r)) :
    Executed m held new v (.append r) (execStatement inp n lockedBy v (.append r)) := by
  obtain ⟨⟨row, hrow⟩, hresult⟩ := hmay
  obtain ⟨hlock, hitem⟩ := h.rows _ _ hrow
  change Fits (m.next (.append r) (execAppend inp n v r).result)
    (fun k ↦ k ∈ (execAppend inp n v r).locks ∨ held k) (new ++ (execAppend inp n v r).writes)
    (workDatabase.view v (execAppend inp n v r).writes)
  rcases execAppend_cases inp n v r with hw | ⟨hok, hw⟩
  · -- nothing is added: the request is refused or was recorded before
    rw [hw]
    have hsame : Fits m (fun k ↦ k ∈ (execAppend inp n v r).locks ∨ held k) (new ++ []) v :=
      h.frame (fun _ ↦ rfl) (fun _ hk ↦ .inr hk) (by simp)
    cases hr : (execAppend inp n v r).result with
    | error => exact { hsame with }
    | ok id =>
      by_cases htype : r.type = .resultReceived
      · have hnext : m.next (.append r) (.ok id) = { m with unsent := none } := if_pos htype
        rw [hnext]
        exact { hsame with unsent := fun _ hu ↦ nomatch hu }
      · have hnext : m.next (.append r) (.ok id) = m := if_neg htype
        rw [hnext]
        exact hsame
  · rw [hok, hw]
    by_cases htype : r.type = .resultReceived
    · have hnext : m.next (.append r) (.ok n) = { m with unsent := none } := if_pos htype
      obtain ⟨-, hevents, hresults⟩ := h.unsent _ (hresult htype).2
      have hled := h.ledger r.aggregateId
      have hcell := cell_insertEvent v r.aggregateId ⟨r, n⟩
      rw [if_pos ⟨rfl, htype⟩, hevents, nil_append] at hcell
      obtain ⟨hitem', hres, -⟩ := Cell.mk.inj hcell
      rw [hnext]
      refine h.change r.aggregateId ⟨.inr hlock, ?_, ?_⟩ (fun _ hk ↦ .inr hk) ?_ ?_
        (fun _ _ ↦ Iff.rfl) ?_ (fun _ _ ↦ rfl) ?_ (fun _ _ ↦ rfl) ?_ (fun _ _ hu ↦ nomatch hu)
        (fun hu ↦ nomatch hu) (fun _ h ↦ .inl h) (fun ht ↦ ⟨ht, by simp [WorkWrite.OfItem]⟩) rfl
      · exact fun wid hwid ↦ (cell_insertEvent v wid ⟨r, n⟩).trans (if_neg fun hc ↦ hwid hc.1.symm)
      · exact fun hn hnone ↦ hn (hitem'.symm.trans hnone)
      · change ((v.apply (.insertEvent ⟨r, n⟩)).cell r.aggregateId).Ledger r.aggregateId
        rw [hcell]
        exact ⟨hled.absent, hled.id, hled.unacked, hled.once, hled.named, length_pos_iff.2 hresults⟩
      · intro hd
        change ((v.apply (.insertEvent ⟨r, n⟩)).cell r.aggregateId).Settled
        rw [hcell]
        exact h.settled _ hd
      · exact fun hd ↦ hres ▸ (h.owed _ hd).2
      · exact fun r' hr' ↦ hitem'.trans (h.rows _ r' hr').2
      · exact fun r' hr' ↦ hres.trans (h.receipts _ r' hr').2
    · have hnext : m.next (.append r) (.ok n) = m := if_neg htype
      rw [hnext]
      refine h.frame (fun wid ↦ ?_) (fun _ hk ↦ .inr hk) (by simp [WorkWrite.OfItem])
      exact (cell_insertEvent v wid ⟨r, n⟩).trans (if_neg fun hc ↦ htype hc.2)

/-- **Knowledge is kept.** What is known after a statement is so in the view after it. -/
theorem Fits.exec (h : Fits m held new v) (inp : WorkInput) (n : ℕ) (lockedBy : WorkLock → Bool)
    (o : Op) (hmay : m.may o) : Executed m held new v o (execStatement inp n lockedBy v o) := by
  have hsame : ∀ locks : List WorkLock,
      Fits m (fun k ↦ k ∈ locks ∨ held k) (new ++ []) v := fun locks ↦
    h.frame (fun _ ↦ rfl) (fun _ hk ↦ .inr hk) (by simp)
  cases o with
  | now => exact { hsame [] with }
  | newWorkItemId => exact hsame []
  | findKey => exact hsame []
  | insertItem => exact h.next_insertItem inp n lockedBy hmay
  | load wid forUpdate =>
    cases forUpdate with
    | true => exact (hsame [.item wid]).lock (.inl (by simp)) rfl
    | false => exact hsame []
  | deliverable agentId limit =>
    refine { hsame _ with rows := fun wid r hr ↦ ?_ }
    simp only [WorkKnown.next] at hr
    split at hr
    · rename_i row hfind
      obtain rfl := some.inj hr
      have hrow := mem_of_find?_eq_some hfind
      have hid : row.workItemId = wid := by simpa using List.find?_some hfind
      refine ⟨.inl (List.mem_map.2 ⟨row, hrow, congrArg WorkLock.item hid⟩), ?_⟩
      rw [← hid]
      exact h.item_of_mem (mem_deliverableRows hrow).1
    · obtain ⟨hlock, hrow⟩ := h.rows wid r hr
      exact ⟨.inr hlock, hrow⟩
  | openItems agentId workspaceId =>
    refine { hsame [] with batch := fun items hi item hitem ↦ ?_ }
    have hor : m.batch = some items ∨ openRows v agentId workspaceId = items := by
      cases hb : m.batch with
      | none =>
        have hb' : (m.batch <|> some (openRows v agentId workspaceId)) = some items := hi
        rw [hb] at hb'
        exact .inr (some.inj hb')
      | some =>
        have hb' : (m.batch <|> some (openRows v agentId workspaceId)) = some items := hi
        rw [hb] at hb'
        exact .inl hb'
    rcases hor with hb | rfl
    · exact h.batch items hb item hitem
    · have hmem := (mem_filter.1 (mem_of_mem_ordered hitem)).1
      change v.item item.workItemId ≠ none
      rw [h.item_of_mem hmem]
      simp
  | setColumns => exact h.next_setColumns inp n lockedBy hmay
  | insertReceipt => exact h.next_insertReceipt inp n lockedBy hmay
  | resultReceipt wid =>
    obtain ⟨row, hrow⟩ := hmay
    refine { hsame [] with receipts := fun wid' r hr ↦ ?_ }
    by_cases hwid : wid' = wid
    · subst hwid
      obtain rfl : (v.results wid').head? = r :=
        some.inj ((Function.update_self (f := m.receipts) ..).symm.trans hr)
      exact ⟨.inr (h.rows _ _ hrow).1, (h.ledger wid').results_eq⟩
    · have hr' : m.receipts wid' = some r := (Function.update_of_ne hwid ..).symm.trans hr
      exact ⟨.inr (h.receipts _ _ hr').1, (h.receipts _ _ hr').2⟩
  | append => exact h.next_append inp n lockedBy hmay
  | appendAudit row =>
    exact h.frame (fun wid ↦ cell_insertAudit v wid row) (fun _ hk ↦ .inr hk)
      (by simp [execStatement, WorkWrite.OfItem])

theorem Fits.ended (h : Fits m held new v) (inp : WorkInput) (n : ℕ) (lockedBy : WorkLock → Bool)
    (o : Op) (hmay : m.may o) (hitem : v.item wid = some row)
    (hended : row.status ∈ terminalStates) :
    WorkTables.item (workDatabase.view v (execStatement inp n lockedBy v o).writes) wid =
      some row := by
  have hcell : ∀ x : WorkWrite, ¬x.OfItem → (v.apply x).item wid = some row := by
    intro x hx
    cases x with
    | insertItem => exact absurd trivial hx
    | setColumns => exact absurd trivial hx
    | _ => exact hitem
  cases o with
  | insertItem row' =>
    simp only [execStatement, execInsertItem]
    split_ifs with htaken
    · exact hitem
    · have hne : wid ≠ row'.workItemId := by
        rintro rfl
        simp [hitem] at htaken
      exact (Cell.mk.inj ((cell_insertItem v wid row').trans (if_neg hne))).1.trans hitem
  | setColumns wid' cols now =>
    obtain ⟨row', hrow', hlive, -⟩ := hmay
    have hne : wid ≠ wid' := by
      rintro rfl
      have hsame := hitem.symm.trans (h.rows _ _ hrow').2
      exact hlive (some.inj hsame ▸ hended)
    exact (Cell.mk.inj ((cell_setColumns v wid wid' cols now).trans (if_neg hne))).1.trans hitem
  | insertReceipt r =>
    simp only [execStatement, execReceipt]
    split_ifs
    · exact hitem
    · exact hcell (.insertReceipt ⟨r, n⟩) id
  | append r =>
    change WorkTables.item (workDatabase.view v (execAppend inp n v r).writes) wid = some row
    rcases execAppend_cases inp n v r with hw | ⟨-, hw⟩
    · rw [hw]
      exact hitem
    · rw [hw]
      exact hcell (.insertEvent ⟨r, n⟩) id
  | appendAudit row => exact hcell (.insertAudit row) id
  | _ => exact hitem

end Statement

/-! ## Sessions -/

section Session

variable {cfg : Config} {Fresh : Prop}

/-- A session in its view. A call in progress knows what its trace has told it, and no item that
has ended in the committed store has another row in the view. -/
structure InOrder (cfg : Config) (Fresh : Prop) (st : WorkTables) (held : WorkLock → Prop)
    (s : (workSystem cfg).Session) : Prop where
  idle : s.call = none → Fits {} held [] (workDatabase.view st s.log)
  busy : ∀ c, s.call = some c → ∃ new, s.log = c.log₀ ++ new ∧
    Fits ((workProtocol cfg Fresh).known c) held new (workDatabase.view st s.log)
  ended : ∀ wid row, st.item wid = some row → row.status ∈ terminalStates →
    WorkTables.item (workDatabase.view st s.log) wid = some row

variable {held : WorkLock → Prop}

/-- What a session knows survives the commit of another session, which has left the held cells
alone and whose own cells are settled. -/
theorem Fits.others {m : WorkKnown} {new : List WorkWrite} {v v' : WorkTables}
    (h : Fits m held new v) (hheld : ∀ wid, held (.item wid) → v'.cell wid = v.cell wid) (hother :
    ∀ wid, ¬held (.item wid) → (v'.cell wid).Ledger wid ∧ (v'.cell wid).Settled ∧ (v.item wid ≠
    none → v'.item wid ≠ none)) : Fits m held new v' where
  ledger wid := by
    by_cases hk : held (.item wid)
    · exact hheld wid hk ▸ h.ledger wid
    · exact (hother wid hk).1
  settled wid hd := by
    by_cases hk : held (.item wid)
    · exact hheld wid hk ▸ h.settled wid hd
    · exact (hother wid hk).2.1
  owed wid hd := by
    obtain ⟨hlock, hresults⟩ := h.owed wid hd
    exact ⟨hlock, (Cell.mk.inj (hheld wid hlock)).2.1 ▸ hresults⟩
  rows wid r hr := by
    obtain ⟨hlock, hrow⟩ := h.rows wid r hr
    exact ⟨hlock, (Cell.mk.inj (hheld wid hlock)).1.trans hrow⟩
  receipts wid r hr := by
    obtain ⟨hlock, hresults⟩ := h.receipts wid r hr
    exact ⟨hlock, (Cell.mk.inj (hheld wid hlock)).2.1.trans hresults⟩
  unsent wid hu := by
    obtain ⟨hlock, hevents, hresults⟩ := h.unsent wid hu
    obtain ⟨-, hres, hev⟩ := Cell.mk.inj (hheld wid hlock)
    exact ⟨hlock, hev.trans hevents, hres ▸ hresults⟩
  mine := h.mine
  untouched := h.untouched
  batch items hi item hitem := by
    have hthere := h.batch items hi item hitem
    by_cases hk : held (.item item.workItemId)
    · rwa [(Cell.mk.inj (hheld _ hk)).1]
    · exact (hother _ hk).2.2 hthere

theorem InOrder.others {st : WorkTables} {held' : WorkLock → Prop} {s t : (workSystem cfg).Session}
    (h : InOrder cfg Fresh st held s) (ht : InOrder cfg Fresh st held' t) (hcall : t.call = none)
    (hheld : ∀ x ∈ s.log, ∀ k ∈ x.keys, held k) (hnot : ∀ x ∈ t.log, ∀ k ∈ x.keys, ¬held k) :
    InOrder cfg Fresh (workDatabase.view st t.log) held s := by
  have htfits := ht.idle hcall
  -- a held cell is not written by `t`, and a cell that is not held is not written by `s`
  have hmine : ∀ wid, held (.item wid) →
      (workDatabase.view (workDatabase.view st t.log) s.log : WorkTables).cell wid =
        (workDatabase.view st s.log : WorkTables).cell wid := fun wid hk ↦
    workCells.get_view_view (fun x hx hkey ↦ hnot x hx _ hkey hk) s.log
  have htheirs : ∀ (st' : WorkTables) wid, ¬held (.item wid) →
      (workDatabase.view st' s.log : WorkTables).cell wid = st'.cell wid := fun st' wid hk ↦
    workCells.get_view_of_untouched fun x hx hkey ↦ hk (hheld x hx _ hkey)
  have hother : ∀ wid, ¬held (.item wid) →
      ((workDatabase.view (workDatabase.view st t.log) s.log : WorkTables).cell wid).Ledger wid ∧
        ((workDatabase.view (workDatabase.view st t.log) s.log : WorkTables).cell wid).Settled ∧
          (WorkTables.item (workDatabase.view st s.log) wid ≠ none →
            WorkTables.item (workDatabase.view (workDatabase.view st t.log) s.log) wid ≠ none) := by
    intro wid hk
    rw [htheirs _ wid hk]
    refine ⟨htfits.ledger wid, htfits.settled wid (by simp), fun hn ↦ ?_⟩
    rw [(Cell.mk.inj (htheirs _ wid hk)).1] at hn ⊢
    exact item_ne_none_view hn t.log
  refine ⟨fun hc ↦ (h.idle hc).others hmine hother, fun c hc ↦ ?_, fun wid row hrow hended ↦ ?_⟩
  · obtain ⟨new, hnew, hfits⟩ := h.busy c hc
    exact ⟨new, hnew, hfits.others hmine hother⟩
  · by_cases hk : held (.item wid)
    · have hst : (workDatabase.view st t.log : WorkTables).cell wid = st.cell wid :=
        workCells.get_view_of_untouched fun x hx hkey ↦ hnot x hx _ hkey hk
      rw [(Cell.mk.inj (hmine wid hk)).1]
      exact h.ended wid row ((Cell.mk.inj hst).1.symm.trans hrow) hended
    · rw [(Cell.mk.inj (htheirs _ wid hk)).1]
      exact hrow

end Session

/-! ## What a trace tells -/

section Trace

variable {cfg : Config} {Fresh : Prop}

/-- The first reading of the clock in a trace. -/
def clockReading (trace : List (workSystem cfg).Stmt) : Option Time :=
  trace.findSome? fun
    | ⟨.now, t⟩ => some t
    | _ => none

/-- The open items that a trace has read first. -/
def batchRead (trace : List (workSystem cfg).Stmt) : Option (List ItemRow) :=
  trace.findSome? fun
    | ⟨.openItems _ _, items⟩ => some items
    | _ => none

theorem next_reading (m : WorkKnown) (stmt : (workSystem cfg).Stmt) :
    (m.next stmt.op stmt.res).time = (m.time <|> clockReading [stmt]) ∧
      (m.next stmt.op stmt.res).batch = (m.batch <|> batchRead [stmt]) ∧
        (m.next stmt.op stmt.res).sweep = m.sweep := by
  obtain ⟨o, r⟩ := stmt
  have hquiet : ∀ m' : WorkKnown, m'.time = m.time → m'.batch = m.batch → m'.sweep = m.sweep →
      m'.time = (m.time <|> none) ∧ m'.batch = (m.batch <|> none) ∧ m'.sweep = m.sweep := by
    intro m' h₁ h₂ h₃
    rw [h₁, h₂]
    exact ⟨by cases m.time <;> rfl, by cases m.batch <;> rfl, h₃⟩
  cases o with
  | now => exact ⟨rfl, (hquiet m rfl rfl rfl).2.1, rfl⟩
  | openItems => exact ⟨(hquiet m rfl rfl rfl).1, rfl, rfl⟩
  | load _ forUpdate => cases forUpdate <;> exact hquiet _ rfl rfl rfl
  | insertItem => rcases r with e | ⟨⟩ <;> exact hquiet _ rfl rfl rfl
  | insertReceipt receipt =>
    cases r with
    | none => exact hquiet _ rfl rfl rfl
    | some row =>
      by_cases hkind : receipt.receiptKind = .result
      · rw [show m.next (.insertReceipt receipt) (some row) = m.receive row from if_pos hkind]
        exact hquiet _ rfl rfl rfl
      · rw [show m.next (.insertReceipt receipt) (some row) = m from if_neg hkind]
        exact hquiet _ rfl rfl rfl
  | append request =>
    cases r with
    | error => exact hquiet _ rfl rfl rfl
    | ok n =>
      by_cases htype : request.type = .resultReceived
      · rw [show m.next (.append request) (.ok n) = { m with unsent := none } from if_pos htype]
        exact hquiet _ rfl rfl rfl
      · rw [show m.next (.append request) (.ok n) = m from if_neg htype]
        exact hquiet _ rfl rfl rfl
  | _ => exact hquiet _ rfl rfl rfl

variable {m : WorkKnown} {e : WorkItemError}

theorem next_refused {stmt : (workSystem cfg).Stmt}
    (h : (m.next stmt.op stmt.res).refused = some e) :
    m.refused = some e ∨ ∃ request, stmt = ⟨.append request, .error e⟩ := by
  obtain ⟨o, r⟩ := stmt
  cases o with
  | load _ forUpdate => cases forUpdate <;> exact .inl h
  | insertItem => rcases r with e | ⟨⟩ <;> exact .inl h
  | insertReceipt =>
    cases r with
    | none => exact .inl h
    | some =>
      simp only [WorkKnown.next] at h
      split at h <;> exact .inl h
  | append request =>
    cases r with
    | error e' =>
      obtain rfl : e' = e := some.inj h
      exact .inr ⟨request, rfl⟩
    | ok =>
      simp only [WorkKnown.next] at h
      split at h <;> exact .inl h
  | _ => exact .inl h

/-- What a trace adds to what is known of the clock, the batch and the sweep. -/
theorem after_reading (Fresh : Prop) (m : WorkKnown) (trace : List (workSystem cfg).Stmt) :
    ((workProtocol cfg Fresh).after m trace).time = (m.time <|> clockReading trace) ∧
      ((workProtocol cfg Fresh).after m trace).batch = (m.batch <|> batchRead trace) ∧
        ((workProtocol cfg Fresh).after m trace).sweep = m.sweep := by
  induction trace generalizing m with
  | nil =>
    change m.time = _ ∧ m.batch = _ ∧ m.sweep = _
    exact ⟨by cases m.time <;> rfl, by cases m.batch <;> rfl, rfl⟩
  | cons stmt trace ih =>
    obtain ⟨htime, hbatch, hsweep⟩ := next_reading m stmt
    obtain ⟨htime', hbatch', hsweep'⟩ := ih (m.next stmt.op stmt.res)
    refine ⟨htime'.trans ?_, hbatch'.trans ?_, hsweep'.trans hsweep⟩
    · rw [htime]
      cases m.time with
      | some => rfl
      | none =>
        change (clockReading [stmt] <|> clockReading trace) = clockReading (stmt :: trace)
        simp only [clockReading, List.findSome?_cons, List.findSome?_nil]
        split <;> rfl
    · rw [hbatch]
      cases m.batch with
      | some => rfl
      | none =>
        change (batchRead [stmt] <|> batchRead trace) = batchRead (stmt :: trace)
        simp only [batchRead, List.findSome?_cons, List.findSome?_nil]
        split <;> rfl

theorem after_refused {trace : List (workSystem cfg).Stmt}
    (h : ((workProtocol cfg Fresh).after m trace).refused = some e) :
    m.refused = some e ∨ ∃ request, ⟨.append request, .error e⟩ ∈ trace := by
  induction trace generalizing m with
  | nil => exact .inl h
  | cons _ _ ih =>
    rcases ih h with hm | ⟨request, hmem⟩
    · rcases next_refused hm with hm | ⟨request, hstmt⟩
      · exact .inl hm
      · exact .inr ⟨request, mem_cons.2 (.inl hstmt.symm)⟩
    · exact .inr ⟨request, mem_cons_of_mem _ hmem⟩

end Trace

/-! ## What is said of finished calls -/

section Laws

variable {cfg : Config}

/-- **How a result is answered when there is one already.** A submission by the owner with a
well-formed document gets the first receipt; any other gets an error. -/
structure AnsweredBy (cfg : Config) (r : SubmitResult) (row : ItemRow) (rr : ReceiptRow)
    (x : Except WorkItemError Answer) : Prop where
  duplicate : r.WellFormed cfg → row.agentId = r.agentId → ∃ ref, rr.resultRef = some ref ∧
    x = .ok (.result ⟨.duplicateIgnored, r.workItemId, rr.receiptId, ref, none, row⟩)
  refused : ¬(r.WellFormed cfg ∧ row.agentId = r.agentId) → ∃ e, x = .error e

/-- What is said of a finished submission: if the receipt that is there is not its own, it has
written no row of `work_items` and is answered by that receipt. -/
def ResultLaw (f : (workSystem cfg).Finished) : Prop :=
  ∀ r, f.entry = .result r → ∃ new, f.log₁ = f.log₀ ++ new ∧
    ∀ rr ∈ results f.view₁ r.workItemId, .insertReceipt rr ∉ new → (∀ x ∈ new, ¬x.OfItem) ∧
        ∃ row, WorkTables.item f.view₁ r.workItemId = some row ∧ AnsweredBy cfg r row rr f.outcome

/-- What is said of a finished sweep: it has failed on what the Event store raised, or it reports
on every item of its batch, and no item that it re-queued or expired for the missing
acknowledgement has one. -/
structure SweepLaw (s : Sweep) (f : (workSystem cfg).Finished) : Prop where
  failed : ∀ e, f.outcome = .error e → ∃ request, ⟨.append request, .error e⟩ ∈ f.trace
  report : ∀ a, f.outcome = .ok a → ∃ t items, clockReading f.trace = some t ∧
    batchRead f.trace = some items ∧ a = .swept (s.report t items) ∧
      ∀ wid ∈ (s.report t items).forAckTimeout,
        ∃ row, WorkTables.item f.view₁ wid = some row ∧ row.ackedAt = none

end Laws

/-- The invariant: sound cells in the committed store, sessions in order, and the two laws. -/
def workShape (cfg : Config) (Fresh : Prop) : Shape (workSystem cfg) where
  G (db : WorkTables) := ∀ wid, (db.cell wid).Ledger wid ∧ (db.cell wid).Settled
  L db held s := InOrder cfg Fresh db held s
  R f := ResultLaw f ∧ (Fresh → ∀ s, f.entry = .sweep s → SweepLaw s f)

/-- When the sweep locks a row, its decision on the item still stands. -/
def StillStands (cfg : Config) (w : (workSystem cfg).World) (l : (workSystem cfg).Label) : Prop :=
  ∀ i inp s c sweep wid k t items item row, l = .exec i inp → w.sessions i = some s →
    s.call = some c → c.entry = .sweep sweep → c.rest = .call (.load wid true) k →
      clockReading c.trace = some t → batchRead c.trace = some items → item ∈ items →
        item.workItemId = wid → WorkTables.item (w.view s) wid = some row →
          Stands (sweep.decision t item) row.status

section Runs

variable {cfg : Config} {Fresh : Prop}

variable {f : (workSystem cfg).Finished} {held : WorkLock → Prop} {new : List WorkWrite}
    {w : (workSystem cfg).World} {wid : String}

/-- The knowledge of a finished submission, spelled out. -/
theorem resultLaw_of_resulted {m : WorkKnown} (hfits : Fits m held new f.view₁)
    (hnew : f.log₁ = f.log₀ ++ new) (h : ∀ r, f.entry = .result r → m.Resulted cfg r f.outcome) :
    ResultLaw f := by
  intro r hr
  refine ⟨new, hnew, fun rr hrr hmine ↦ ?_⟩
  have hitem : WorkTables.item f.view₁ r.workItemId ≠ none := by
    intro hnone
    have hnil : results f.view₁ r.workItemId = [] := (hfits.ledger r.workItemId).absent hnone
    rw [hnil] at hrr
    cases hrr
  obtain ⟨row, hrow⟩ := ne_none_iff_exists'.1 hitem
  have hres := h r hr
  generalize f.outcome = x at hres ⊢
  cases hres with
  | malformed hw huntouched =>
    exact ⟨hfits.untouched huntouched, row, hrow, fun hw' ↦ absurd hw' hw, fun _ ↦ ⟨_, rfl⟩⟩
  | absent hnone => exact absurd (hfits.rows _ _ hnone).2 hitem
  | stranger hhas hne huntouched =>
    obtain rfl := some.inj (hrow.symm.trans (hfits.rows _ _ hhas).2)
    exact ⟨hfits.untouched huntouched, _, hrow, fun _ howner ↦ absurd howner hne, fun _ ↦ ⟨_, rfl⟩⟩
  | first hfirst =>
    rcases hfirst with hnone | ⟨rr', hrr', hsome⟩
    · rw [(hfits.receipts _ _ hnone).2] at hrr
      cases hrr
    · rw [(hfits.receipts _ _ hsome).2] at hrr
      obtain rfl : rr = rr' := mem_singleton.1 hrr
      exact absurd (hfits.mine _ hrr') hmine
  | duplicate hw hhas howner hsome href huntouched =>
    obtain rfl := some.inj (hrow.symm.trans (hfits.rows _ _ hhas).2)
    rw [(hfits.receipts _ _ hsome).2] at hrr
    obtain rfl := mem_singleton.1 hrr
    exact ⟨hfits.untouched huntouched, _, hrow, fun _ _ ↦ ⟨_, href, rfl⟩,
      fun hn ↦ absurd ⟨hw, howner⟩ hn⟩

theorem sweepLaw_of_swept {s : Sweep} (hfits : Fits ((workProtocol cfg Fresh).after
    (initial f.entry) f.trace) held new f.view₁) (hentry : f.entry = .sweep s)
    (hF : Fresh) (h : ((workProtocol cfg Fresh).after (initial f.entry) f.trace).Swept
    Fresh s f.outcome) : SweepLaw s f := by
  rw [hentry] at hfits h
  obtain ⟨htime, hbatch, -⟩ := after_reading Fresh (initial (.sweep s)) f.trace
  refine ⟨fun e he ↦ ?_, fun a ha ↦ ?_⟩
  · rcases after_refused (h.failed e he hF) with hnone | hmem
    · cases hnone
    · exact hmem
  · obtain ⟨t, items, ht, hi, hreport, hacked⟩ := h.report a ha
    refine ⟨t, items, htime.symm.trans ht, hbatch.symm.trans hi, hreport, fun wid hwid ↦ ?_⟩
    obtain ⟨row, hrow, hnone⟩ := hacked hF wid hwid
    exact ⟨row, (hfits.rows _ _ hrow).2, hnone⟩

theorem work_local (cfg : Config) (Fresh : Prop) :
    (workProtocol cfg Fresh).Local (fun w l ↦ Fresh → StillStands cfg w l)
      (workShape cfg Fresh) where
  ok w i inp s c o k hI hC hs hc hr hmay _ := by
    obtain ⟨new, -, hfits⟩ := (hI.session i s hs).busy c hc
    refine ⟨hfits.ok inp w.nonce (w.heldByOther i) o hmay, fun hF ↦ ?_⟩
    cases o with
    | load wid forUpdate =>
      cases forUpdate with
      | false => trivial
      | true =>
        have hstands := hC hF
        obtain ⟨htime, hbatch, hsweep⟩ := after_reading Fresh (initial c.entry) c.trace
        change ((workProtocol cfg Fresh).known c).FreshRead (.load wid true)
          (WorkTables.item (w.view s) wid)
        obtain ⟨found, hfound⟩ : ∃ r, WorkTables.item (w.view s) wid = r := ⟨_, rfl⟩
        rw [hfound]
        cases found with
        | none => trivial
        | some row =>
          intro sw t items item hsw ht hi hitem hwid
          have hentry : c.entry = .sweep sw := by
            have hinit : (initial c.entry).sweep = some sw := hsweep.symm.trans hsw
            cases he : c.entry with
            | sweep =>
              rw [he] at hinit
              rw [some.inj hinit]
            | _ =>
              rw [he] at hinit
              cases hinit
          rw [hentry] at htime hbatch
          exact hstands i inp s c sw wid k t items item row rfl hs hc hentry hr
            (htime.symm.trans (hentry ▸ ht)) (hbatch.symm.trans (hentry ▸ hi)) hitem hwid hfound
    | _ => trivial
  exec w i inp s c o k hI _ hs hc hr hmay _ _ := by
    have hL := hI.session i s hs
    obtain ⟨new, hnew, hfits⟩ := hL.busy c hc
    have hexec := hfits.exec inp w.nonce (w.heldByOther i) o hmay
    refine ⟨fun hnone ↦ (nomatch hnone), fun c' hc' ↦ ?_, fun wid row hrow hended ↦ ?_⟩
    · obtain rfl : _ = c' := some.inj hc'
      refine ⟨new ++ (w.effect i s inp o).writes, ?_, ?_⟩
      · change s.log ++ _ = c.log₀ ++ (new ++ _)
        rw [hnew, append_assoc]
      · rw [Protocol.known_advance]
        change Fits _ _ _ (workDatabase.view w.store (s.log ++ _))
        rw [Database.view_append]
        exact hexec
    · change WorkTables.item (workDatabase.view w.store (s.log ++ _)) wid = some row
      rw [Database.view_append]
      exact hfits.ended inp w.nonce (w.heldByOther i) o hmay (hL.ended wid row hrow hended) hended
  opened st hst := ⟨fun _ ↦ Fits.of_cells (.poll "" "" 0) hst, nofun, fun wid row hrow _ ↦ hrow⟩
  call w i e s _ _ hc hL _ := by
    refine ⟨fun hnone ↦ (nomatch hnone), fun c' hc' ↦ ?_, hL.ended⟩
    obtain rfl : _ = c' := some.inj hc'
    have hfits := hL.idle hc
    exact ⟨[], (append_nil _).symm,
      .of_cells _ fun wid ↦ ⟨hfits.ledger wid, hfits.settled wid (by simp)⟩⟩
  finish w i s c x hI hs hc hfin := by
    have hL := hI.session i s hs
    obtain ⟨new, hnew, hfits⟩ := hL.busy c hc
    have hcells : ∀ wid, ((workDatabase.view w.store s.log : WorkTables).cell wid).Ledger wid ∧
        ((workDatabase.view w.store s.log : WorkTables).cell wid).Settled := fun wid ↦
      ⟨hfits.ledger wid, hfits.settled wid (by rw [hfin.paid]; simp)⟩
    refine ⟨⟨fun _ ↦ ?_, nofun, hL.ended⟩, ?_, fun hF sw hsw ↦ ?_⟩
    · exact Fits.of_cells (.poll "" "" 0) hcells
    · exact resultLaw_of_resulted hfits hnew hfin.result
    · exact sweepLaw_of_swept hfits hsw hF (hfin.sweep sw hsw)
  commit st held s _ hL hc _ wid := by
    have hfits := hL.idle hc
    exact ⟨hfits.ledger wid, hfits.settled wid (by simp)⟩
  others st held held' s t _ hL ht hcall hheld hnot := hL.others ht hcall hheld hnot

def emptyWorld (cfg : Config) : (workSystem cfg).World where
  store := ({} : WorkTables)
  aux := ()

theorem work_run (Fresh : Prop) {C : (workSystem cfg).World → (workSystem cfg).Label → Prop}
    (hC : ∀ w l, C w l → Fresh → StillStands cfg w l) (hw : Run C (emptyWorld cfg) w) :
    (workShape cfg Fresh).Holds w := by
  have hinit : (workShape cfg Fresh).Holds (emptyWorld cfg) := by
    refine ⟨fun wid ↦ ⟨⟨fun _ ↦ rfl, ?_, ?_, Nat.zero_le _, ?_, Nat.le_refl _⟩, ?_⟩, ?_, ?_⟩
    · exact fun _ hrow ↦ nomatch hrow
    · exact fun _ hrow ↦ nomatch hrow
    · exact fun _ hrr ↦ nomatch hrr
    · exact fun _ hrow ↦ nomatch hrow
    · exact fun _ _ hs ↦ nomatch hs
    · exact fun _ hf ↦ nomatch hf
  exact ((work_local cfg Fresh).keeps.run (fun _ ↦ rfl) (fun _ ↦ rfl) hinit (hw.mono hC)).2.2

theorem ended_stays {w' : (workSystem cfg).World} (hw : Run (fun _ _ ↦ True) (emptyWorld cfg) w)
    (hw' : Run (fun _ _ ↦ True) w w') {row : ItemRow}
    (hrow : WorkTables.item w.store wid = some row) (hended : row.status ∈ terminalStates) :
    WorkTables.item w'.store wid = some row := by
  induction hw' with
  | refl => exact hrow
  | step l hrun _ hs ih =>
    obtain ⟨i, e, s, -, -, -, -, rfl⟩ | ⟨i, inp, s, c, o, k, -, -, -, -, -, rfl⟩ |
      ⟨i, s, c, x, -, -, -, -, rfl⟩ | ⟨i, s, -, hi, -, -, rfl⟩ | ⟨i, -, rfl⟩ :=
      World.step_cases hs
    · exact ih
    · exact ih
    · exact ih
    · -- only a commit changes the store, and it installs the view of the session
      have hholds := work_run False (fun _ _ _ h ↦ h.elim) (hw.trans hrun)
      exact (hholds.session i s hi).ended wid row ih hended
    · exact ih

/-- What holds of an item in the committed store. -/
structure OneResult (db : WorkTables) (wid : String) : Prop where
  receipts : (db.results wid).length ≤ 1
  events : (db.resultEvents wid).length ≤ 1
  /-- `RESULT_RECEIVED` exactly when the receipt exists. -/
  status : (∃ row, db.item wid = some row ∧ row.status = .resultReceived) ↔ db.results wid ≠ []

theorem Cell.Ledger.oneResult {db : WorkTables} (h : (db.cell wid).Ledger wid)
    (hs : (db.cell wid).Settled) : OneResult db wid where
  receipts := h.once
  events := h.sent.trans h.once
  status := by
    constructor
    · rintro ⟨row, hrow, hstatus⟩
      exact (hs row hrow).1 hstatus
    · intro hres
      obtain ⟨row, hrow⟩ := ne_none_iff_exists'.1 fun hnone ↦ hres (h.absent hnone)
      exact ⟨row, hrow, (hs row hrow).2 hres⟩

/-- **A work item has one result, in every interleaving.** In the committed store an item has at
most one `result` receipt and one Event for it, and its status agrees; an item that has ended keeps
its row; and a submission that finds the receipt of another changes no row and is answered by it. -/
theorem result_once {w : (workSystem cfg).World}
    (hw : Run (fun _ _ ↦ True) (emptyWorld cfg) w) : (∀ wid, OneResult w.store wid) ∧
      (∀ w', Run (fun _ _ ↦ True) w w' → ∀ wid row, WorkTables.item w.store wid = some row →
        row.status ∈ terminalStates → WorkTables.item w'.store wid = some row) ∧
      ∀ f ∈ w.calls, ResultLaw f := by
  have h := work_run False (fun _ _ _ h ↦ h.elim) hw
  refine ⟨fun wid ↦ (h.store wid).1.oneResult (h.store wid).2, ?_, fun f hf ↦ (h.finished f hf).1⟩
  exact fun w' hw' wid row hrow hended ↦ ended_stays hw hw' hrow hended

end Runs

/-! ## One item, its result and a later one -/

namespace Sample

def config : Config where
  validate _ := none
  sha256 := Sha256.hexDigest

def work : Enqueue where
  workspaceId := "ws"
  kind := "invoke"
  agentId := "agent"
  payload := .obj []
  deadline := 3600 * 1000000
  expectedResultSchema := "colab.work-result.v1"
  correlationId := "c1"
  idempotencyKey := "k1"
  actorAccountId := "system"
  workItemId := some "wi-00000001"

def document (wid : String) : PyDict where
  members := [("schema_id", .str "colab.work-result.v1"), ("work_item_id", .str wid),
    ("correlation_id", .str "c1"), ("status", .str "SUCCEEDED"), ("result", .obj []),
    ("events", .arr []), ("artifacts", .arr []),
    ("usage_unavailable", .obj [("reason", .str "MODEL_UNKNOWN")])]
  nodup := by simp [Json.isDict, Json.All, allMembers, allItems]

/-- A submission for the item, with a document for the item `wid`. -/
def submission (wid : String) : SubmitResult where
  workItemId := "wi-00000001"
  agentId := "agent"
  payload := document wid
  actorAccountId := "agent-account"

/-- The labels of a transaction of one call with `n` statements. -/
def transaction (call : WorkCall) (n : ℕ) : List (Label (workSystem config)) :=
  .call 0 call :: (List.replicate n (.exec 0 {}) ++ [.finish 0, .commit 0])

def answered : List (Label (workSystem config)) :=
  transaction (.enqueue work) 6 ++ transaction (.poll "agent" "agent-account" 10) 6 ++
    transaction (.result (submission "wi-00000001")) 14

def misnamed : List (Label (workSystem config)) :=
  answered ++ [.call 0 (.result (submission "wi-00000002")), .finish 0]

/-- A submission for an item with a result, refused with this error. -/
def refusedLater (e : WorkItemError) (f : (workSystem config).Finished) : Bool :=
  match f.entry, f.outcome with
  | .result r, .error e' =>
    decide (results f.view₀ r.workItemId ≠ []) && decide (e' = e)
  | _, _ => false

end Sample

open Sample

/-- An item with its result, and the same result again. -/
theorem result_once_answered : ∃ w : (workSystem config).World,
    (results w.store "wi-00000001").length = 1 ∧ OneResult w.store "wi-00000001" ∧
      w.calls.length = 3 ∧ ∀ f ∈ w.calls, ResultLaw f := by
  have hrun : ((emptyWorld config).runLabels (fun _ _ ↦ true) answered).any
      (fun w ↦ (results w.store "wi-00000001").length = 1 ∧ w.calls.length = 3) = true := by
    decide
  obtain ⟨w, hw, hfacts⟩ := (Option.any_eq_true _ _).1 hrun
  obtain ⟨hlen, hcalls⟩ := of_decide_eq_true hfacts
  have hreached : Run (fun _ _ ↦ True) (emptyWorld config) w :=
    .of_runLabels (fun _ _ _ ↦ trivial) .refl hw
  obtain ⟨hstore, -, hlaw⟩ := result_once hreached
  exact ⟨w, hlen, hstore _, hcalls, hlaw⟩

/-- A later result whose document names another item is refused, not ignored as a duplicate. -/
theorem later_result_refused : ∃ w : (workSystem config).World,
    Run (fun _ _ ↦ True) (emptyWorld config) w ∧ ∃ f ∈ w.calls, ∃ r, f.entry = .result r ∧
      results f.view₀ r.workItemId ≠ [] ∧
        f.outcome = .error ⟨"WORK_RESULT_SCHEMA_INVALID", "work_item_id mismatch"⟩ := by
  have hrun : ((emptyWorld config).runLabels (fun _ _ ↦ true) misnamed).any
      (fun w ↦ w.calls.any (refusedLater
        ⟨"WORK_RESULT_SCHEMA_INVALID", "work_item_id mismatch"⟩)) = true := by
    decide
  obtain ⟨w, hw, hany⟩ := (Option.any_eq_true _ _).1 hrun
  obtain ⟨f, hf, hrefused⟩ := List.any_eq_true.1 hany
  refine ⟨w, .of_runLabels (fun _ _ _ ↦ trivial) .refl hw, f, hf, ?_⟩
  rw [refusedLater] at hrefused
  split at hrefused
  · rename_i r e' hentry houtcome
    simp only [Bool.and_eq_true, decide_eq_true_eq] at hrefused
    exact ⟨r, hentry, hrefused.1, houtcome.trans (congrArg _ hrefused.2)⟩
  · cases hrefused

end AgentColab.Work
