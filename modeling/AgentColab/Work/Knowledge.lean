import AgentColab.Work.Inbox

/-!
# What a call on the inbox knows

The monitor of the inbox. A call knows the rows that it has locked and, once it has looked, whether
a locked item has a `result` receipt. A result is recorded in three steps, the receipt, the status
and the Event. No function ends before the second; the Event store can refuse the third.
-/

namespace AgentColab.Work

open Transaction

def waitingStates : List WorkItemState := [.queued, .delivered]

/-- An item that waits for its acknowledgement has none. -/
def ItemRow.Unacked (row : ItemRow) : Prop := row.status ∈ waitingStates → row.ackedAt = none

/-- Whether a decision of the sweep still fits an item with this status: `redeliver` needs an item
that is delivered, an expiry for the missing acknowledgement one that waits for it, and an expiry
past the deadline one that is open. -/
def Stands : Except WorkItemError TimingDecision → WorkItemState → Prop
  | .ok d, status =>
    match d.action with
    | .redeliver => status = .delivered
    | .expire =>
      if d.reason = "DEADLINE_EXCEEDED" then status ∉ terminalStates else status ∈ waitingStates
    | _ => True
  | .error _, _ => True

structure WorkKnown where
  /-- The rows that are locked, as they are now. -/
  rows : String → Option (Option ItemRow) := fun _ ↦ none
  /-- The `result` receipts of locked items. -/
  receipts : String → Option (Option ReceiptRow) := fun _ ↦ none
  /-- The item that has got a `result` receipt and not yet its status. -/
  debt : Option String := none
  /-- The item that has got a `result` receipt and not yet its Event. -/
  unsent : Option String := none
  /-- The `result` receipts that the call has inserted. -/
  mine : List ReceiptRow := []
  /-- Whether the call has written a row of `work_items`. -/
  touched : Bool := false
  /-- The sweep that is going on, its reading of the clock and its batch. -/
  sweep : Option Sweep := none
  time : Option Time := none
  batch : Option (List ItemRow) := none
  /-- What the Event store raised. -/
  refused : Option WorkItemError := none

namespace WorkKnown

def lock (m : WorkKnown) (wid : String) (row : Option ItemRow) : WorkKnown :=
  { m with rows := Function.update m.rows wid (some row) }

def put (m : WorkKnown) (wid : String) (cols : Columns) (now : Time) : WorkKnown :=
  { m with
    rows := Function.update m.rows wid ((m.rows wid).map (Option.map fun row ↦ row.set cols now))
    debt := none
    touched := true }

/-- Insert a `result` receipt. -/
def receive (m : WorkKnown) (row : ReceiptRow) : WorkKnown :=
  { m with
    receipts := Function.update m.receipts row.workItemId (some (some row))
    debt := some row.workItemId
    unsent := some row.workItemId
    mine := row :: m.mine }

def next (m : WorkKnown) : (o : Op) → Res o → WorkKnown
  | .now, t => { m with time := m.time <|> some t }
  | .openItems _ _, items => { m with batch := m.batch <|> some items }
  | .load wid true, row => m.lock wid row
  | .deliverable _ _, rows =>
    { m with
      rows := fun wid ↦
        match rows.find? (·.workItemId = wid) with
        | some row => some (some row)
        | none => m.rows wid }
  | .insertItem row, .ok () => { m.lock row.workItemId (some row) with touched := true }
  | .setColumns wid cols now, () => m.put wid cols now
  | .resultReceipt wid, row =>
    { m with receipts := Function.update m.receipts wid (some row) }
  | .insertReceipt r, some row => if r.receiptKind = .result then m.receive row else m
  | .append r, .ok _ => if r.type = .resultReceived then { m with unsent := none } else m
  | .append _, .error e => { m with refused := some e }
  | _, _ => m

/-- The item is there, locked, and this is its row. -/
def Has (m : WorkKnown) (wid : String) (row : ItemRow) : Prop := m.rows wid = some (some row)

/-- What a call knows when it inserts a `result` receipt. -/
structure MayReceive (m : WorkKnown) (r : NewReceipt) : Prop where
  paid : m.debt = none
  bare : m.receipts r.workItemId = some none
  live : ∀ row, m.Has r.workItemId row → row.status ∉ terminalStates
  named : ∃ ref, r.resultRef = some ref ∧ ref ≠ ""

def may (m : WorkKnown) : Op → Prop
  | .insertItem row => row.status = .queued ∧ row.ackedAt = none
  | .setColumns wid cols _ => ∃ row, m.Has wid row ∧ row.status ∉ terminalStates ∧
      m.debt = (if cols.status = .resultReceived then some wid else none) ∧
      (cols.status ∈ waitingStates → row.status ∈ waitingStates ∧ cols.ackedAt = none)
  | .insertReceipt r => (∃ row, m.Has r.workItemId row) ∧
      (r.receiptKind = .result → m.MayReceive r)
  | .resultReceipt wid => ∃ row, m.Has wid row
  | .append r => (∃ row, m.Has r.aggregateId row) ∧
      (r.type = .resultReceived → r.idempotencyKey = r.aggregateId ∧ m.unsent = some r.aggregateId)
  | _ => True

/-- What a locked row, or any row that is known, is read as. -/
structure Reads (m : WorkKnown) (wid : String) (r : Option ItemRow) : Prop where
  id : ∀ row, r = some row → row.workItemId = wid
  unacked : ∀ row, r = some row → row.Unacked
  known : ∀ x, m.rows wid = some x → r = x
  there : ∀ items, m.batch = some items → ∀ item ∈ items, item.workItemId = wid → r ≠ none

def ok (m : WorkKnown) : (o : Op) → Res o → Prop
  | .load wid _, r => m.Reads wid r
  | .deliverable _ _, rows => ∀ row ∈ rows, row.status ∈ waitingStates
  | .insertReceipt r, x => ∃ row : ReceiptRow, x = some row ∧ row.toNewReceipt = r
  | .resultReceipt _, x => ∀ rr, x = some rr → ∃ ref, rr.resultRef = some ref ∧ ref ≠ ""
  | _, _ => True

/-- A row that the sweep locks still fits the decision. -/
def FreshRead (m : WorkKnown) : (o : Op) → Res o → Prop
  | .load wid true, some row => ∀ s t items item, m.sweep = some s → m.time = some t →
      m.batch = some items → item ∈ items → item.workItemId = wid →
        Stands (s.decision t item) row.status
  | _, _ => True

end WorkKnown

def workMonitor (Fresh : Prop) : Monitor Res WorkKnown where
  may := WorkKnown.may
  ok m o r := m.ok o r ∧ (Fresh → m.FreshRead o r)
  next := WorkKnown.next

/-- The document of a result names the item, validates and has canonical JSON. -/
structure SubmitResult.WellFormed (cfg : Config) (r : SubmitResult) : Prop where
  valid : cfg.validate r.payload = none
  named : ∃ w, r.payload.members.lookup "work_item_id" = some (.str w) ∧ w = r.workItemId
  canonical : ∃ bytes, canonicalJson r.payload.json = .ok bytes

/-- How a result may end: refused for its document, for an item that is not there or for its agent,
having written no row; first, whatever happens; or as a duplicate of the receipt that is there. -/
inductive WorkKnown.Resulted (m : WorkKnown) (cfg : Config) (r : SubmitResult) :
    Except WorkItemError Answer → Prop where
  | malformed {e : WorkItemError} (h : ¬r.WellFormed cfg) (untouched : m.touched = false) :
      m.Resulted cfg r (.error e)
  | absent {e : WorkItemError} (h : m.rows r.workItemId = some none)
      (untouched : m.touched = false) : m.Resulted cfg r (.error e)
  | stranger {e : WorkItemError} {row : ItemRow} (h : m.Has r.workItemId row)
      (hne : row.agentId ≠ r.agentId) (untouched : m.touched = false) : m.Resulted cfg r (.error e)
  | first {x : Except WorkItemError Answer} (h : m.receipts r.workItemId = some none ∨
      ∃ rr ∈ m.mine, m.receipts r.workItemId = some (some rr)) : m.Resulted cfg r x
  | duplicate {row : ItemRow} {rr : ReceiptRow} {ref : String} (hw : r.WellFormed cfg)
      (h : m.Has r.workItemId row) (howner : row.agentId = r.agentId)
      (hrr : m.receipts r.workItemId = some (some rr)) (href : rr.resultRef = some ref)
      (untouched : m.touched = false) :
      m.Resulted cfg r (.ok (.result ⟨.duplicateIgnored, r.workItemId, rr.receiptId, ref, none, row⟩))

/-- The report on a batch, decided at one reading of the clock. -/
def Sweep.report (s : Sweep) (now : Time) (items : List ItemRow) : SweepReport :=
  items.foldl (fun report item ↦ report.record item (s.decision now item)) {}

/-- The items that a report says were re-queued or expired for a missing acknowledgement. -/
def SweepReport.forAckTimeout (report : SweepReport) : List String :=
  report.requeued.map (·.workItemId) ++
    (report.expired.filter (·.reason = "ACK_TIMEOUT")).map (·.workItemId)

/-- How a sweep may end: with the report on its whole batch, none of whose items was acknowledged
before it was re-queued or expired for the missing acknowledgement; or with what the Event store
raised. -/
structure WorkKnown.Swept (m : WorkKnown) (Fresh : Prop) (s : Sweep)
    (x : Except WorkItemError Answer) : Prop where
  failed : ∀ e, x = .error e → Fresh → m.refused = some e
  report : ∀ a, x = .ok a → ∃ t items, m.time = some t ∧ m.batch = some items ∧
    a = .swept (s.report t items) ∧
      (Fresh → ∀ wid ∈ (s.report t items).forAckTimeout, ∃ row, m.Has wid row ∧ row.ackedAt = none)

/-- How a call may end. -/
structure WorkKnown.Ends (m : WorkKnown) (cfg : Config) (Fresh : Prop) (call : WorkCall)
    (x : Except WorkItemError Answer) : Prop where
  paid : m.debt = none
  result : ∀ r, call = .result r → m.Resulted cfg r x
  sweep : ∀ s, call = .sweep s → m.Swept Fresh s x

end AgentColab.Work
