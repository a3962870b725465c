import AgentColab.Work.Inbox

/-!
# What the functions of the inbox do to its tables

One relation for all of them: every function that returns, run alone, has made a sequence of
changes, each of one item and with its guards. What is true of every item at all times is then read
off the changes.
-/

namespace AgentColab.Work

open Transaction Database List Option
open Function (update update_of_ne update_self)
open Except (ok)

variable {α : Type} {cfg : Config} {inp : ℕ → WorkInput} {db db' db₀ : WorkTables} {n : ℕ}

/-! ## Changes -/

/-- The payload of the Events that carry nothing but the id of the item. -/
def idPayload (wid : String) : Json := .obj [("work_item_id", .str wid)]

/-- The Events that a function records for an item; there is none if it was recorded before. -/
structure Sent (item : ItemRow) (type : EventType) (key : String) (payload : Json)
    (events : List Event) : Prop where
  type : ∀ e ∈ events, e.type = type
  aggregateId : ∀ e ∈ events, e.aggregateId = item.workItemId
  taskId : ∀ e ∈ events, e.taskId = item.taskId
  key : ∀ e ∈ events, e.idempotencyKey = key
  payload : ∀ e ∈ events, e.payload = payload

/-- The receipts are of this item and of one of these kinds. -/
def Of (item : ItemRow) (kinds : List ReceiptKind) (receipts : List ReceiptRow) : Prop :=
  ∀ r ∈ receipts, r.workItemId = item.workItemId ∧ r.receiptKind ∈ kinds

/-- The row of an item is replaced, and receipts and Events are added. -/
structure Turn (db : WorkTables) (item item' : ItemRow) (receipts : List ReceiptRow)
    (events : List Event) (db' : WorkTables) : Prop where
  found : db.item item.workItemId = some item
  items : db'.item = update db.item item.workItemId (some item')
  ids : db'.ids = db.ids
  receipts : db'.receipts = db.receipts ++ receipts
  events : db'.events = db.events ++ events

def deliveredColumns (item : ItemRow) (now : Time) : Columns where
  status := .delivered
  deliveryCount := some (item.deliveryCount + 1)
  deliveredAt := some now

/-- **What can happen to an item.** -/
inductive Change (db db' : WorkTables) : Prop where
  | created (row : ItemRow) (events : List Event) (fresh : db.item row.workItemId = none)
      (queued : row.status = .queued) (zero : row.deliveryCount = 0)
      (ids : db'.ids = db.ids ++ [row.workItemId])
      (items : db'.item = update db.item row.workItemId (some row))
      (receipts : db'.receipts = db.receipts) (type : ∀ e ∈ events, e.type = .queued)
      (sent : db'.events = db.events ++ events)
  | delivered (item : ItemRow) (now : Time) (r : ReceiptRow) (events : List Event)
      (waiting : item.status = .queued) (receipt : Of item [.delivery] [r])
      (type : ∀ e ∈ events, e.type = .delivered)
      (turn : Turn db item (item.set (deliveredColumns item now) now) [r] events db')
  | moved (item : ItemRow) (cols : Columns) (now : Time) (action : Action) (type : EventType)
      (payload : Json) (receipts : List ReceiptRow) (events : List Event)
      (legal : transition item.status action = .ok cols.status)
      (plain : action ∉ [Action.deliver, .redeliver, .result])
      (uncounted : cols.deliveryCount = none)
      (own : Of item [.ack, .accept, .reject] receipts) (other : type ≠ .resultReceived)
      (sent : Sent item type item.workItemId payload events)
      (ack : type = .acked → payload = idPayload item.workItemId)
      (turn : Turn db item (item.set cols now) receipts events db')
  | requeued (item : ItemRow) (now : Time) (was : item.status = .delivered)
      (few : item.deliveryCount ≤ maxRedeliveries)
      (turn : Turn db item (item.set { status := .queued } now) [] [] db')
  | answered (item : ItemRow) (now : Time) (r : ReceiptRow) (payload : Json) (events : List Event)
      (was : item.status = .acked ∨ item.status = .inProgress)
      (unanswered : db.results item.workItemId = []) (receipt : Of item [.result] [r])
      (sent : Sent item .resultReceived item.workItemId payload events)
      (turn : Turn db item
        (item.set { status := .resultReceived, finishedAt := some now } now) [r] events db')
  | ignored (item : ItemRow) (receipts : List ReceiptRow)
      (own : Of item [.duplicateResult] receipts) (turn : Turn db item item receipts [] db')

abbrev Changes : WorkTables → WorkTables → Prop := Relation.ReflTransGen Change

/-! ## Statements -/

variable {Q : α → WorkTables → ℕ → Prop} {actor digest ref wid : String} {item : ItemRow}
    {receipts : List ReceiptRow} {events : List Event} {f : Unit → Body α} {cols : Columns}
    {now : Time} {count : ℕ} {d : TimingDecision} {s : Sweep} {r : SubmitResult}
    {newState : WorkItemState} {status : Json}

theorem returns_read {o : Op} {f : Res o → Body α}
    (hread : (execStatement (inp n) n (fun _ ↦ false) db o).writes = []) (h : workDatabase.Returns
    inp (f (execStatement (inp n) n (fun _ ↦ false) db o).result) Q db (n + 1)) :
    workDatabase.Returns inp (ask o >>= f) Q db n := by
  refine returns_do (returns_issue.2 ?_)
  change workDatabase.Returns inp _ Q
    (workDatabase.view db (execStatement (inp n) n (fun _ ↦ false) db o).writes) _
  rw [hread]
  exact h

theorem returns_orRaise {x : Except WorkItemError α} (h : ∀ a, x = .ok a → Q a db n) :
    workDatabase.Returns inp (orRaise x) Q db n := by
  cases x with
  | error => exact returns_raise
  | ok a => exact returns_ret.2 (h a rfl)

theorem returns_load {forUpdate : Bool} {Q : ItemRow → WorkTables → ℕ → Prop}
    (h : ∀ row, db.item wid = some row → Q row db (n + 1)) :
    workDatabase.Returns inp (load wid forUpdate) Q db n := by
  refine returns_read rfl ?_
  dsimp only [execStatement]
  cases hrow : db.item wid with
  | none => exact returns_raise
  | some row => exact returns_ret.2 (h row hrow)

theorem returns_canonicalized {value : Json} {Q : List UInt8 → WorkTables → ℕ → Prop}
    (h : ∀ bytes, Q bytes db n) : workDatabase.Returns inp (canonicalized value) Q db n := by
  rw [canonicalized]
  split
  · exact returns_ret.2 (h _)
  · exact returns_raise

theorem returns_requireOwner {agentId : String} {Q : Unit → WorkTables → ℕ → Prop}
    (h : item.agentId = agentId → Q () db n) :
    workDatabase.Returns inp (requireOwner item agentId) Q db n := by
  rw [requireOwner]
  split
  · exact returns_raise
  · next hne => exact returns_ret.2 (h (not_not.1 hne))

theorem returns_append {item : ItemRow} {type : EventType} {actor key : String} {payload : Json}
    {Q : ℕ → WorkTables → ℕ → Prop} (h : ∀ id events, Sent item type key payload events →
      Q id { db with events := db.events ++ events } (n + 1)) :
    workDatabase.Returns inp (append item type actor key payload) Q db n := by
  refine returns_do (returns_issue.2 ?_)
  change workDatabase.Returns inp (orRaise (execAppend (inp n) n db _).result) Q
    (workDatabase.view db (execAppend (inp n) n db _).writes) (n + 1)
  have hnone : ∀ id, Q id db (n + 1) := by
    intro id
    have hsame := h id [] ⟨by simp, by simp, by simp, by simp, by simp⟩
    rwa [append_nil] at hsame
  rw [execAppend]
  split
  · split_ifs
    · exact returns_ret.2 (hnone _)
    · exact returns_raise
  · split
    · exact returns_raise
    · exact returns_ret.2 (h _ [_] ⟨by simp, by simp, by simp, by simp, by simp⟩)

theorem returns_recordReceipt {r : NewReceipt} {Q : Option ReceiptRow → WorkTables → ℕ → Prop}
    (hsome : ∀ row, row.toNewReceipt = r →
      (r.receiptKind = .result → db.results r.workItemId = []) →
        Q (some row) { db with receipts := db.receipts ++ [row] } (n + 1))
    (hnone : r.receiptKind = .result → Q none db (n + 1)) :
    workDatabase.Returns inp (recordReceipt r) Q db n := by
  refine returns_do (returns_issue.2 ?_)
  dsimp only [execStatement, execReceipt]
  by_cases htaken : (db.item r.workItemId).isNone ∨
      (r.receiptKind = .result ∧ db.results r.workItemId ≠ [])
  · simp only [if_pos htaken]
    split_ifs with hkind
    · exact returns_ret.2 (hnone hkind)
    · exact returns_raise
  · simp only [if_neg htaken]
    refine returns_ret.2 (hsome ⟨r, n⟩ rfl fun hkind ↦ ?_)
    by_contra hne
    exact htaken (.inr ⟨hkind, hne⟩)

/-- A row is found under its own id, and an id is listed once. -/
structure Indexed (db : WorkTables) : Prop where
  named : ∀ wid row, db.item wid = some row → row.workItemId = wid
  listed : db.ids.Nodup
  present : ∀ wid ∈ db.ids, db.item wid ≠ none

theorem Indexed.turn (hdb : Indexed db) {item' : ItemRow}
    (h : Turn db item item' receipts events db') (hid : item'.workItemId = item.workItemId) :
    Indexed db' where
  named wid row hrow := by
    rw [h.items] at hrow
    by_cases hwid : wid = item.workItemId
    · subst hwid
      rw [update_self] at hrow
      rw [← some.inj hrow, hid]
    · rw [update_of_ne hwid] at hrow
      exact hdb.named wid row hrow
  listed := h.ids ▸ hdb.listed
  present wid hmem := by
    rw [h.items]
    by_cases hwid : wid = item.workItemId
    · rw [hwid, update_self]
      exact some_ne_none item'
    · rw [update_of_ne hwid]
      exact hdb.present wid (h.ids ▸ hmem)

theorem Change.indexed (hdb : Indexed db) (h : Change db db') : Indexed db' := by
  cases h with
  | created row _ fresh _ _ ids items =>
    refine ⟨fun wid row' hrow' ↦ ?_, ?_, fun wid hmem ↦ ?_⟩
    · rw [items] at hrow'
      by_cases hwid : wid = row.workItemId
      · subst hwid
        rw [update_self] at hrow'
        rw [← some.inj hrow']
      · rw [update_of_ne hwid] at hrow'
        exact hdb.named wid row' hrow'
    · rw [ids]
      refine nodup_append.2 ⟨hdb.listed, nodup_singleton _, fun a ha b hb ↦ ?_⟩
      rw [mem_singleton.1 hb]
      rintro rfl
      exact hdb.present _ ha fresh
    · rw [items]
      by_cases hwid : wid = row.workItemId
      · rw [hwid, update_self]
        exact some_ne_none row
      · rw [update_of_ne hwid]
        rw [ids, mem_append, mem_singleton] at hmem
        exact hdb.present wid (hmem.resolve_right hwid)
  | delivered _ _ r _ _ _ _ turn => exact hdb.turn turn rfl
  | moved _ _ _ _ _ _ _ _ _ _ _ _ _ _ _ turn => exact hdb.turn turn rfl
  | requeued _ _ _ _ turn => exact hdb.turn turn rfl
  | answered _ _ r _ _ _ _ _ _ turn => exact hdb.turn turn rfl
  | ignored _ _ _ turn => exact hdb.turn turn rfl

theorem Changes.indexed (hdb : Indexed db) (h : Changes db db') : Indexed db' := by
  induction h with
  | refl => exact hdb
  | tail _ hlast ih => exact hlast.indexed ih

theorem item_insertItem {row : ItemRow} (hfresh : db.item row.workItemId = none) :
    (db.apply (.insertItem row)).item = update db.item row.workItemId (some row) := by
  simp [WorkTables.apply, hfresh]

/-! ## Functions that turn one item -/

theorem returns_setColumns
    (h : workDatabase.Returns inp (f ()) Q (db.apply (.setColumns wid cols now)) (n + 1)) :
    workDatabase.Returns inp (ask (.setColumns wid cols now) >>= f) Q db n :=
  returns_do (returns_issue.2 h)

theorem Turn.setColumns {audit : List AuditRow} (hitem : db.item item.workItemId = some item) :
    Turn db item (item.set cols now) receipts events
      { ids := db.ids
        item := (db.apply (.setColumns item.workItemId cols now)).item
        receipts := db.receipts ++ receipts
        events := db.events ++ events
        audit := audit } where
  found := hitem
  items := by simp [WorkTables.apply, hitem]
  ids := rfl
  receipts := rfl
  events := rfl

theorem returns_recordOptional {receipt : Option NewReceipt}
    (hkind : ∀ r ∈ receipt, r.receiptKind ≠ .result) {Q : Unit → WorkTables → ℕ → Prop}
    (h : ∀ receipts, (∀ row ∈ receipts, receipt = some row.toNewReceipt) →
      ∀ k, n ≤ k → Q () { db with receipts := db.receipts ++ receipts } k) :
    workDatabase.Returns inp (recordOptional receipt) Q db n := by
  cases receipt with
  | none =>
    have hsame := h [] (by simp) n (Nat.le_refl n)
    rw [append_nil] at hsame
    exact returns_ret.2 hsame
  | some r =>
    refine returns_do (returns_recordReceipt (fun row hrow _ ↦ returns_ret.2 ?_) fun hr ↦ ?_)
    · refine h [row] (fun row' hrow' ↦ ?_) _ (Nat.le_succ n)
      rw [mem_singleton.1 hrow', hrow]
    · exact absurd hr (hkind r rfl)

/-- The change of state that `ack`, `start`, `reject`, `cancel` and `expire` share. -/
theorem returns_move {action : Action} {receipt : Option NewReceipt} {type : EventType}
    {payload : Json} (hitem : db.item item.workItemId = some item)
    (legal : transition item.status action = .ok cols.status)
    (plain : action ∉ [Action.deliver, .redeliver, .result]) (uncounted : cols.deliveryCount = none)
    (own : ∀ r ∈ receipt, r.workItemId = item.workItemId ∧ r.receiptKind ∈ [ReceiptKind.ack,
    .accept, .reject]) (other : type ≠ .resultReceived)
    (ack : type = .acked → payload = idPayload item.workItemId)
    {Q : ItemRow → WorkTables → ℕ → Prop} (h : ∀ db' k receipts events, Turn db item (item.set
    cols now) receipts events db' → Change db db' → Q (item.set cols now) db' k) :
    workDatabase.Returns inp (move item cols now receipt type actor payload) Q db n := by
  refine returns_setColumns (returns_do (returns_recordOptional (fun r hr hkind ↦ ?_)
    fun receipts hreceipts k _ ↦ returns_do (returns_append fun id events hsent ↦
      returns_load fun row hrow ↦ ?_)))
  · have hplain := (own r hr).2
    rw [hkind] at hplain
    exact absurd hplain (by decide)
  · have hset : (db.apply (.setColumns item.workItemId cols now)).item item.workItemId =
        some (item.set cols now) := by
      simp [WorkTables.apply, hitem]
    obtain rfl : item.set cols now = row := some.inj (hset.symm.trans hrow)
    refine h _ _ receipts events (.setColumns hitem) (.moved item cols now action type payload
      receipts events legal plain uncounted (fun row hrow ↦ ?_) other hsent ack (.setColumns hitem))
    exact own row.toNewReceipt (hreceipts row hrow)

theorem returns_deliver {detail : Json} (hitem : db.item item.workItemId = some item)
    (hqueued : item.status = .queued) {Q : ℕ → WorkTables → ℕ → Prop} (h : ∀ id db' k, (∀ wid, wid
    ≠ item.workItemId → db'.item wid = db.item wid) → Change db db' → Q id db' k) :
    workDatabase.Returns inp (deliver item actor now detail) Q db n := by
  refine returns_do (returns_orRaise fun newState hlegal ↦ ?_)
  have hdelivered : newState = .delivered := by
    by_cases hcount : item.deliveryCount > 0
    · simp only [hcount, if_true] at hlegal
      exact (ok.inj hlegal).symm
    · simp only [hcount, if_false, hqueued] at hlegal
      exact (ok.inj hlegal).symm
  subst hdelivered
  refine returns_setColumns (returns_do (returns_recordReceipt (fun r hr _ ↦
    returns_append fun id events hsent ↦ ?_) fun hkind ↦ nomatch hkind))
  refine h id _ _ (fun wid hwid ↦ update_of_ne hwid _ _) (.delivered item now r events
    hqueued (fun r' hr' ↦ ?_) hsent.type (.setColumns hitem))
  obtain rfl := mem_singleton.1 hr'
  simp [hr]

theorem returns_pollOne (hitem : db.item item.workItemId = some item)
    {Q : ItemRow × Option ℕ → WorkTables → ℕ → Prop} (h : ∀ answer db' k, (∀ wid, wid ≠
    item.workItemId → db'.item wid = db.item wid) → Changes db db' → Q answer db' k) :
    workDatabase.Returns inp (pollOne actor now item) Q db n := by
  rw [pollOne]
  split
  · next hqueued =>
    refine returns_do (returns_deliver hitem hqueued fun id db' k hothers hchange ↦
      returns_do (returns_load fun row _ ↦ returns_ret.2 ?_))
    exact h _ db' _ hothers (.single hchange)
  · exact returns_ret.2 (h _ db _ (fun _ _ ↦ rfl) .refl)

theorem returns_pollLoop {rows : List ItemRow}
    (hrows : ∀ item ∈ rows, db.item item.workItemId = some item)
    (hnodup : (rows.map (·.workItemId)).Nodup) :
    workDatabase.Returns inp (Prog.collect rows (pollOne actor now))
      (fun _ db' _ ↦ Changes db db') db n := by
  induction rows generalizing db n with
  | nil => exact returns_ret.2 .refl
  | cons item _ ih =>
    rw [map_cons, nodup_cons] at hnodup
    refine returns_bind.2 (returns_pollOne (hrows item mem_cons_self)
      fun answer db' k hothers hchanges ↦ returns_bind.2 ((ih ?_ hnodup.2).mono ?_))
    · intro item' hitem'
      rw [hothers item'.workItemId fun heq ↦ hnodup.1 (heq ▸ List.mem_map_of_mem hitem')]
      exact hrows item' (mem_cons_of_mem item hitem')
    · exact fun _ _ _ hrest ↦ returns_ret.2 (hchanges.trans hrest)

/-! ## New items -/

theorem returns_insertNew {r : Enqueue} : workDatabase.Returns inp (insertNew r)
    (fun _ db' _ ↦ Changes db db') db n := by
  refine returns_do (returns_canonicalized fun bytes ↦ ?_)
  split
  · exact returns_raise
  refine returns_read rfl (returns_read rfl (returns_do (returns_issue.2 ?_)))
  dsimp only [execStatement, execInsertItem]
  split_ifs with htaken
  · exact returns_raise
  have hfresh : db.item (r.workItemId.getD (inp (n + 1)).newId) = none := by
    by_contra hne
    exact htaken (.inl (isSome_iff_ne_none.2 hne))
  refine returns_do (returns_orRaise fun _ _ ↦ returns_do (returns_load fun item hitem ↦ returns_do
    (returns_append fun id events hsent ↦ returns_ret.2 ?_)))
  refine .single (.created (r.row (r.workItemId.getD (inp (n + 1)).newId) (inp n).now) events hfresh
    rfl rfl rfl (item_insertItem hfresh) rfl hsent.type rfl)

theorem returns_enqueue {r : Enqueue} : workDatabase.Returns inp (enqueue r)
    (fun _ db' _ ↦ Changes db db') db n := by
  rw [enqueue]
  split
  · exact returns_raise
  split
  · exact returns_raise
  refine returns_read rfl ?_
  dsimp only [execStatement]
  split
  · split
    · exact returns_raise
    · exact returns_ret.2 .refl
  · exact returns_insertNew

/-! ## The sweep -/

/-- The count that the row had when it was read. -/
def CountIs (db : WorkTables) (wid : String) (count : ℕ) : Prop :=
  ∃ row, db.item wid = some row ∧ row.deliveryCount = count

theorem Turn.countIs (hturn : Turn db item (item.set cols now) receipts events db')
    (huncounted : cols.deliveryCount = none) (h : CountIs db wid count) :
    CountIs db' wid count := by
  obtain ⟨row, hrow, hcount⟩ := h
  by_cases hwid : wid = item.workItemId
  · subst hwid
    obtain rfl := some.inj (hturn.found.symm.trans hrow)
    refine ⟨item.set cols now, by rw [hturn.items, update_self], ?_⟩
    simp [ItemRow.set, huncounted, hcount]
  · exact ⟨row, by rw [hturn.items, update_of_ne hwid, hrow], hcount⟩

theorem few_of_ackTimer {deliveredAt : Option Time} (hd : ackTimer deliveredAt now count = .ok d)
    (hredeliver : d.action = .redeliver) : count ≤ maxRedeliveries := by
  rw [ackTimer.eq_def] at hd
  split at hd
  · cases hd
  · dsimp only at hd
    split_ifs at hd with hdue hfew
    · rw [← ok.inj hd] at hredeliver
      cases hredeliver
    · exact hfew
    · rw [← ok.inj hd] at hredeliver
      cases hredeliver

theorem acceptTimer_ne_redeliver {ackedAt acceptedAt : Option Time} {reroutes : ℕ}
    (hd : acceptTimer ackedAt acceptedAt now reroutes = .ok d) : d.action ≠ .redeliver := by
  rw [acceptTimer.eq_def] at hd
  cases ackedAt with
  | none =>
    dsimp only at hd
    split_ifs at hd
    rw [← ok.inj hd]
    simp
  | some =>
    dsimp only at hd
    split_ifs at hd <;> rw [← ok.inj hd] <;> simp

theorem few_of_redeliver (hd : s.decision now item = .ok d) (hredeliver : d.action = .redeliver) :
    item.deliveryCount ≤ maxRedeliveries := by
  rw [Sweep.decision, nextAction] at hd
  split_ifs at hd
  · rw [← ok.inj hd] at hredeliver
    cases hredeliver
  · rw [← ok.inj hd] at hredeliver
    cases hredeliver
  · exact few_of_ackTimer hd hredeliver
  · exact absurd hredeliver (acceptTimer_ne_redeliver hd)
  · rw [← ok.inj hd] at hredeliver
    cases hredeliver

/-! ## Results -/

theorem returns_audit {row : AuditRow}
    (h : workDatabase.Returns inp (f ()) Q { db with audit := db.audit ++ [row] } (n + 1)) :
    workDatabase.Returns inp (ask (.appendAudit row) >>= f) Q db n :=
  returns_do (returns_issue.2 h)

theorem returns_duplicate {existing : Option ReceiptRow}
    (hitem : db.item item.workItemId = some item) :
    workDatabase.Returns inp (duplicate r item existing ref digest)
      (fun _ db' _ ↦ Changes db db') db n := by
  refine returns_do (returns_recordReceipt (fun row hrow _ ↦ returns_audit
    (returns_do (returns_load fun _ _ ↦ returns_ret.2 ?_))) fun hkind ↦ nomatch hkind)
  refine .single (.ignored item [row] (fun r' hr' ↦ ?_) ⟨hitem, ?_, rfl, rfl, ?_⟩)
  · obtain rfl := mem_singleton.1 hr'
    simp [hrow]
  · rw [← hitem, Function.update_eq_self]
  · exact (append_nil _).symm

theorem returns_concludeResult {receipt : ReceiptRow} (hwid : item.workItemId = r.workItemId)
    (hitem : db.item item.workItemId = some item)
    (hlegal : transition item.status .result = .ok newState)
    (hunanswered : db.results item.workItemId = []) (hreceipt : Of item [.result] [receipt]) :
    workDatabase.Returns inp (concludeResult r item newState status receipt ref)
      (fun _ db' _ ↦ Changes db db') { db with receipts := db.receipts ++ [receipt] } n := by
  have hstates := (transition_eq_ok.1 hlegal).2
  obtain rfl : newState = .resultReceived := by
    revert hstates
    cases item.status <;> simp [transitions, eq_comm]
  rw [concludeResult, ← hwid]
  refine returns_read rfl (returns_setColumns (returns_do (returns_append fun id events hsent ↦
    returns_do ?_)))
  have hchange : ∀ audit : List AuditRow, Change db
      { ids := db.ids
        item := (db.apply (.setColumns item.workItemId
          { status := .resultReceived, finishedAt := some (inp n).now } (inp n).now)).item
        receipts := db.receipts ++ [receipt]
        events := db.events ++ events
        audit := audit } := fun audit ↦
    .answered item _ receipt _ events ((transitions_resultReceived.1 hstates).2) hunanswered
      hreceipt hsent (.setColumns hitem)
  rw [auditIdentity]
  split
  · exact returns_issue.2 (returns_do (returns_load fun _ _ ↦ returns_ret.2 (.single (hchange _))))
  · exact returns_ret.2 (returns_do (returns_load fun _ _ ↦
      returns_ret.2 (.single (hchange db.audit))))

theorem returns_recordResult (hwid : item.workItemId = r.workItemId)
    (hitem : db.item item.workItemId = some item)
    (hlegal : transition item.status .result = .ok newState) :
    workDatabase.Returns inp (recordResult r item newState status ref digest)
      (fun _ db' _ ↦ Changes db db') db n := by
  refine returns_do (returns_recordReceipt (fun receipt hreceipt hunanswered ↦ ?_) fun _ ↦ ?_)
  · refine returns_concludeResult hwid hitem hlegal (hwid ▸ hunanswered rfl) fun r' hr' ↦ ?_
    obtain rfl := mem_singleton.1 hr'
    simp [hreceipt, hwid]
  · exact returns_read rfl (returns_duplicate hitem)

section Functions

variable (hdb : Indexed db)

include hdb

variable {actor agentId reason wid : String} {r : SubmitResult} {item : ItemRow}

theorem returns_ack : workDatabase.Returns inp (ack wid agentId actor)
    (fun _ db' _ ↦ Changes db db') db n := by
  refine returns_do (returns_load fun item hitem ↦ returns_do (returns_requireOwner fun _ ↦ ?_))
  obtain rfl := hdb.named wid item hitem
  split
  · exact returns_ret.2 .refl
  refine returns_do (returns_orRaise fun newState hlegal ↦ returns_read rfl ?_)
  refine returns_move hitem hlegal (by decide) rfl ?_ (by decide) (fun _ ↦ rfl)
    fun db' k _ _ _ hchange ↦ .single hchange
  rintro r ⟨⟩
  exact ⟨rfl, by simp⟩

theorem returns_start :
    workDatabase.Returns inp (start wid agentId actor) (fun _ db' _ ↦ Changes db db') db n := by
  refine returns_do (returns_load fun item hitem ↦ returns_do (returns_requireOwner fun _ ↦ ?_))
  obtain rfl := hdb.named wid item hitem
  split
  · exact returns_ret.2 .refl
  refine returns_do (returns_orRaise fun newState hlegal ↦ returns_read rfl ?_)
  refine returns_move hitem hlegal (by decide) rfl ?_ (by decide) (fun h ↦ absurd h (by decide))
    fun db' k _ _ _ hchange ↦ .single hchange
  rintro r ⟨⟩
  exact ⟨rfl, by simp⟩

theorem returns_reject : workDatabase.Returns inp
    (reject wid agentId reason actor) (fun _ db' _ ↦ Changes db db') db n := by
  rw [reject]
  split
  · exact returns_raise
  refine returns_do (returns_load fun item hitem ↦ returns_do (returns_requireOwner fun _ ↦ ?_))
  obtain rfl := hdb.named wid item hitem
  refine returns_do (returns_orRaise fun newState hlegal ↦ returns_read rfl ?_)
  refine returns_move hitem hlegal (by decide) rfl ?_ (by decide) (fun h ↦ absurd h (by decide))
    fun db' k _ _ _ hchange ↦ .single hchange
  rintro r ⟨⟩
  exact ⟨rfl, by simp⟩

theorem returns_close {action : Action} {type : EventType}
    (plain : action ∉ [Action.deliver, .redeliver, .result]) (other : type ≠ .resultReceived)
    (unacked : type ≠ .acked) {Q : ItemRow → WorkTables → ℕ → Prop} (h : ∀ row db' k item cols now
    receipts events, cols.deliveryCount = none → Turn db item (item.set cols now) receipts events
    db' → Change db db' → Q row db' k) :
    workDatabase.Returns inp (close wid reason actor action type) Q db n := by
  refine returns_do (returns_load fun item hitem ↦ ?_)
  obtain rfl := hdb.named wid item hitem
  refine returns_do (returns_orRaise fun newState hlegal ↦ returns_read rfl ?_)
  exact returns_move hitem hlegal plain rfl (fun r hr ↦ absurd hr (by simp)) other
    (fun h ↦ absurd h unacked) fun db' k _ _ hturn hchange ↦ h _ _ _ item _ _ _ _ rfl hturn hchange

theorem Indexed.item_of_mem {row : ItemRow} (hrow : row ∈ db.items) :
    db.item row.workItemId = some row := by
  obtain ⟨wid, -, hwid⟩ := mem_filterMap.1 hrow
  rwa [hdb.named wid row hwid]

theorem Indexed.map_items : db.items.map (·.workItemId) = db.ids := by
  have hids : ∀ ids : List String, (∀ wid ∈ ids, db.item wid ≠ none) →
      (ids.filterMap db.item).map (·.workItemId) = ids := by
    intro ids hpresent
    induction ids with
    | nil => rfl
    | cons wid _ ih =>
      obtain ⟨row, hrow⟩ := ne_none_iff_exists'.1 (hpresent wid mem_cons_self)
      rw [filterMap_cons_some hrow, map_cons, hdb.named wid row hrow,
        ih fun w hw ↦ hpresent w (mem_cons_of_mem wid hw)]
  exact hids db.ids hdb.present

theorem returns_poll {maxItems : ℤ} :
    workDatabase.Returns inp (poll agentId actor maxItems) (fun _ db' _ ↦ Changes db db') db n := by
  refine returns_read rfl (returns_read rfl (returns_do ((returns_pollLoop ?_ ?_).mono
    fun _ _ _ h ↦ returns_ret.2 h)))
  · intro item hitem
    have hmem := (mem_insertionSort _).1 (mem_of_mem_take hitem)
    exact hdb.item_of_mem (mem_of_mem_filter hmem)
  · have hsorted := (perm_insertionSort (fun a b : ItemRow ↦ a.createdAt < b.createdAt ∨
      (a.createdAt = b.createdAt ∧ a.workItemId ≤ b.workItemId))
      (db.items.filter fun row ↦ row.agentId = agentId ∧
        row.status ∈ [WorkItemState.queued, .delivered] ∧ !false)).map (·.workItemId)
    have hnodup : (db.items.map (·.workItemId)).Nodup := hdb.map_items ▸ hdb.listed
    refine List.Nodup.sublist (((take_sublist _ _).map _)) (hsorted.nodup_iff.2 ?_)
    exact hnodup.sublist (filter_sublist.map _)

theorem returns_markDelivered {detail : Json} : workDatabase.Returns inp
    (markDelivered wid actor detail) (fun _ db' _ ↦ Changes db db') db n := by
  refine returns_do (returns_load fun item hitem ↦ ?_)
  obtain rfl := hdb.named wid item hitem
  split
  · exact returns_ret.2 .refl
  · next hqueued =>
    refine returns_read rfl (returns_do (returns_deliver hitem (not_not.1 hqueued)
      fun id db' k _ hchange ↦ returns_do (returns_load fun row _ ↦ returns_ret.2 ?_)))
    exact .single hchange

theorem returns_acceptResult (hitem : db.item r.workItemId = some item) :
    workDatabase.Returns inp (acceptResult r item ref digest)
      (fun _ db' _ ↦ Changes db db') db n := by
  have hrest : ∀ {db₁ : WorkTables} {item₁ : ItemRow} {k : ℕ}, Changes db db₁ →
      db₁.item r.workItemId = some item₁ → workDatabase.Returns inp (do
        let newState ← orRaise (transition item₁.status .result)
        let status ← statusOf r.payload
        recordResult r item₁ newState status ref digest) (fun _ db' _ ↦ Changes db db') db₁ k := by
    intro db₁ item₁ k hfirst hitem₁
    have hwid := (Changes.indexed hdb hfirst).named _ _ hitem₁
    refine returns_do (returns_orRaise fun newState hlegal ↦ returns_do ?_)
    rw [statusOf]
    split
    · refine returns_ret.2 ((returns_recordResult hwid (hwid ▸ hitem₁) hlegal).mono ?_)
      exact fun _ _ _ hlast ↦ hfirst.trans hlast
    · exact returns_raise
  refine returns_do ?_
  rw [impliedAck]
  split
  · exact returns_do ((returns_ack hdb).mono fun _ db₁ k hfirst ↦
      returns_load fun item₁ hitem₁ ↦ hrest hfirst hitem₁)
  · exact returns_ret.2 (hrest .refl hitem)

theorem returns_result : workDatabase.Returns inp (result cfg r)
    (fun _ db' _ ↦ Changes db db') db n := by
  refine returns_do ?_
  rw [validated]
  split
  · exact returns_raise
  refine returns_ret.2 (returns_do ?_)
  have hrest : workDatabase.Returns inp (do
      let item ← load r.workItemId true
      requireOwner item r.agentId
      let bytes ← canonicalized r.payload.json
      let digest := cfg.sha256 bytes
      let ref := resultRef r.workItemId digest
      let existing ← ask (.resultReceipt r.workItemId)
      if existing.isSome ∨ item.status ∈ terminalStates then duplicate r item existing ref digest
      else acceptResult r item ref digest) (fun _ db' _ ↦ Changes db db') db n := by
    refine returns_do (returns_load fun item hitem ↦ returns_do (returns_requireOwner fun _ ↦
      returns_do (returns_canonicalized fun bytes ↦ returns_read rfl ?_)))
    split
    · exact returns_duplicate (hdb.named _ _ hitem ▸ hitem)
    · exact returns_acceptResult hdb hitem
  rw [namesItem]
  split
  · exact returns_raise
  · split
    · exact returns_raise
    · exact returns_ret.2 hrest
  · exact returns_raise

theorem returns_requeue {wid : String} {count : ℕ} (hcount : CountIs db wid count)
    (hfew : count ≤ maxRedeliveries) {Q : ItemRow → WorkTables → ℕ → Prop}
    (h : ∀ row db' k item now, Turn db item (item.set { status := .queued } now) [] [] db' →
      Change db db' → Q row db' k) :
    workDatabase.Returns inp (requeueForRedelivery wid) Q db n := by
  obtain ⟨item, hitem, rfl⟩ := hcount
  refine returns_do (returns_load fun item' hitem' ↦ ?_)
  obtain rfl := some.inj (hitem.symm.trans hitem')
  obtain rfl := hdb.named wid item hitem
  refine returns_do (returns_orRaise fun state hlegal ↦ returns_read rfl (returns_setColumns
    (returns_load fun row _ ↦ ?_)))
  have hwas : item.status = .delivered := by
    have hstates := (transition_eq_ok.1 hlegal).2
    revert hstates
    cases item.status <;> simp [transitions]
  have hturn : Turn db item (item.set { status := .queued } (inp (n + 1)).now) [] []
      (db.apply (.setColumns item.workItemId { status := .queued } (inp (n + 1)).now)) := by
    refine ⟨hitem, ?_, rfl, (append_nil _).symm, (append_nil _).symm⟩
    simp [WorkTables.apply, hitem]
  exact h row _ _ item _ hturn (.requeued item _ hwas hfew hturn)

theorem returns_perform (hcount : CountIs db item.workItemId item.deliveryCount)
    {Q : Unit → WorkTables → ℕ → Prop} (h : ∀ db' k, (∀ wid count, CountIs db wid count → CountIs
    db' wid count) → Changes db db' → Q () db' k) :
    workDatabase.Returns inp (s.perform item (s.decision now item)) Q db n := by
  have hidle : Q () db n := h db n (fun _ _ h ↦ h) .refl
  cases hd : s.decision now item with
  | error => exact returns_ret.2 hidle
  | ok d =>
    rw [Sweep.perform]
    cases haction : d.action with
    | redeliver =>
      refine returns_do (returns_requeue hdb hcount (few_of_redeliver hd haction)
        fun row db' k item₁ now₁ hturn hchange ↦ returns_ret.2 ?_)
      exact h db' k (fun wid count ↦ hturn.countIs rfl) (.single hchange)
    | expire =>
      refine returns_do (returns_close hdb (by decide) (by decide) (by decide)
        fun row db' k item₁ cols now₁ receipts events huncounted hturn hchange ↦ returns_ret.2 ?_)
      exact h db' k (fun wid count ↦ hturn.countIs huncounted) (.single hchange)
    | none | reroute | waiting => exact returns_ret.2 hidle

end Functions

theorem returns_each {report : SweepReport} {items : List ItemRow} (hdb : Indexed db)
    (hitems : ∀ item ∈ items, CountIs db item.workItemId item.deliveryCount) :
    workDatabase.Returns inp (s.each now report items) (fun _ db' _ ↦ Changes db db') db n := by
  induction items generalizing db n report with
  | nil => exact returns_ret.2 .refl
  | cons item _ ih =>
    refine returns_do (returns_perform hdb (hitems item mem_cons_self)
      fun db' k hcounts hchanges ↦ ?_)
    refine (ih (hchanges.indexed hdb) fun item' hitem' ↦ ?_).mono ?_
    · exact hcounts _ _ (hitems item' (mem_cons_of_mem item hitem'))
    · exact fun _ _ _ hrest ↦ hchanges.trans hrest

theorem returns_sweep (hdb : Indexed db) :
    workDatabase.Returns inp (sweep s) (fun _ db' _ ↦ Changes db db') db n := by
  refine returns_read rfl (returns_read rfl (returns_each hdb fun item hitem ↦ ⟨item, ?_, rfl⟩))
  exact hdb.item_of_mem (mem_of_mem_filter ((mem_insertionSort _).1 hitem))

theorem returns_workBody (hdb : Indexed db) (call : WorkCall) :
    workDatabase.Returns inp (workBody cfg call) (fun _ db' _ ↦ Changes db db') db n := by
  have hret : ∀ {β : Type} {p : Body β} {f : β → Body Answer}, (∀ b, ∃ a, f b = .ret a) →
      workDatabase.Returns inp p (fun _ db' _ ↦ Changes db db') db n →
      workDatabase.Returns inp (p >>= f) (fun _ db' _ ↦ Changes db db') db n := by
    intro β p f hf hp
    refine returns_do (hp.mono fun b db' k h ↦ ?_)
    obtain ⟨a, ha⟩ := hf b
    rw [ha]
    exact returns_ret.2 h
  cases call with
  | enqueue => exact hret (fun _ ↦ ⟨_, rfl⟩) returns_enqueue
  | poll => exact hret (fun _ ↦ ⟨_, rfl⟩) (returns_poll hdb)
  | markDelivered => exact hret (fun _ ↦ ⟨_, rfl⟩) (returns_markDelivered hdb)
  | ack => exact hret (fun _ ↦ ⟨_, rfl⟩) (returns_ack hdb)
  | start => exact hret (fun _ ↦ ⟨_, rfl⟩) (returns_start hdb)
  | reject => exact hret (fun _ ↦ ⟨_, rfl⟩) (returns_reject hdb)
  | cancel | expire =>
    exact hret (fun _ ↦ ⟨_, rfl⟩) (returns_close hdb (by decide) (by decide) (by decide)
      fun _ _ _ _ _ _ _ _ _ _ hchange ↦ .single hchange)
  | result => exact hret (fun _ ↦ ⟨_, rfl⟩) (returns_result hdb)
  | sweep => exact hret (fun _ ↦ ⟨_, rfl⟩) (returns_sweep hdb)

/-- **The rule for histories.** What holds at first and is kept by every change holds always. -/
theorem history_changes {C : WorkTables → ℕ → WorkCall → (ℕ → WorkInput) → Prop}
    {I : WorkTables → Prop} {m : ℕ} (h₀ : I {})
    (hchange : ∀ db db', Indexed db → I db → Change db db' → I db')
    (h : workDatabase.History (workBody cfg) C {} m db n) : Indexed db ∧ I db := by
  refine History.invariant (D := workDatabase) (I := fun db _ ↦ Indexed db ∧ I db) ?_
    (fun _ _ _ _ h ↦ h) ?_ h
  · exact ⟨⟨fun _ _ hrow ↦ (nomatch hrow), nodup_nil, fun _ hwid ↦
      absurd hwid not_mem_nil⟩, h₀⟩
  · rintro db n call inp ⟨hdb, hI⟩ -
    refine (returns_workBody hdb call).mono fun _ db' _ hchanges ↦ ?_
    induction hchanges with
    | refl => exact ⟨hdb, hI⟩
    | tail _ hlast ih => exact ⟨hlast.indexed ih.1, hchange _ _ ih.1 ih.2 hlast⟩

end AgentColab.Work
