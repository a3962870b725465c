import AgentColab.Work.Knowledge

/-!
# The inbox conforms to its monitor

One lemma for each function: what a call knows when it ends. The functions besides `result` and
`sweep` end with nothing owed, whatever happens.
-/

namespace AgentColab.Work

open Transaction List Option
open Prog (conforms_do bindPost_ok)

section Conformance

variable {Fresh : Prop} {α : Type} {m : WorkKnown} {wid : String} {row : ItemRow}

abbrev Body.Conforms (Fresh : Prop) (p : Body α) (Q : Except WorkItemError α → WorkKnown → Prop)
    (m : WorkKnown) : Prop :=
  Prog.Conforms (workMonitor Fresh) Q p m

namespace WorkKnown

variable {r : Option ItemRow} {wid' : String}

@[simp] theorem rows_lock_self : (m.lock wid r).rows wid = some r := Function.update_self ..

theorem rows_lock_of_ne (h : wid' ≠ wid) :
    (m.lock wid r).rows wid' = m.rows wid' := Function.update_of_ne h ..

theorem has_lock : (m.lock wid (some row)).Has wid row := rows_lock_self

theorem Has.put (h : m.Has wid row) (cols : Columns) (now : Time) :
    (m.put wid cols now).Has wid (row.set cols now) := by
  have hrow : m.rows wid = some (some row) := h
  change Function.update m.rows wid _ wid = _
  rw [Function.update_self, hrow]
  rfl

theorem Has.put_of (h : m.Has wid' row) (wid : String) (cols : Columns) (now : Time) :
    ∃ row', (m.put wid cols now).Has wid' row' ∧ (row' = row ∨ row' = row.set cols now) := by
  by_cases hwid : wid' = wid
  · subst hwid
    exact ⟨_, h.put cols now, .inr rfl⟩
  · exact ⟨row, (Function.update_of_ne hwid ..).trans h, .inl rfl⟩

theorem Has.inj {row' : ItemRow} (h : m.Has wid row) (h' : m.Has wid row') : row = row' :=
  some.inj (some.inj (h.symm.trans h'))

end WorkKnown

/-! ## Statements -/

theorem ask_conforms {o : Op} {Q : Except WorkItemError (Res o) → WorkKnown → Prop}
    (hmay : m.may o) (h : ∀ r, m.ok o r → (Fresh → m.FreshRead o r) → Q (.ok r) (m.next o r)) :
    Body.Conforms Fresh (ask o) Q m := .issue hmay fun r hr ↦ h r hr.1 hr.2

theorem orRaise_conforms {x : Except WorkItemError α}
    {Q : Except WorkItemError α → WorkKnown → Prop}
    (herr : ∀ e, x = .error e → Q (.error e) m) (hok : ∀ a, x = .ok a → Q (.ok a) m) :
    Body.Conforms Fresh (orRaise x) Q m := by
  cases x with
  | error e => exact .raise (herr e rfl)
  | ok a => exact .ret (hok a rfl)

theorem now_conforms {Q : Except WorkItemError Time → WorkKnown → Prop}
    (h : ∀ t, Q (.ok t) { m with time := m.time <|> some t }) :
    Body.Conforms Fresh (ask .now) Q m :=
  ask_conforms (o := .now) trivial fun t _ _ ↦ h t

variable {Q : Except WorkItemError ItemRow → WorkKnown → Prop} {item : ItemRow} {type : EventType}
    {actor agentId digest reason ref : String} {detail payload status : Json} {cols : Columns}
    {now : Time} {state state' : WorkItemState} {action : Action} {r : SubmitResult}
    {existing : Option ReceiptRow} {cfg : Config} {β : Type} {p : Body β} {report : SweepReport}
    {s : Sweep} {items : List ItemRow} {d : TimingDecision}

theorem loadLocked_conforms (hnone : ∀ e, m.Reads wid none → Q (.error e) (m.lock wid none))
    (hsome : ∀ row, m.Reads wid (some row) → (Fresh → m.FreshRead (.load wid true) (some row)) → Q
    (.ok row) (m.lock wid (some row))) : Body.Conforms Fresh (load wid true) Q m := by
  refine conforms_do (ask_conforms (o := .load wid true) trivial ?_)
  rintro (_ | row) hr hfresh
  · exact .raise (hnone _ hr)
  · exact .ret (hsome row hr hfresh)

theorem loadKnown_conforms (hrow : m.Has wid row) (h : Q (.ok row) m) :
    Body.Conforms Fresh (load wid false) Q m := by
  refine conforms_do (ask_conforms (o := .load wid false) trivial fun r hr _ ↦ ?_)
  obtain rfl : r = some row := hr.known _ hrow
  exact .ret h

theorem append_conforms {key : String} {Q : Except WorkItemError ℕ → WorkKnown → Prop}
    (hrow : m.Has item.workItemId row) (htype : type ≠ .resultReceived)
    (herr : ∀ e, Q (.error e) { m with refused := some e }) (hok : ∀ n, Q (.ok n) m) :
    Body.Conforms Fresh (append item type actor key payload) Q m := by
  refine conforms_do (ask_conforms ⟨⟨row, hrow⟩, fun h ↦ absurd h htype⟩ ?_)
  rintro (e | n) - -
  · refine orRaise_conforms (fun e' he ↦ ?_) nofun
    cases he
    exact herr e
  · refine orRaise_conforms nofun fun _ _ ↦ ?_
    have hnext : m.next (.append ⟨type, item.workspaceId, item.workItemId, actor, key, payload,
        item.taskId, item.correlationId⟩) (.ok n) = m := if_neg htype
    rw [hnext]
    exact hok _

theorem recordReceipt_conforms {r : NewReceipt}
    {Q : Except WorkItemError (Option ReceiptRow) → WorkKnown → Prop}
    (hrow : m.Has r.workItemId row) (hkind : r.receiptKind ≠ .result)
    (hok : ∀ x : ReceiptRow, Q (.ok (some x)) m) : Body.Conforms Fresh (recordReceipt r) Q m := by
  refine conforms_do (ask_conforms ⟨⟨row, hrow⟩, fun h ↦ absurd h hkind⟩ ?_)
  rintro x ⟨receipt, rfl, -⟩ -
  have hnext : m.next (.insertReceipt r) (some receipt) = m := if_neg hkind
  rw [hnext]
  exact .ret (hok receipt)

theorem setColumns_conforms {Q : Except WorkItemError Unit → WorkKnown → Prop} (hm : m.debt = none)
    (hrow : m.Has wid row) (hlive : row.status ∉ terminalStates)
    (hresult : cols.status ≠ .resultReceived)
    (hwait : cols.status ∈ waitingStates → row.status ∈ waitingStates ∧ cols.ackedAt = none)
    (h : Q (.ok ()) (m.put wid cols now)) :
    Body.Conforms Fresh (ask (.setColumns wid cols now)) Q m :=
  ask_conforms (o := .setColumns wid cols now)
    ⟨row, hrow, hlive, hm.trans (if_neg hresult).symm, hwait⟩ fun _ _ _ ↦ h

theorem requireOwner_conforms {Q : Except WorkItemError Unit → WorkKnown → Prop}
    (herr : ∀ e, item.agentId ≠ agentId → Q (.error e) m)
    (hok : item.agentId = agentId → Q (.ok ()) m) :
    Body.Conforms Fresh (requireOwner item agentId) Q m := by
  rw [requireOwner]
  by_cases h : item.agentId = agentId
  · rw [if_neg (not_not.2 h)]
    exact .ret (hok h)
  · rw [if_pos h]
    exact .raise (herr _ h)

theorem canonicalized_conforms {value : Json}
    {Q : Except WorkItemError (List UInt8) → WorkKnown → Prop}
    (herr : ∀ e, (∀ bytes, canonicalJson value ≠ .ok bytes) → Q (.error e) m)
    (hok : ∀ bytes, canonicalJson value = .ok bytes → Q (.ok bytes) m) :
    Body.Conforms Fresh (canonicalized value) Q m := by
  rw [canonicalized]
  split
  · rename_i bytes h
    exact .ret (hok bytes h)
  · rename_i e h
    refine .raise (herr _ fun bytes hb ↦ ?_)
    rw [h] at hb
    cases hb

/-! ## Changes of state -/

/-- `move` ends with the row that it has written; if it fails, the Event store refused the
Event. -/
theorem move_conforms {receipt : Option NewReceipt} (hm : m.debt = none)
    (hrow : m.Has row.workItemId row) (hlive : row.status ∉ terminalStates)
    (hresult : cols.status ≠ .resultReceived) (hwait : cols.status ∉ waitingStates)
    (hreceipt : ∀ r, receipt = some r → r.workItemId = row.workItemId ∧ r.receiptKind ≠ .result)
    (htype : type ≠ .resultReceived)
    (herr : ∀ e, Q (.error e) { m.put row.workItemId cols now with refused := some e })
    (hok : Q (.ok (row.set cols now)) (m.put row.workItemId cols now)) :
    Body.Conforms Fresh (move row cols now receipt type actor payload) Q m := by
  refine conforms_do (setColumns_conforms hm hrow hlive hresult (fun h ↦ absurd h hwait) ?_)
  have hput := hrow.put cols now
  have hrest : Body.Conforms Fresh (do
      let _ ← append row type actor row.workItemId payload
      load row.workItemId false) Q (m.put row.workItemId cols now) :=
    conforms_do (append_conforms hput htype herr fun _ ↦ loadKnown_conforms hput hok)
  refine conforms_do ?_
  cases receipt with
  | none => exact Prog.Conforms.ret hrest
  | some r =>
    obtain ⟨hid, hkind⟩ := hreceipt r rfl
    have hput' : (m.put row.workItemId cols now).Has r.workItemId (row.set cols now) := by rwa [hid]
    exact conforms_do (recordReceipt_conforms hput' hkind fun _ ↦ Prog.Conforms.ret hrest)

/-- A function that ends with nothing owed, whatever happens. -/
abbrev Body.Pays (Fresh : Prop) (p : Body α) (m : WorkKnown) : Prop :=
  Body.Conforms Fresh p (fun _ m' ↦ m'.debt = none) m

theorem insertNew_pays {r : Enqueue} (hm : m.debt = none) : (insertNew r).Pays Fresh m := by
  refine conforms_do (canonicalized_conforms (fun _ _ ↦ hm) fun bytes _ ↦ ?_)
  rw [bindPost_ok]
  split
  · exact .raise hm
  refine conforms_do (now_conforms fun now ↦ ?_)
  refine conforms_do (ask_conforms (o := .newWorkItemId) trivial fun newId _ _ ↦ ?_)
  refine conforms_do (ask_conforms (o := .insertItem _) ⟨rfl, rfl⟩ ?_)
  rintro (e | ⟨⟩) - -
  · exact conforms_do (orRaise_conforms (fun _ _ ↦ hm) nofun)
  · refine conforms_do (orRaise_conforms nofun fun _ _ ↦ ?_)
    have hrow : ((({ m with time := m.time <|> some now } : WorkKnown).next .newWorkItemId newId).next
        (.insertItem (r.row (r.workItemId.getD newId) now)) (.ok ())).Has (r.workItemId.getD newId)
          (r.row (r.workItemId.getD newId) now) := Function.update_self ..
    refine conforms_do (loadKnown_conforms hrow ?_)
    exact conforms_do (append_conforms hrow (by simp) (fun _ ↦ hm) fun _ ↦ .ret hm)

theorem enqueue_pays {r : Enqueue} (hm : m.debt = none) : (enqueue r).Pays Fresh m := by
  rw [enqueue]
  split
  · exact .raise hm
  split
  · exact .raise hm
  refine conforms_do (ask_conforms (o := .findKey _) trivial fun found _ _ ↦ ?_)
  rw [bindPost_ok]
  split
  · split
    · exact .raise hm
    · exact .ret hm
  · exact insertNew_pays hm

/-! ### Delivery -/

theorem deliver_conforms {Q : Except WorkItemError ℕ → WorkKnown → Prop} (hm : m.debt = none)
    (hrow : m.Has item.workItemId row) (hwait : row.status ∈ waitingStates)
    (hqueued : item.status = .queued) (h : ∀ x m' row', m'.debt = none → (∀ wid' row', m.Has wid'
    row' → row'.status ∈ waitingStates → ∃ row'', m'.Has wid' row'' ∧ row''.status ∈
    waitingStates) → m'.Has item.workItemId row' → Q x m') :
    Body.Conforms Fresh (deliver item actor now detail) Q m := by
  have hlive : row.status ∉ terminalStates := by
    rcases (by simpa [waitingStates] using hwait : row.status = .queued ∨ row.status = .delivered)
      with hs | hs <;> simp [hs, terminalStates]
  have hkeep : ∀ wid' row', m.Has wid' row' → row'.status ∈ waitingStates → ∀ cols,
      cols.status = .delivered → ∃ row'', (m.put item.workItemId cols now).Has wid' row'' ∧
        row''.status ∈ waitingStates := by
    intro wid' row' hrow' hwait' cols hcols
    obtain ⟨row'', hrow'', rfl | rfl⟩ := hrow'.put_of item.workItemId cols now
    · exact ⟨_, hrow'', hwait'⟩
    · refine ⟨_, hrow'', ?_⟩
      rw [ItemRow.set_status, hcols]
      simp [waitingStates]
  refine conforms_do (orRaise_conforms ?_ fun state hstate ↦ ?_)
  · exact fun e _ ↦ h _ m row hm (fun wid' row' h₁ h₂ ↦ ⟨row', h₁, h₂⟩) hrow
  obtain rfl : state = .delivered := by
    have htable := (transition_eq_ok.1 hstate).2
    rw [hqueued] at htable
    by_cases hcount : item.deliveryCount > 0
    · rw [if_pos hcount, if_pos rfl] at htable
      exact (some.inj htable).symm
    · rw [if_neg hcount, if_neg (by simp)] at htable
      exact (some.inj htable).symm
  refine conforms_do (setColumns_conforms hm hrow hlive (by simp) (fun _ ↦ ⟨hwait, rfl⟩) ?_)
  have hput := hrow.put ⟨.delivered, some (item.deliveryCount + 1), some now, none, none, none⟩ now
  refine conforms_do (recordReceipt_conforms hput (by simp) fun _ ↦ ?_)
  exact append_conforms hput (by simp)
    (fun e ↦ h _ _ _ rfl (fun wid' row' h₁ h₂ ↦ hkeep wid' row' h₁ h₂ _ rfl) hput)
    fun n ↦ h _ _ _ rfl (fun wid' row' h₁ h₂ ↦ hkeep wid' row' h₁ h₂ _ rfl) hput

/-- The rows of a poll are known and have not been acknowledged. -/
def WorkKnown.Waiting (m : WorkKnown) (rows : List ItemRow) : Prop :=
  ∀ item ∈ rows, ∃ row, m.Has item.workItemId row ∧ row.status ∈ waitingStates

theorem pollOne_conforms {rows : List ItemRow} (hm : m.debt = none) (hrows : m.Waiting rows)
    (hitem : item ∈ rows) : Body.Conforms Fresh (pollOne actor now item) (fun x m' ↦ match x with
      | .ok _ => m'.debt = none ∧ m'.Waiting rows
      | .error _ => m'.debt = none) m := by
  rw [pollOne]
  split
  · rename_i hqueued
    obtain ⟨row, hrow, hwait⟩ := hrows item hitem
    refine conforms_do (deliver_conforms hm hrow hwait hqueued ?_)
    rintro (e | n) m' row' hm' hkeep hrow'
    · exact hm'
    · refine conforms_do (loadKnown_conforms hrow' (.ret ⟨hm', fun item' hitem' ↦ ?_⟩))
      obtain ⟨row'', hrow'', hwait''⟩ := hrows item' hitem'
      exact hkeep _ _ hrow'' hwait''
  · exact .ret ⟨hm, hrows⟩

theorem poll_pays {maxItems : ℤ} (hm : m.debt = none) :
    (poll agentId actor maxItems).Pays Fresh m := by
  refine conforms_do (ask_conforms (o := .deliverable _ _) trivial fun rows hrows _ ↦ ?_)
  have hwaiting : (m.next (.deliverable agentId (max 1 (min maxItems 100)).toNat) rows).Waiting
      rows := by
    intro item hitem
    -- the first row with this id is the one that is remembered
    obtain ⟨row, hrow⟩ : ∃ row, rows.find? (·.workItemId = item.workItemId) = some row :=
      isSome_iff_exists.1 (List.find?_isSome.2 ⟨item, hitem, by simp⟩)
    refine ⟨row, ?_, hrows row (mem_of_find?_eq_some hrow)⟩
    simp only [WorkKnown.Has, WorkKnown.next, hrow]
  refine conforms_do (now_conforms fun now ↦ ?_)
  refine conforms_do (Prog.conforms_collect
    (I := fun m' ↦ m'.debt = none ∧ m'.Waiting rows) ⟨hm, hwaiting⟩ ?_ fun _ _ hm' ↦ .ret hm'.1)
  intro item hitem m' hm'
  refine (pollOne_conforms hm'.1 hm'.2 hitem).mono ?_
  rintro (e | a) m'' hm''
  · exact hm''
  · exact hm''

theorem markDelivered_pays (hm : m.debt = none) :
    (markDelivered wid actor detail).Pays Fresh m := by
  refine conforms_do (loadLocked_conforms (fun _ _ ↦ hm) fun row hr _ ↦ ?_)
  have hid : row.workItemId = wid := hr.id row rfl
  rw [bindPost_ok]
  split
  · exact .ret hm
  · rename_i hqueued
    replace hqueued : row.status = .queued := not_not.1 hqueued
    refine conforms_do (now_conforms fun now ↦ ?_)
    have hhas : (m.lock wid (some row)).Has row.workItemId row := by
      rw [hid]
      exact WorkKnown.has_lock
    refine conforms_do (deliver_conforms hm hhas ?_ hqueued ?_)
    · simp [hqueued, waitingStates]
    · rintro (e | n) m' row' hm' - hrow'
      · exact hm'
      · rw [hid] at hrow'
        exact conforms_do (loadKnown_conforms hrow' (.ret hm'))

/-! ### Acknowledgement and the ends of an item -/

theorem not_waiting_of_transition (h : transition state action = .ok state')
    (ha : action ∉ [Action.deliver, .redeliver]) : state' ∉ waitingStates := by
  have htable := (transition_eq_ok.1 h).2
  cases state <;> cases action <;> simp [transitions] at htable ha <;>
    simp [← htable, waitingStates]

theorem ne_resultReceived_of_transition (h : transition state action = .ok state')
    (ha : action ≠ .result) : state' ≠ .resultReceived := by
  rintro rfl
  exact ha (transitions_resultReceived.1 (transition_eq_ok.1 h).2).1

theorem ack_conforms (hm : m.debt = none) : Body.Conforms Fresh (ack wid agentId actor)
      (fun _ m' ↦ m'.debt = none ∧ m'.receipts = m.receipts ∧ m'.mine = m.mine) m := by
  refine conforms_do (loadLocked_conforms (fun _ _ ↦ ⟨hm, rfl, rfl⟩) fun row hr _ ↦ ?_)
  obtain rfl : row.workItemId = wid := hr.id row rfl
  refine conforms_do (requireOwner_conforms (fun _ _ ↦ ⟨hm, rfl, rfl⟩) fun _ ↦ ?_)
  rw [bindPost_ok]
  split
  · exact .ret ⟨hm, rfl, rfl⟩
  refine conforms_do (orRaise_conforms (fun _ _ ↦ ⟨hm, rfl, rfl⟩) fun state hstate ↦ ?_)
  refine conforms_do (now_conforms fun now ↦ ?_)
  refine move_conforms hm WorkKnown.has_lock (transition_eq_ok.1 hstate).1
    (ne_resultReceived_of_transition hstate (by simp)) (not_waiting_of_transition hstate (by simp))
    ?_ (by simp) (fun _ ↦ ⟨rfl, rfl, rfl⟩) ⟨rfl, rfl, rfl⟩
  rintro r hr
  obtain rfl := some.inj hr
  exact ⟨rfl, by simp⟩

theorem start_pays (hm : m.debt = none) : (start wid agentId actor).Pays Fresh m := by
  refine conforms_do (loadLocked_conforms (fun _ _ ↦ hm) fun row hr _ ↦ ?_)
  obtain rfl : row.workItemId = wid := hr.id row rfl
  refine conforms_do (requireOwner_conforms (fun _ _ ↦ hm) fun _ ↦ ?_)
  rw [bindPost_ok]
  split
  · exact .ret hm
  refine conforms_do (orRaise_conforms (fun _ _ ↦ hm) fun state hstate ↦ ?_)
  refine conforms_do (now_conforms fun now ↦ ?_)
  refine move_conforms hm WorkKnown.has_lock (transition_eq_ok.1 hstate).1
    (ne_resultReceived_of_transition hstate (by simp)) (not_waiting_of_transition hstate (by simp))
    ?_ (by simp) (fun _ ↦ rfl) rfl
  rintro r hr
  obtain rfl := some.inj hr
  exact ⟨rfl, by simp⟩

theorem reject_pays (hm : m.debt = none) : (reject wid agentId reason actor).Pays Fresh m := by
  rw [reject]
  split
  · exact .raise hm
  refine conforms_do (loadLocked_conforms (fun _ _ ↦ hm) fun row hr _ ↦ ?_)
  obtain rfl : row.workItemId = wid := hr.id row rfl
  refine conforms_do (requireOwner_conforms (fun _ _ ↦ hm) fun _ ↦ ?_)
  refine conforms_do (orRaise_conforms (fun _ _ ↦ hm) fun state hstate ↦ ?_)
  refine conforms_do (now_conforms fun now ↦ ?_)
  refine move_conforms hm WorkKnown.has_lock (transition_eq_ok.1 hstate).1
    (ne_resultReceived_of_transition hstate (by simp)) (not_waiting_of_transition hstate (by simp))
    ?_ (by simp) (fun _ ↦ rfl) rfl
  rintro r hr
  obtain rfl := some.inj hr
  exact ⟨rfl, by simp⟩

theorem close_conforms {reason actor : String} {action : Action} {type : EventType}
    {Q : Except WorkItemError ItemRow → WorkKnown → Prop} (hm : m.debt = none)
    (haction : action ∉ [Action.deliver, .redeliver, .result]) (htype : type ≠ .resultReceived)
    (hnone : ∀ e, m.Reads wid none → Q (.error e) (m.lock wid none))
    (hstay : ∀ row e, m.Reads wid (some row) → (Fresh → m.FreshRead (.load wid true) (some row)) →
        transition row.status action = .error e → Q (.error e) (m.lock wid (some row)))
    (hmove : ∀ row cols now m', m.Reads wid (some row) →
      (Fresh → m.FreshRead (.load wid true) (some row)) → cols.ackedAt = none →
        m' = ({ m.lock wid (some row) with time := m.time <|> some now } : WorkKnown).put wid cols
          now → Q (.ok (row.set cols now)) m' ∧ ∀ e, Q (.error e) { m' with refused := some e }) :
    Body.Conforms Fresh (close wid reason actor action type) Q m := by
  refine conforms_do (loadLocked_conforms hnone fun row hr hfresh ↦ ?_)
  obtain rfl : row.workItemId = wid := hr.id row rfl
  refine conforms_do (orRaise_conforms (hstay row · hr hfresh) fun state hstate ↦ ?_)
  refine conforms_do (now_conforms fun now ↦ ?_)
  have hends := hmove row { status := state, finishedAt := some now } now _ hr hfresh rfl rfl
  simp only [mem_cons, not_or] at haction
  exact move_conforms hm WorkKnown.has_lock (transition_eq_ok.1 hstate).1
    (ne_resultReceived_of_transition hstate haction.2.2.1)
    (not_waiting_of_transition hstate (by simp [haction.1, haction.2.1])) nofun htype hends.2
    hends.1

theorem close_pays (hm : m.debt = none) (haction : action ∉ [Action.deliver, .redeliver, .result])
    (htype : type ≠ .resultReceived) : (close wid reason actor action type).Pays Fresh m := by
  refine close_conforms hm haction htype (fun _ _ ↦ hm) (fun _ _ _ _ _ ↦ hm) ?_
  rintro row cols now m' - - - rfl
  exact ⟨rfl, fun _ ↦ rfl⟩

/-! ### Results -/

theorem duplicate_conforms {Q : Except WorkItemError ResultOutcome → WorkKnown → Prop}
    (hrow : m.Has row.workItemId row) (h : ∀ dup : ReceiptRow, Q (.ok ⟨.duplicateIgnored,
    row.workItemId, ((existing <|> some dup).map (·.receiptId)).getD 0, if firstRef existing = ""
    then ref else firstRef existing, none, row⟩) m) :
    Body.Conforms Fresh (duplicate r row existing ref digest) Q m := by
  refine conforms_do (recordReceipt_conforms hrow (by simp) fun dup ↦ ?_)
  refine conforms_do (ask_conforms (o := .appendAudit _) trivial fun _ _ _ ↦ ?_)
  exact conforms_do (loadKnown_conforms hrow (.ret (h dup)))

theorem auditIdentity_conforms {Q : Except WorkItemError Unit → WorkKnown → Prop}
    (h : Q (.ok ()) m) : Body.Conforms Fresh (auditIdentity r item) Q m := by
  rw [auditIdentity]
  split
  · exact ask_conforms (o := .appendAudit _) trivial fun _ _ _ ↦ h
  · exact .ret h

theorem concludeResult_conforms {receipt : ReceiptRow}
    (hreceipt : receipt.workItemId = r.workItemId) (hrow : m.Has r.workItemId row)
    (hid : row.workItemId = r.workItemId) (hlive : row.status ∉ terminalStates) :
    Body.Conforms Fresh (concludeResult r row .resultReceived status receipt ref)
      (fun _ m' ↦ m'.debt = none ∧ m'.receipts = (m.receive receipt).receipts ∧
        m'.mine = (m.receive receipt).mine) (m.receive receipt) := by
  obtain ⟨wid, agentId, payload, actor⟩ := r
  obtain rfl : row.workItemId = wid := hid
  refine conforms_do (now_conforms fun now ↦ ?_)
  refine conforms_do (ask_conforms
    (o := .setColumns row.workItemId { status := .resultReceived, finishedAt := some now } now)
    ⟨row, hrow, hlive, congrArg some hreceipt, fun h ↦ absurd h (by simp [waitingStates])⟩ ?_)
  rintro ⟨⟩ - -
  have hput : (({ m.receive receipt with
      time := (m.receive receipt).time <|> some now } : WorkKnown).put row.workItemId
        { status := .resultReceived, finishedAt := some now } now).Has row.workItemId
          (row.set { status := .resultReceived, finishedAt := some now } now) :=
    WorkKnown.Has.put hrow _ now
  refine conforms_do (conforms_do (ask_conforms
    ⟨⟨_, hput⟩, fun _ ↦ ⟨rfl, congrArg some hreceipt⟩⟩ ?_))
  rintro (e | n) - -
  · exact orRaise_conforms (fun _ _ ↦ ⟨rfl, rfl, rfl⟩) nofun
  · refine orRaise_conforms nofun fun _ _ ↦ ?_
    have hput' : (({ ({ m.receive receipt with
        time := (m.receive receipt).time <|> some now } : WorkKnown).put row.workItemId
          { status := .resultReceived, finishedAt := some now } now with
            unsent := none } : WorkKnown)).Has row.workItemId
              (row.set { status := .resultReceived, finishedAt := some now } now) := hput
    refine conforms_do (auditIdentity_conforms ?_)
    exact conforms_do (loadKnown_conforms hput' (.ret ⟨rfl, rfl, rfl⟩))

theorem recordResult_conforms (hm : m.debt = none) (hbare : m.receipts r.workItemId = some none)
    (hrow : m.Has r.workItemId row) (hid : row.workItemId = r.workItemId)
    (hstate : transition row.status .result = .ok state) (href : ref ≠ "") :
    Body.Conforms Fresh (recordResult r row state status ref digest)
      (fun _ m' ↦ m'.debt = none ∧ ∃ rr ∈ m'.mine, m'.receipts r.workItemId = some (some rr)) m := by
  obtain ⟨hlive, htable⟩ := transition_eq_ok.1 hstate
  obtain rfl : state = .resultReceived := by
    revert htable hlive
    generalize row.status = current
    cases current <;> simp [transitions, eq_comm]
  refine conforms_do (conforms_do (ask_conforms ⟨⟨row, hrow⟩, fun _ ↦
    ⟨hm, hbare, fun row' hrow' ↦ hrow.inj hrow' ▸ hlive, ref, rfl, href⟩⟩ ?_))
  rintro x ⟨receipt, rfl, hnew⟩ -
  refine Prog.Conforms.ret ?_
  have hreceipt : receipt.workItemId = r.workItemId := by rw [hnew]
  refine (concludeResult_conforms hreceipt hrow hid hlive).mono ?_
  rintro - m' ⟨hdebt, hreceipts, hmine⟩
  refine ⟨hdebt, receipt, ?_, ?_⟩
  · rw [hmine]
    exact mem_cons_self
  · rw [hreceipts, ← hreceipt]
    exact Function.update_self ..

theorem impliedAck_conforms (hm : m.debt = none) (hrow : m.Has r.workItemId row)
    (hid : row.workItemId = r.workItemId) :
    Body.Conforms Fresh (impliedAck r row) (fun x m' ↦ m'.debt = none ∧
      m'.receipts = m.receipts ∧ ∀ row', x = .ok row' →
        m'.Has r.workItemId row' ∧ row'.workItemId = r.workItemId) m := by
  rw [impliedAck]
  split
  · refine conforms_do ((ack_conforms hm).mono ?_)
    rintro (e | row') m' ⟨hdebt, hreceipts, -⟩
    · refine ⟨hdebt, hreceipts, fun row' h ↦ ?_⟩
      cases h
    rw [bindPost_ok]
    refine loadLocked_conforms ?_ ?_
    · intro e _
      refine ⟨hdebt, hreceipts, fun row' h ↦ ?_⟩
      cases h
    · intro row'' hr _
      refine ⟨hdebt, hreceipts, fun row₃ h₃ ↦ ?_⟩
      obtain rfl := Except.ok.inj h₃
      exact ⟨WorkKnown.has_lock, hr.id _ rfl⟩
  · refine .ret ⟨hm, rfl, fun row' h ↦ ?_⟩
    obtain rfl := Except.ok.inj h
    exact ⟨hrow, hid⟩

/-- An item without a result: whatever happens, either it still has none or it has the one that
this call has inserted. -/
theorem acceptResult_conforms (hm : m.debt = none) (hbare : m.receipts r.workItemId = some none)
    (hrow : m.Has r.workItemId row) (hid : row.workItemId = r.workItemId) (href : ref ≠ "") :
    Body.Conforms Fresh (acceptResult r row ref digest) (fun _ m' ↦ m'.debt = none ∧
      (m'.receipts r.workItemId = some none ∨
        ∃ rr ∈ m'.mine, m'.receipts r.workItemId = some (some rr))) m := by
  refine conforms_do ((impliedAck_conforms hm hrow hid).mono ?_)
  rintro (e | item) m' ⟨hdebt, hreceipts, hitem⟩
  · exact ⟨hdebt, .inl (hreceipts ▸ hbare)⟩
  obtain ⟨hitem, hid'⟩ := hitem item rfl
  have hbare' : m'.receipts r.workItemId = some none := hreceipts ▸ hbare
  refine conforms_do (orRaise_conforms (fun _ _ ↦ ⟨hdebt, .inl hbare'⟩) fun state hstate ↦ ?_)
  refine conforms_do ?_
  rw [statusOf]
  split
  · rename_i status _
    refine Prog.Conforms.ret ?_
    rw [bindPost_ok]
    exact (recordResult_conforms hdebt hbare' hitem hid' hstate href).mono
      fun _ _ h ↦ ⟨h.1, Or.inr h.2⟩
  · exact .raise ⟨hdebt, .inl hbare'⟩

theorem resultRef_ne_empty (digest : String) : resultRef wid digest ≠ "" := by
  intro h
  have hlen := congrArg String.length h
  simp [resultRef] at hlen

theorem wellFormed_conforms {Q : Except WorkItemError β → WorkKnown → Prop}
    (herr : ∀ e, ¬r.WellFormed cfg → Q (.error e) m) (hok : ((∃ bytes, canonicalJson
    r.payload.json = .ok bytes) → r.WellFormed cfg) → p.Conforms Fresh Q m) :
    Body.Conforms Fresh (do
      validated cfg r.payload
      namesItem r.payload r.workItemId
      p) Q m := by
  have hnamed : cfg.validate r.payload = none → Body.Conforms Fresh (do
      namesItem r.payload r.workItemId
      p) Q m := by
    intro hvalid
    refine conforms_do ?_
    rw [namesItem]
    split
    · rename_i h
      refine .raise (herr _ fun hw ↦ ?_)
      obtain ⟨w', hw', -⟩ := hw.named
      rw [h] at hw'
      cases hw'
    · rename_i w h
      split
      · rename_i hne
        refine .raise (herr _ fun hw ↦ ?_)
        obtain ⟨w', hw', hid⟩ := hw.named
        rw [h] at hw'
        simp only [some.injEq, Json.str.injEq] at hw'
        exact hne (hw'.trans hid)
      · rename_i heq
        exact Prog.Conforms.ret (hok fun hbytes ↦ ⟨hvalid, ⟨w, h, not_not.1 heq⟩, hbytes⟩)
    · rename_i v hne h
      refine .raise (herr _ fun hw ↦ ?_)
      obtain ⟨w', hw', -⟩ := hw.named
      rw [h] at hw'
      exact hne w' (some.inj hw')
  refine conforms_do ?_
  rw [validated]
  split
  · rename_i e h
    refine .raise (herr e fun hw ↦ ?_)
    rw [hw.valid] at h
    cases h
  · rename_i h
    exact Prog.Conforms.ret (hnamed h)

theorem decided_conforms (hm : m.debt = none) (huntouched : m.touched = false)
    (hw : r.WellFormed cfg) (hrow : m.Has r.workItemId row) (hid : row.workItemId = r.workItemId)
    (howner : row.agentId = r.agentId) (hexisting : m.receipts r.workItemId = some existing)
    (hnamed : ∀ rr, existing = some rr → ∃ ref, rr.resultRef = some ref ∧ ref ≠ "")
    (href : ref ≠ "") : Body.Conforms Fresh
      (if existing.isSome ∨ row.status ∈ terminalStates then duplicate r row existing ref digest
        else acceptResult r row ref digest)
      (fun x m' ↦ m'.debt = none ∧ m'.Resulted cfg r (x.map .result)) m := by
  by_cases hdup : existing.isSome ∨ row.status ∈ terminalStates
  · rw [if_pos hdup]
    refine duplicate_conforms (hid ▸ hrow) fun dup ↦ ⟨hm, ?_⟩
    cases existing with
    | none => exact .first (.inl hexisting)
    | some rr =>
      obtain ⟨first, hfirst, hne⟩ := hnamed rr rfl
      have hfirstRef : firstRef (some rr) = first := by simp [firstRef, hfirst]
      rw [hfirstRef, if_neg hne, hid]
      exact .duplicate hw hrow howner hexisting hfirst huntouched
  · rw [if_neg hdup]
    obtain rfl : existing = none := by simpa using (not_or.1 hdup).1
    exact (acceptResult_conforms hm hexisting hrow hid href).mono
      fun x m' h ↦ ⟨h.1, .first h.2⟩

theorem result_conforms (hm : m.debt = none) (huntouched : m.touched = false) :
    Body.Conforms Fresh (result cfg r)
      (fun x m' ↦ m'.debt = none ∧ m'.Resulted cfg r (x.map .result)) m := by
  refine wellFormed_conforms (fun e he ↦ ⟨hm, .malformed he huntouched⟩) fun hw ↦ ?_
  refine conforms_do (loadLocked_conforms ?_ fun row hr _ ↦ ?_)
  · exact fun e _ ↦ ⟨hm, .absent WorkKnown.rows_lock_self huntouched⟩
  have hid : row.workItemId = r.workItemId := hr.id row rfl
  refine conforms_do (requireOwner_conforms ?_ fun howner ↦ ?_)
  · exact fun e hne ↦ ⟨hm, .stranger WorkKnown.has_lock hne huntouched⟩
  refine conforms_do (canonicalized_conforms ?_ fun bytes hbytes ↦ ?_)
  · refine fun e hbytes ↦ ⟨hm, .malformed (fun hw ↦ ?_) huntouched⟩
    obtain ⟨bytes, hb⟩ := hw.canonical
    exact hbytes bytes hb
  refine conforms_do (ask_conforms (o := .resultReceipt _) ⟨row, WorkKnown.has_lock⟩
    fun existing hnamed _ ↦ ?_)
  exact decided_conforms hm huntouched (hw ⟨bytes, hbytes⟩) WorkKnown.has_lock hid howner (Function.update_self ..) hnamed
    (resultRef_ne_empty _)

/-! ### The sweep -/

/-- A decision that is about a missing acknowledgement. -/
def ForAckTimeout : Except WorkItemError TimingDecision → Prop
  | .ok d => d.action = .redeliver ∨ (d.action = .expire ∧ expiryReason d = "ACK_TIMEOUT")
  | .error _ => False

theorem mem_forAckTimeout_record {d : Except WorkItemError TimingDecision}
    (h : wid ∈ (report.record item d).forAckTimeout) :
    wid ∈ report.forAckTimeout ∨ (wid = item.workItemId ∧ ForAckTimeout d) := by
  cases d with
  | error => exact .inl h
  | ok d =>
    simp only [SweepReport.record] at h
    cases hd : d.action with
    | redeliver =>
      simp only [hd, SweepReport.forAckTimeout, map_append, mem_append] at h ⊢
      rcases h with (h | h) | h
      · exact .inl (.inl h)
      · exact .inr ⟨by simpa using h, .inl hd⟩
      · exact .inl (.inr h)
    | expire =>
      simp only [hd, SweepReport.forAckTimeout, filter_append, map_append, mem_append] at h ⊢
      rcases h with h | h | h
      · exact .inl (.inl h)
      · exact .inl (.inr h)
      · by_cases hreason : expiryReason d = "ACK_TIMEOUT"
        · exact .inr ⟨by simpa [hreason] using h, .inr ⟨hd, hreason⟩⟩
        · simp [hreason] at h
    | none | reroute | waiting =>
      simp only [hd] at h
      exact .inl h

/-- What the sweep keeps while it goes through its batch: the batch itself, nothing owed, and every
row that it knows to have no acknowledgement. -/
structure WorkKnown.Continues (m m' : WorkKnown) : Prop where
  paid : m'.debt = none
  sweep : m'.sweep = m.sweep
  time : ∀ t, m.time = some t → m'.time = some t
  batch : m'.batch = m.batch
  unacked : ∀ wid row, m.Has wid row → row.ackedAt = none →
    ∃ row', m'.Has wid row' ∧ row'.ackedAt = none

theorem WorkKnown.Continues.refl (hm : m.debt = none) : m.Continues m :=
  ⟨hm, rfl, fun _ h ↦ h, rfl, fun _ row h₁ h₂ ↦ ⟨row, h₁, h₂⟩⟩

theorem WorkKnown.Continues.put (hr : m.Reads wid (some row)) (hcols : cols.ackedAt = none)
    {time : Option Time} (htime : ∀ t, m.time = some t → time = some t) :
    m.Continues (({ m.lock wid (some row) with time := time } : WorkKnown).put wid cols now) where
  paid := rfl
  sweep := rfl
  time := htime
  batch := rfl
  unacked wid' row' h₁ h₂ := by
    have hlock : ({ m.lock wid (some row) with time := time } : WorkKnown).Has wid' row' := by
      by_cases hwid : wid' = wid
      · subst hwid
        exact rows_lock_self.trans (congrArg some (hr.known _ h₁))
      · exact (rows_lock_of_ne hwid).trans h₁
    obtain ⟨row'', hrow'', rfl | rfl⟩ := hlock.put_of wid cols now
    · exact ⟨_, hrow'', h₂⟩
    · refine ⟨_, hrow'', ?_⟩
      rw [ItemRow.set_ackedAt, hcols, h₂]
      rfl

structure WorkKnown.Sweeping (m : WorkKnown) (s : Sweep) (now : Time) (items : List ItemRow) :
    Prop where
  paid : m.debt = none
  sweep : m.sweep = some s
  time : m.time = some now
  batch : m.batch = some items

theorem WorkKnown.Sweeping.continues {m' : WorkKnown} (h : m.Sweeping s now items)
    (h' : m.Continues m') : m'.Sweeping s now items :=
  ⟨h'.paid, h'.sweep.trans h.sweep, h'.time _ h.time, h'.batch.trans h.batch⟩

/-- How the sweep leaves one item: it goes on, and if the decision was about a missing
acknowledgement, the item has none; or the Event store has refused the Event. -/
def Performed (Fresh : Prop) (m : WorkKnown) (item : ItemRow)
    (d : Except WorkItemError TimingDecision) : Except WorkItemError Unit → WorkKnown → Prop
  | .ok _, m' => m.Continues m' ∧
      (Fresh → ForAckTimeout d → ∃ row, m'.Has item.workItemId row ∧ row.ackedAt = none)
  | .error e, m' => m'.debt = none ∧ (Fresh → m'.refused = some e)

theorem WorkKnown.time_first {t t' : Time} (h : m.time = some t') :
    (m.time <|> some t) = some t' := by
  rw [h]
  rfl

theorem requeue_conforms (h : m.Sweeping s now items) (hitem : item ∈ items)
    (hd : s.decision now item = .ok d) (haction : d.action = .redeliver) : Body.Conforms Fresh (do
      let _ ← requeueForRedelivery item.workItemId) (Performed Fresh m item (.ok d)) m := by
  refine conforms_do (conforms_do (loadLocked_conforms ?_ fun row hr hfresh ↦ ?_))
  · exact fun e hr ↦ absurd rfl (hr.there items h.batch item hitem rfl)
  have hstatus : Fresh → row.status = .delivered := by
    intro hF
    simpa only [hd, Stands, haction] using
      hfresh hF s now items item h.sweep h.time h.batch hitem rfl
  refine conforms_do (orRaise_conforms ?_ fun state hstate ↦ ?_)
  · refine fun e he ↦ ⟨h.paid, fun hF ↦ ?_⟩
    rw [hstatus hF] at he
    cases he
  have hdelivered : row.status = .delivered := by
    obtain ⟨-, htable⟩ := transition_eq_ok.1 hstate
    revert htable
    cases row.status <;> simp [transitions]
  have hwait : row.status ∈ waitingStates := by simp [hdelivered, waitingStates]
  refine conforms_do (now_conforms fun t ↦ ?_)
  refine conforms_do (setColumns_conforms h.paid WorkKnown.has_lock
    (transition_eq_ok.1 hstate).1 (by simp) (fun _ ↦ ⟨hwait, rfl⟩) ?_)
  have hlock : ({ m.lock item.workItemId (some row) with
      time := m.time <|> some t } : WorkKnown).Has item.workItemId row := WorkKnown.has_lock
  have hput := hlock.put { status := .queued } t
  refine loadKnown_conforms hput (.ret ⟨.put hr rfl fun _ ↦ WorkKnown.time_first, fun _ _ ↦ ?_⟩)
  refine ⟨_, hput, ?_⟩
  rw [ItemRow.set_ackedAt]
  exact hr.unacked row rfl hwait

theorem expire_conforms (h : m.Sweeping s now items) (hitem : item ∈ items)
    (hd : s.decision now item = .ok d) (haction : d.action = .expire) : Body.Conforms Fresh (do
      let _ ← expire item.workItemId (expiryReason d) actor) (Performed Fresh m item (.ok d)) m := by
  have hstands : ∀ row, (Fresh → m.FreshRead (.load item.workItemId true) (some row)) → Fresh →
      if d.reason = "DEADLINE_EXCEEDED" then row.status ∉ terminalStates
        else row.status ∈ waitingStates := by
    intro row hfresh hF
    simpa only [hd, Stands, haction] using
      hfresh hF s now items item h.sweep h.time h.batch hitem rfl
  refine conforms_do (close_conforms h.paid (by simp) (by simp) ?_ ?_ ?_)
  · exact fun e hr ↦ absurd rfl (hr.there items h.batch item hitem rfl)
  · refine fun row e hr hfresh he ↦ ⟨h.paid, fun hF ↦ ?_⟩
    have hopen : row.status ∉ terminalStates := by
      have hst := hstands row hfresh hF
      split at hst
      · exact hst
      · rcases (by simpa [waitingStates] using hst :
          row.status = .queued ∨ row.status = .delivered) with hs | hs <;>
          simp [hs, terminalStates]
    rw [transition_expire hopen] at he
    cases he
  · rintro row cols t m' hr hfresh hcols rfl
    refine ⟨.ret ⟨.put hr hcols fun _ ↦ WorkKnown.time_first, fun hF hfor ↦ ?_⟩,
      fun e ↦ ⟨rfl, fun _ ↦ rfl⟩⟩
    refine ⟨_, WorkKnown.Has.put WorkKnown.has_lock _ _, ?_⟩
    have hreason : d.reason ≠ "DEADLINE_EXCEEDED" := by
      intro hreason
      rcases hfor with hfor | ⟨-, hfor⟩
      · rw [haction] at hfor
        cases hfor
      · simp [expiryReason, hreason] at hfor
    have hwait : row.status ∈ waitingStates := by
      simpa only [if_neg hreason] using hstands row hfresh hF
    rw [ItemRow.set_ackedAt, hcols]
    exact hr.unacked row rfl hwait

theorem perform_conforms (h : m.Sweeping s now items) (hitem : item ∈ items) :
    Body.Conforms Fresh (s.perform item (s.decision now item))
      (Performed Fresh m item (s.decision now item)) m := by
  have hnothing : ∀ d, ¬ForAckTimeout d →
      Body.Conforms Fresh (return ()) (Performed Fresh m item d) m := fun d hd ↦
    .ret ⟨.refl h.paid, fun _ hfor ↦ absurd hfor hd⟩
  obtain ⟨d, hd⟩ : ∃ d, s.decision now item = d := ⟨_, rfl⟩
  rw [hd]
  cases d with
  | error => exact hnothing _ id
  | ok d =>
    rw [Sweep.perform]
    split
    · rename_i haction
      exact requeue_conforms h hitem hd haction
    · rename_i haction
      exact expire_conforms h hitem hd haction
    · rename_i hredeliver hexpire
      exact hnothing _ fun hfor ↦ hfor.elim hredeliver fun hfor ↦ hexpire hfor.1

/-- **The loop of the sweep**, from any report and any rest of the batch. -/
theorem each_conforms {rest : List ItemRow} (h : m.Sweeping s now items)
    (hrest : ∀ item ∈ rest, item ∈ items)
    (hreport : Fresh → ∀ wid ∈ report.forAckTimeout, ∃ row, m.Has wid row ∧ row.ackedAt = none) :
    Body.Conforms Fresh (s.each now report rest) (fun x m' ↦ match x with
      | .ok report' => m'.Sweeping s now items ∧
          report' = rest.foldl (fun r item ↦ r.record item (s.decision now item)) report ∧
          (Fresh → ∀ wid ∈ report'.forAckTimeout, ∃ row, m'.Has wid row ∧ row.ackedAt = none)
      | .error e => m'.debt = none ∧ (Fresh → m'.refused = some e)) m := by
  induction rest generalizing m report with
  | nil => exact .ret ⟨h, rfl, hreport⟩
  | cons item _ ih =>
    refine conforms_do ((perform_conforms h (hrest item mem_cons_self)).mono ?_)
    rintro (e | ⟨⟩) m' hm'
    · exact hm'
    obtain ⟨hcont, hitem⟩ := hm'
    refine ih (h.continues hcont) (fun item' hitem' ↦ hrest item' (mem_cons_of_mem _ hitem'))
      fun hF wid hwid ↦ ?_
    rcases mem_forAckTimeout_record hwid with hwid | ⟨rfl, hfor⟩
    · obtain ⟨row, hrow, hacked⟩ := hreport hF wid hwid
      exact hcont.unacked wid row hrow hacked
    · exact hitem hF hfor

theorem sweep_conforms (hm : m.debt = none) (hsweep : m.sweep = some s) (htime : m.time = none)
    (hbatch : m.batch = none) : Body.Conforms Fresh (sweep s)
      (fun x m' ↦ m'.debt = none ∧ m'.Swept Fresh s (x.map .swept)) m := by
  refine conforms_do (now_conforms fun now ↦ ?_)
  refine conforms_do (ask_conforms (o := .openItems _ _) trivial fun items _ _ ↦ ?_)
  have hsweeping : (({ m with time := m.time <|> some now } : WorkKnown).next
      (.openItems s.agentId s.workspaceId) items).Sweeping s now items := by
    refine ⟨hm, hsweep, ?_, ?_⟩
    · change (m.time <|> some now) = some now
      rw [htime]
      rfl
    · change (m.batch <|> some items) = some items
      rw [hbatch]
      rfl
  refine (each_conforms hsweeping (fun _ h ↦ h) fun _ wid hwid ↦ ?_).mono ?_
  · simp [SweepReport.forAckTimeout] at hwid
  rintro (e | report) m' hm'
  · refine ⟨hm'.1, fun e' he hF ↦ ?_, fun a ha ↦ ?_⟩
    · cases he
      exact hm'.2 hF
    · cases ha
  · obtain ⟨hsw, rfl, hacked⟩ := hm'
    refine ⟨hsw.paid, fun e' he ↦ ?_, fun a ha ↦ ?_⟩
    · cases he
    · obtain rfl := Except.ok.inj ha
      exact ⟨now, items, hsw.time, hsw.batch, rfl, hacked⟩

/-! ## The protocol -/

def WorkKnown.initial : WorkCall → WorkKnown
  | .sweep s => { sweep := some s }
  | _ => {}

/-- A call other than `result` and `sweep` owes only that it pays. -/
theorem ends_of_pays {call : WorkCall} {f : β → Answer} (hresult : ∀ r, call ≠ .result r)
    (hsweep : ∀ s, call ≠ .sweep s) (hp : p.Pays Fresh m) :
    Body.Conforms Fresh (p >>= fun b ↦ pure (f b)) (fun x m' ↦ m'.Ends cfg Fresh call x) m := by
  have hends : ∀ x (m' : WorkKnown), m'.debt = none → m'.Ends cfg Fresh call x := fun x m' h ↦
    ⟨h, fun r hr ↦ absurd hr (hresult r), fun s hs ↦ absurd hs (hsweep s)⟩
  refine conforms_do (hp.mono ?_)
  rintro (e | b) m' hm'
  · exact hends _ _ hm'
  · exact .ret (hends _ _ hm')

theorem workBody_conforms (cfg : Config) (Fresh : Prop) (call : WorkCall) :
    Body.Conforms Fresh (workBody cfg call) (fun x m' ↦ m'.Ends cfg Fresh call x)
      (WorkKnown.initial call) := by
  cases call with
  | enqueue => exact ends_of_pays nofun nofun (enqueue_pays rfl)
  | poll => exact ends_of_pays nofun nofun (poll_pays rfl)
  | markDelivered => exact ends_of_pays nofun nofun (markDelivered_pays rfl)
  | ack =>
    exact ends_of_pays nofun nofun ((ack_conforms rfl).mono fun _ _ h ↦ h.1)
  | start => exact ends_of_pays nofun nofun (start_pays rfl)
  | reject => exact ends_of_pays nofun nofun (reject_pays rfl)
  | cancel | expire =>
    exact ends_of_pays nofun nofun (close_pays rfl (by simp) (by simp))
  | result =>
    refine conforms_do ((result_conforms rfl rfl).mono ?_)
    rintro (e | b) m' ⟨hpaid, hresult⟩
    · refine ⟨hpaid, fun r' hr ↦ ?_, nofun⟩
      cases hr
      exact hresult
    · refine .ret ⟨hpaid, fun r' hr ↦ ?_, nofun⟩
      cases hr
      exact hresult
  | sweep =>
    refine conforms_do ((sweep_conforms rfl rfl rfl rfl).mono ?_)
    rintro (e | b) m' ⟨hpaid, hswept⟩
    · refine ⟨hpaid, nofun, fun s' hs ↦ ?_⟩
      cases hs
      exact hswept
    · refine .ret ⟨hpaid, nofun, fun s' hs ↦ ?_⟩
      cases hs
      exact hswept

/-- The protocol of the inbox, with or without the assumption that the sweep reads fresh rows. -/
def workProtocol (cfg : Config) (Fresh : Prop) : System.Protocol (workSystem cfg) WorkKnown where
  monitor := workMonitor Fresh
  start := WorkKnown.initial
  finish call x m := m.Ends cfg Fresh call x
  conforms call := workBody_conforms cfg Fresh call

end Conformance

end AgentColab.Work
