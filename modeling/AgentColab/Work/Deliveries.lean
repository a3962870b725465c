import AgentColab.Work.Changes
import AgentColab.Work.Timeouts

/-!
# The deliveries of an item are counted

A poll raises the count and records a receipt, the sweep re-queues while the count is small, and
nothing sets the count back. An item waits in `QUEUED` with at most as many deliveries as it may be
delivered again, so one poll more is the most that can follow.
-/

namespace AgentColab.Work

open Transaction Database List Option
open Function (update_of_ne update_self)

variable {cfg : Config} {db db' : WorkTables} {n : ℕ}

def WorkTables.deliveries (db : WorkTables) (wid : String) : List ReceiptRow :=
  db.receipts.filter fun r ↦ r.workItemId = wid ∧ r.receiptKind = .delivery

/-- How many deliveries an item can have had. -/
def deliveryLimit (status : WorkItemState) : ℕ :=
  if status = .queued then maxRedeliveries else maxRedeliveries + 1

theorem deliveryLimit_of_ne {status : WorkItemState} (h : status ≠ .queued) :
    deliveryLimit status = maxRedeliveries + 1 := if_neg h

theorem le_deliveryLimit (status : WorkItemState) : maxRedeliveries ≤ deliveryLimit status := by
  rw [deliveryLimit]
  split <;> omega

theorem deliveryLimit_le (status : WorkItemState) : deliveryLimit status ≤ maxRedeliveries + 1 := by
  rw [deliveryLimit]
  split <;> omega

/-- The counts are right, and they are bounded. -/
structure Counted (db : WorkTables) : Prop where
  counted : ∀ wid row, db.item wid = some row → row.deliveryCount = (db.deliveries wid).length
  absent : ∀ wid, db.item wid = none → db.deliveries wid = []
  bounded : ∀ wid row, db.item wid = some row → row.deliveryCount ≤ deliveryLimit row.status

theorem transition_ne_queued {state state' : WorkItemState} {action : Action}
    (h : transition state action = .ok state') : state' ≠ .queued := by
  rintro rfl
  have hstates := (transition_eq_ok.1 h).2
  revert hstates
  cases state <;> cases action <;> simp [transitions]

section Turns

variable {item item' : ItemRow} {receipts : List ReceiptRow} {events : List Event}

theorem Turn.deliveries (h : Turn db item item' receipts events db') (wid : String) :
    db'.deliveries wid = db.deliveries wid ++
      receipts.filter fun r ↦ r.workItemId = wid ∧ r.receiptKind = .delivery := by
  rw [WorkTables.deliveries, h.receipts, filter_append]
  rfl

variable {kinds : List ReceiptKind}

theorem Counted.turn (hdb : Counted db) (h : Turn db item item' receipts events db')
    (hown : Of item kinds receipts) (hcount : item'.deliveryCount = item.deliveryCount +
    (receipts.filter fun r ↦ r.receiptKind = .delivery).length)
    (hbound : item'.deliveryCount ≤ deliveryLimit item'.status) : Counted db' := by
  have hothers : ∀ wid, wid ≠ item.workItemId → db'.deliveries wid = db.deliveries wid := by
    intro wid hwid
    rw [h.deliveries, filter_eq_nil_iff.2, append_nil]
    intro r hr
    simp [(hown r hr).1, hwid.symm]
  refine ⟨fun wid row hrow ↦ ?_, fun wid hnone ↦ ?_, fun wid row hrow ↦ ?_⟩
  · rw [h.items] at hrow
    by_cases hwid : wid = item.workItemId
    · subst hwid
      rw [update_self] at hrow
      obtain rfl := some.inj hrow
      rw [hcount, hdb.counted _ item h.found, h.deliveries, length_append]
      congr 2
      refine filter_congr fun r hr ↦ ?_
      simp [(hown r hr).1]
    · rw [update_of_ne hwid] at hrow
      rw [hothers wid hwid]
      exact hdb.counted wid row hrow
  · rw [h.items] at hnone
    by_cases hwid : wid = item.workItemId
    · simp [hwid] at hnone
    · rw [update_of_ne hwid] at hnone
      rw [hothers wid hwid]
      exact hdb.absent wid hnone
  · rw [h.items] at hrow
    by_cases hwid : wid = item.workItemId
    · subst hwid
      rw [update_self] at hrow
      obtain rfl := some.inj hrow
      exact hbound
    · rw [update_of_ne hwid] at hrow
      exact hdb.bounded wid row hrow

theorem Counted.undelivered (hdb : Counted db) (h : Turn db item item' receipts events db')
    (hown : Of item kinds receipts) (hkinds : .delivery ∉ kinds)
    (hcount : item'.deliveryCount = item.deliveryCount)
    (hbound : item'.deliveryCount ≤ deliveryLimit item'.status) : Counted db' := by
  refine hdb.turn h hown ?_ hbound
  rw [hcount, filter_eq_nil_iff.2]
  · rfl
  · intro r hr hdelivery
    exact hkinds (of_decide_eq_true hdelivery ▸ (hown r hr).2)

end Turns

theorem Counted.created (hdb : Counted db) {row : ItemRow} (fresh : db.item row.workItemId = none)
    (zero : row.deliveryCount = 0)
    (items : db'.item = Function.update db.item row.workItemId (some row))
    (receipts : db'.receipts = db.receipts) : Counted db' := by
  have hsame : ∀ wid, db'.deliveries wid = db.deliveries wid := fun wid ↦ by
    rw [WorkTables.deliveries, receipts]
    rfl
  refine ⟨fun wid row' hrow' ↦ ?_, fun wid hnone ↦ ?_, fun wid row' hrow' ↦ ?_⟩
  · rw [hsame]
    rw [items] at hrow'
    by_cases hwid : wid = row.workItemId
    · subst hwid
      rw [update_self] at hrow'
      rw [← some.inj hrow', zero, hdb.absent _ fresh]
      rfl
    · rw [update_of_ne hwid] at hrow'
      exact hdb.counted wid row' hrow'
  · rw [hsame]
    rw [items] at hnone
    by_cases hwid : wid = row.workItemId
    · simp [hwid] at hnone
    · rw [update_of_ne hwid] at hnone
      exact hdb.absent wid hnone
  · rw [items] at hrow'
    by_cases hwid : wid = row.workItemId
    · subst hwid
      rw [update_self] at hrow'
      rw [← some.inj hrow', zero]
      exact Nat.zero_le _
    · rw [update_of_ne hwid] at hrow'
      exact hdb.bounded wid row' hrow'

theorem Counted.change (hdb : Counted db) (h : Change db db') : Counted db' := by
  cases h with
  | created _ _ fresh _ zero _ items receipts =>
    exact hdb.created fresh zero items receipts
  | delivered item _ r _ waiting receipt _ turn =>
    have hfew := hdb.bounded _ item turn.found
    rw [waiting, deliveryLimit, if_pos rfl] at hfew
    refine hdb.turn turn receipt ?_ (Nat.succ_le_succ hfew)
    have hdelivery := (receipt r (mem_singleton_self r)).2
    rw [mem_singleton] at hdelivery
    simp [ItemRow.set, deliveredColumns, hdelivery]
  | moved item cols now _ _ _ _ _ legal _ uncounted own _ _ _ turn =>
    have hcount : (item.set cols now).deliveryCount = item.deliveryCount := by
      rw [ItemRow.set, uncounted]
      rfl
    refine hdb.undelivered turn own (by decide) hcount ?_
    rw [hcount, ItemRow.set_status, deliveryLimit_of_ne (transition_ne_queued legal)]
    exact (hdb.bounded _ item turn.found).trans (deliveryLimit_le _)
  | requeued item _ _ few turn =>
    have hown : Of item [] [] := fun r hr ↦ absurd hr not_mem_nil
    exact hdb.undelivered turn hown (by decide) rfl (few.trans (le_deliveryLimit _))
  | answered item _ r _ _ _ _ receipt _ turn =>
    refine hdb.undelivered turn receipt (by decide) rfl ?_
    exact (hdb.bounded _ item turn.found).trans (deliveryLimit_le _)
  | ignored item _ own turn =>
    exact hdb.undelivered turn own (by decide) rfl (hdb.bounded _ item turn.found)

/-- **The delivery count is honest and bounded.** After any sequence of calls of the inbox, the
count of an item is the number of its delivery receipts, and it never exceeds one plus the number of
redeliveries. -/
theorem delivery_count_honest {m : ℕ}
    (h : workDatabase.History (workBody cfg) (fun _ _ _ _ ↦ True) {} m db n) {wid : String}
    {row : ItemRow} (hrow : db.item wid = some row) :
    row.deliveryCount = (db.deliveries wid).length ∧ row.deliveryCount ≤ 1 + maxRedeliveries := by
  have hempty : Counted {} := by
    refine ⟨fun _ _ hrow ↦ ?_, fun _ _ ↦ rfl, fun _ _ hrow ↦ ?_⟩
    all_goals cases hrow
  obtain ⟨-, hcounted⟩ := history_changes (I := Counted) hempty
    (fun _ _ _ hcounted hchange ↦ hcounted.change hchange) h
  refine ⟨hcounted.counted wid row hrow, ?_⟩
  rw [Nat.add_comm]
  exact (hcounted.bounded wid row hrow).trans (deliveryLimit_le _)

namespace Sample

def clockAt (minute : ℤ) : ℕ → WorkInput := fun _ ↦ { now := minute * 60 * 1000000 }

def served (calls : List (WorkCall × ℤ)) : WorkTables × ℕ :=
  calls.foldl (fun s c ↦ workDatabase.transact (clockAt c.2) s.2 s.1 (workBody config c.1)) ({}, 0)

theorem served_history (calls : List (WorkCall × ℤ)) :
    workDatabase.History (workBody config) (fun _ _ _ _ ↦ True) {} 0 (served calls).1
      (served calls).2 := by
  induction calls using List.reverseRecOn with
  | nil => exact .refl
  | append_singleton _ c ih =>
    rw [served, foldl_append]
    exact ih.step c.1 (clockAt c.2) trivial

/-- An item is delivered, and its acknowledgement does not come in time. -/
def requeued : List (WorkCall × ℤ) :=
  [(.enqueue work, 0), (.poll "agent" "agent-account" 10, 0), (.sweep everyItem, 2)]

def redelivered : List (WorkCall × ℤ) := requeued ++ [(.poll "agent" "agent-account" 10, 3)]

end Sample

open Sample

theorem delivery_count_honest_twice : ∃ row,
    (served redelivered).1.item "wi-00000001" = some row ∧ row.deliveryCount = 2 ∧
      ((served redelivered).1.deliveries "wi-00000001").length = 2 ∧ 2 ≤ 1 + maxRedeliveries := by
  have htwice : ((served redelivered).1.item "wi-00000001").any
      (fun row ↦ row.deliveryCount = 2) = true := by
    decide
  obtain ⟨row, hrow, hcount⟩ := (Option.any_eq_true _ _).1 htwice
  obtain ⟨hhonest, hbound⟩ := delivery_count_honest (served_history redelivered) hrow
  rw [of_decide_eq_true hcount] at hhonest hbound
  exact ⟨row, hrow, of_decide_eq_true hcount, hhonest.symm, hbound⟩

end AgentColab.Work
